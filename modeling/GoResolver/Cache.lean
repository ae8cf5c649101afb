import GoResolver.Package

/-!
# The cache of resolved packages

A cache entry is found again under the same import path and the same source directory, where
directories are compared as paths: a key holds the directory's components and so no spelling of it.

An entry is never replaced.  `insert` keeps what is there, so the package of the first insertion
under a key is the one that `get?` returns from then on, and the keys of a cache are pairwise
different.
-/

namespace GoResolver

/-- What a resolved package is found again under. -/
structure CacheKey where
  importPath : String
  sourceDir : List Component
  deriving Repr, DecidableEq

/-- The key of an import path seen from a directory. -/
def CacheKey.of (importPath : String) (sourceDir : Path) : CacheKey :=
  ⟨importPath, sourceDir.components⟩

/-- Resolved packages by key, oldest first. -/
structure Cache where
  entries : List (CacheKey × Package) := []
  /-- No key occurs twice. -/
  distinct : (entries.map Prod.fst).Nodup := by simp

namespace Cache

/-- The cache without entries. -/
def empty : Cache := {}

instance : Inhabited Cache := ⟨empty⟩

/-- The package stored under a key. -/
def get? (c : Cache) (key : CacheKey) : Option Package := c.entries.lookup key

/-- Whether a package is stored under a key. -/
def contains (c : Cache) (key : CacheKey) : Bool := (c.get? key).isSome

/-- The number of packages stored. -/
def size (c : Cache) : Nat := c.entries.length

/-- Whether no package is stored. -/
def isEmpty (c : Cache) : Bool := c.entries.isEmpty

theorem not_mem_keys_of_get?_eq_none {c : Cache} {key : CacheKey} (h : c.get? key = none) :
    key ∉ c.entries.map Prod.fst := by
  intro hmem
  obtain ⟨e, he, rfl⟩ := List.mem_map.mp hmem
  have := List.lookup_eq_none_iff.mp h e he
  simp at this

/-- Stores a package, unless there is one under the key. -/
def insert (c : Cache) (key : CacheKey) (package : Package) : Cache :=
  match h : c.get? key with
  | some _ => c
  | none =>
    { entries := c.entries ++ [(key, package)]
      distinct := by
        have := not_mem_keys_of_get?_eq_none h
        rw [List.map_append, List.nodup_append]
        refine ⟨c.distinct, by simp, ?_⟩
        rintro k hk _ hk' rfl
        simp only [List.map_cons, List.map_nil, List.mem_singleton] at hk'
        exact this (hk' ▸ hk) }

/-- The package that the cache holds under a key once `package` was inserted. -/
def stored (c : Cache) (key : CacheKey) (package : Package) : Package :=
  (c.get? key).getD package

@[simp] theorem get?_empty (key : CacheKey) : empty.get? key = none := rfl

theorem get?_insert_self (c : Cache) (key : CacheKey) (package : Package) :
    (c.insert key package).get? key = some (c.stored key package) := by
  unfold insert stored
  split
  · next h => simp [h]
  · next h => simp_all [get?, List.lookup_append]

theorem get?_insert_of_ne {c : Cache} {key other : CacheKey} (package : Package)
    (h : other ≠ key) : (c.insert key package).get? other = c.get? other := by
  unfold insert
  split
  · rfl
  · have : (other == key) = false := by simpa using h
    simp [get?, List.lookup_append, this, List.lookup_cons]

end Cache

end GoResolver
