import GoResolver.Proofs.FileTree.Spelling
import GoResolver.Proofs.Importer.Import
import Mathlib.Data.Finset.Card

/-!
# The first insertion wins

A cache is used by four operations: packages are inserted, looked up and asked for, and all are
dropped at once.  What it answers is a matter of its history alone, which is said here without the
cache: `held` lists the insertions since the last time everything was dropped, each under what
counts of its import path and its directory.

* Two keys are equal when the import paths are and the directories have the same essentials: the
  same start and the same segments, where empty segments and `.` do not count
  (`CacheKey.of_eq_of_iff_named`).
* Looking up finds the first insertion in the list, and the size is the number of different keys in
  it (`get?_reached`, `size_reached`).  Both are inductions on the history, from its end: the step
  is one more operation.
* `answer_reached` puts the answers of all operations together.
-/

namespace GoResolver

/-! ## 1. Keys -/

/-- What counts of a path. -/
structure Path.Essentials where
  /-- Whether the path starts at the root. -/
  absolute : Bool
  /-- Whether the path is relative and starts with `.`. -/
  here : Bool
  /-- The segments but for the empty ones and `.`. -/
  segments : List String
  deriving DecidableEq

/-- What counts of a path. -/
def Path.essentials (p : Path) : Essentials where
  absolute := p.isAbsolute
  here := !p.isAbsolute && p.segments.head? == some "."
  segments := p.segments.filter fun s => !isTrivial s

/-- The lead can be told from the start of the text. -/
theorem Path.lead_eq_iff {p q : Path} :
    p.lead = q.lead ↔ p.isAbsolute = q.isAbsolute ∧
      (!p.isAbsolute && p.segments.head? == some ".") =
        (!q.isAbsolute && q.segments.head? == some ".") := by
  rw [lead, lead]
  cases p.isAbsolute <;> cases q.isAbsolute <;>
    by_cases hp : p.segments.head? = some "." <;> by_cases hq : q.segments.head? = some "." <;>
    simp [hp, hq]

/-- The steps can be told from the segments that count. -/
theorem Path.steps_eq_iff {p q : Path} :
    p.steps = q.steps ↔ (p.segments.filter fun s => !isTrivial s) =
      q.segments.filter fun s => !isTrivial s := by
  constructor
  · intro h
    rw [filter_segments, filter_segments]
    exact congrArg (List.map Component.segment) h
  · have hsteps : ∀ r : Path,
        r.steps = (r.segments.filter fun s => !isTrivial s).filterMap component? := by
      intro r
      rw [List.filterMap_filter]
      refine List.filterMap_congr fun s _ => ?_
      by_cases hs : isTrivial s = true
      · simp [hs, component?_eq_none_iff.mpr hs]
      · simp [hs]
    intro h
    rw [hsteps, hsteps, h]

/-- **Two paths are the same when their essentials are.** -/
theorem Path.same_iff_essentials {p q : Path} : p.Same q ↔ p.essentials = q.essentials := by
  rw [same_iff, lead_eq_iff, steps_eq_iff, essentials, essentials, Essentials.mk.injEq, and_assoc]

/-- What a package is found again under, said without the cache. -/
structure Naming where
  importPath : String
  dir : Path.Essentials
  deriving DecidableEq

/-- What counts of an import path seen from a directory. -/
def Naming.of (importPath : String) (dir : Path) : Naming := ⟨importPath, dir.essentials⟩

/-- Two keys are equal when what counts of them is. -/
theorem CacheKey.of_eq_of_iff_named {p p' : String} {d d' : Path} :
    CacheKey.of p d = CacheKey.of p' d' ↔ Naming.of p d = Naming.of p' d' := by
  rw [of_eq_of_iff, Path.same_iff_essentials, Naming.of, Naming.of, Naming.mk.injEq]

namespace Cache

/-! ## 2. Operations -/

/-- What can be done with a cache. -/
inductive Operation where
  | insert (importPath : String) (dir : Path) (package : Package)
  | get (importPath : String) (dir : Path)
  | contains (importPath : String) (dir : Path)
  | clear

/-- What an operation answers. -/
inductive Answer where
  | package (p : Option Package)
  | truth (b : Bool)
  | done
  deriving DecidableEq

/-- The cache after an operation, and the answer. -/
def step (c : Cache) : Operation → Cache × Answer
  | .insert path dir package =>
    (c.insert (.of path dir) package, .package (some (c.stored (.of path dir) package)))
  | .get path dir => (c, .package (c.get? (.of path dir)))
  | .contains path dir => (c, .truth (c.contains (.of path dir)))
  | .clear => (.empty, .done)

/-- The cache after a history that starts with a new cache. -/
def reached (history : List Operation) : Cache :=
  history.foldl (fun c o => (c.step o).1) .empty

/-- What an operation answers after a history. -/
def answer (history : List Operation) (o : Operation) : Answer := ((reached history).step o).2

theorem reached_concat (history : List Operation) (o : Operation) :
    reached (history ++ [o]) = ((reached history).step o).1 := by
  rw [reached, List.foldl_append]
  rfl

/-! ## 3. What a history leaves behind -/

/-- Whether an operation drops all packages. -/
def Operation.isClear : Operation → Bool
  | .clear => true
  | _ => false

/-- What an operation inserts. -/
def Operation.inserted? : Operation → Option (Naming × Package)
  | .insert path dir package => some (.of path dir, package)
  | _ => none

/-- The operations since the last one that dropped all packages. -/
def sinceClear (history : List Operation) : List Operation :=
  (history.reverse.takeWhile (!·.isClear)).reverse

/-- The insertions since all packages were dropped, oldest first. -/
def held (history : List Operation) : List (Naming × Package) :=
  (sinceClear history).filterMap Operation.inserted?

theorem sinceClear_concat (history : List Operation) (o : Operation) :
    sinceClear (history ++ [o]) = if o.isClear then [] else sinceClear history ++ [o] := by
  rw [sinceClear, List.reverse_append, List.reverse_singleton, List.singleton_append,
    List.takeWhile_cons]
  cases o.isClear <;> simp [sinceClear]

theorem held_concat (history : List Operation) (o : Operation) :
    held (history ++ [o]) = if o.isClear then [] else held history ++ o.inserted?.toList := by
  rw [held, sinceClear_concat]
  cases o.isClear with
  | true => rfl
  | false =>
    rw [if_neg Bool.false_ne_true, if_neg Bool.false_ne_true, List.filterMap_append, held]
    cases h : o.inserted? with
    | none => rw [List.filterMap_cons_none h]; rfl
    | some entry => rw [List.filterMap_cons_some h]; rfl

/-- Operations that drop nothing only add to what is there. -/
theorem held_append (history : List Operation) {later : List Operation}
    (h : ∀ o ∈ later, o.isClear = false) :
    held (history ++ later) = held history ++ later.filterMap Operation.inserted? := by
  have hkept : ∀ o ∈ later.reverse, (!o.isClear) = true := by
    intro o ho
    rw [h o (List.mem_reverse.mp ho)]
    rfl
  rw [held, sinceClear, List.reverse_append, List.takeWhile_append_of_pos hkept,
    List.reverse_append, List.reverse_reverse, List.filterMap_append]
  rfl

/-! ## 4. What the cache holds -/

theorem get?_insert (c : Cache) (key other : CacheKey) (package : Package) :
    (c.insert key package).get? other =
      (c.get? other).or (if other = key then some package else none) := by
  by_cases h : other = key
  · subst h
    rw [get?_insert_self, stored, if_pos rfl]
    cases c.get? other <;> rfl
  · rw [get?_insert_of_ne package h, if_neg h]
    cases c.get? other <;> rfl

theorem size_insert (c : Cache) (key : CacheKey) (package : Package) :
    (c.insert key package).size = c.size + if (c.get? key).isSome then 0 else 1 := by
  rw [insert]
  split
  · next h => rw [h]; rfl
  · next h =>
    have hone : (if (c.get? key).isSome then 0 else 1) = 1 := by simp [h]
    rw [hone, size, List.length_append]
    rfl

/-- **The cache holds the first insertions.** -/
theorem get?_reached (history : List Operation) (path : String) (dir : Path) :
    (reached history).get? (.of path dir) = (held history).lookup (.of path dir) := by
  induction history using List.reverseRecOn with
  | nil => rfl
  | append_singleton history o ih =>
    rw [reached_concat, held_concat]
    cases o with
    | insert path' dir' package =>
      show ((reached history).insert (.of path' dir') package).get? (.of path dir) =
        (held history ++ [(Naming.of path' dir', package)]).lookup (.of path dir)
      rw [get?_insert, ih, List.lookup_append, List.lookup_cons]
      by_cases hkey : Naming.of path dir = Naming.of path' dir'
      · rw [if_pos (CacheKey.of_eq_of_iff_named.mpr hkey), beq_iff_eq.mpr hkey]
      · rw [if_neg (CacheKey.of_eq_of_iff_named.not.mpr hkey), beq_eq_false_iff_ne.mpr hkey]
        rfl
    | get path' dir' => simpa [step, Operation.isClear, Operation.inserted?] using ih
    | contains path' dir' => simpa [step, Operation.isClear, Operation.inserted?] using ih
    | clear => rfl

/-- A package is found when one was inserted. -/
theorem isSome_get?_reached (history : List Operation) (path : String) (dir : Path) :
    ((reached history).get? (.of path dir)).isSome = true ↔
      Naming.of path dir ∈ (held history).map Prod.fst := by
  rw [get?_reached, List.lookup_isSome_iff, List.mem_map]
  refine exists_congr fun e => and_congr_right fun _ => ?_
  rw [beq_iff_eq, eq_comm]

theorem length_dedup_concat {α : Type} [DecidableEq α] (l : List α) (a : α) :
    (l ++ [a]).dedup.length = l.dedup.length + if a ∈ l then 0 else 1 := by
  rw [← List.card_toFinset, ← List.card_toFinset, List.toFinset_append, Finset.union_comm]
  by_cases h : a ∈ l
  · rw [if_pos h, Nat.add_zero, List.toFinset_cons, List.toFinset_nil, Finset.insert_union,
      Finset.empty_union, Finset.insert_eq_of_mem (List.mem_toFinset.mpr h)]
  · rw [if_neg h, List.toFinset_cons, List.toFinset_nil, Finset.insert_union, Finset.empty_union,
      Finset.card_insert_of_notMem (by simpa using h)]

/-- **The size is the number of different keys that were inserted.** -/
theorem size_reached (history : List Operation) :
    (reached history).size = ((held history).map Prod.fst).dedup.length := by
  induction history using List.reverseRecOn with
  | nil => rfl
  | append_singleton history o ih =>
    rw [reached_concat, held_concat]
    cases o with
    | insert path dir package =>
      show ((reached history).insert (.of path dir) package).size =
        ((held history ++ [(Naming.of path dir, package)]).map Prod.fst).dedup.length
      rw [size_insert, List.map_append, List.map_singleton, length_dedup_concat, ih]
      simp only [isSome_get?_reached]
    | get path dir => simpa [step, Operation.isClear, Operation.inserted?] using ih
    | contains path dir => simpa [step, Operation.isClear, Operation.inserted?] using ih
    | clear => rfl

/-- **A cache is a map in which the first insertion wins.**  After any history:

* looking up finds the first package that was inserted under an equal key since the packages were
  dropped, and there is one exactly when the cache is said to contain the key;
* the size is the number of different keys that were inserted since then;
* inserting answers with the package that is found from then on under the key, in any spelling,
  until the packages are dropped. -/
theorem answer_reached (history : List Operation) (path : String) (dir : Path)
    (package : Package) :
    answer history (.get path dir) = .package ((held history).lookup (.of path dir)) ∧
    answer history (.contains path dir) = .truth ((held history).lookup (.of path dir)).isSome ∧
    (reached history).size = ((held history).map Prod.fst).dedup.length ∧
    ∃ p, p = ((held history).lookup (.of path dir)).getD package ∧
      answer history (.insert path dir package) = .package (some p) ∧
      ∀ later : List Operation, (∀ o ∈ later, o.isClear = false) →
        ∀ path' dir', Naming.of path' dir' = Naming.of path dir →
          answer (history ++ .insert path dir package :: later) (.get path' dir') =
            .package (some p) := by
  have hget : ∀ history path dir,
      answer history (.get path dir) = .package ((held history).lookup (.of path dir)) :=
    fun history path dir => congrArg Answer.package (get?_reached history path dir)
  refine ⟨hget history path dir, ?_, size_reached history, _, rfl, ?_,
    fun later hlater path' dir' hkey => ?_⟩
  · rw [← get?_reached]
    rfl
  · rw [← get?_reached]
    rfl
  · have hkept : ∀ o ∈ Operation.insert path dir package :: later, o.isClear = false :=
      List.forall_mem_cons.mpr ⟨rfl, hlater⟩
    have hfirst : ((Operation.insert path dir package :: later).filterMap
        Operation.inserted?).lookup (.of path dir) = some package := by
      show ((Naming.of path dir, package) :: later.filterMap Operation.inserted?).lookup
        (.of path dir) = some package
      rw [List.lookup_cons, beq_self_eq_true]
    rw [hget, hkey, held_append history hkept, List.lookup_append, hfirst]
    cases (held history).lookup (.of path dir) <;> rfl

/-- A package that was dropped, and another one that was inserted after it. -/
def refilled : List Operation :=
  [.insert "fmt" ⟨"/a"⟩ ⟨"fmt", "dropped", true, []⟩, .clear,
    .insert "fmt" ⟨"/a/"⟩ ⟨"fmt", "first", true, []⟩]

/-- The package that was dropped is not found again, and an insertion under another spelling of the
directory does not replace the package that is there. -/
theorem answer_reached_of_spellings :
    held refilled = [(.of "fmt" ⟨"/a//."⟩, ⟨"fmt", "first", true, []⟩)] ∧
    Naming.of "fmt" ⟨"/./a"⟩ = Naming.of "fmt" ⟨"/a/."⟩ ∧
    Naming.of "fmt" ⟨"./a"⟩ ≠ Naming.of "fmt" ⟨"a"⟩ ∧
    answer (refilled ++ .insert "fmt" ⟨"/a/."⟩ ⟨"fmt", "second", true, []⟩ ::
        [.contains "fmt" ⟨"a"⟩]) (.get "fmt" ⟨"/./a"⟩) =
      .package (some ⟨"fmt", "first", true, []⟩) := by
  have hheld : held refilled = [(.of "fmt" ⟨"/a//."⟩, ⟨"fmt", "first", true, []⟩)] := by
    decide +kernel
  have hkey : Naming.of "fmt" ⟨"/./a"⟩ = Naming.of "fmt" ⟨"/a/."⟩ := by decide +kernel
  obtain ⟨-, -, -, p, hp, -, hlater⟩ :=
    answer_reached refilled "fmt" ⟨"/a/."⟩ ⟨"fmt", "second", true, []⟩
  have hfirst : p = ⟨"fmt", "first", true, []⟩ := by
    rw [hp, hheld]
    decide +kernel
  have hfound := hlater [.contains "fmt" ⟨"a"⟩] (List.forall_mem_singleton.mpr rfl) _ _ hkey
  exact ⟨hheld, hkey, by decide +kernel, hfirst ▸ hfound⟩

end Cache

end GoResolver
