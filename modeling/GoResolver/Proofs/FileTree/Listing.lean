import GoResolver.FileTree
import GoResolver.Proofs.Entries

/-!
# Trees that list their directories in other orders

A system lists the entries of a directory in an order of its own.  `FileTree.Relisted` relates two
trees that differ in nothing else: at every place both hold the same file, or both hold a directory
with the same names, or neither holds anything.

Looking a path up does not see the order (`place_eq`), because a walk asks for one name at a time.
So the two trees agree on everything that is asked for by path (`isDir_eq`, `isFile_eq`,
`readText_eq`), and a listing shows the same names (`exists_list_perm`).

That reordering the entries of one directory gives trees so related is `Node.Relisted.of_perm`; it
needs that no name occurs twice there, since of two entries with one name the first is found.
-/

namespace GoResolver

/-! ## 1. Nodes -/

namespace Node

/-- What a place holds in two trees that differ in the order of listings. -/
inductive SameButOrder : Option Node → Option Node → Prop where
  | nothing : SameButOrder none none
  | file (content : Content) : SameButOrder (some (.file content)) (some (.file content))
  | dir {entries entries' : List (String × Node)}
      (names : (entries.map Prod.fst).Perm (entries'.map Prod.fst)) :
      SameButOrder (some (.dir entries)) (some (.dir entries'))

theorem SameButOrder.refl (found : Option Node) : SameButOrder found found := by
  cases found with
  | none => exact .nothing
  | some node =>
    cases node with
    | file content => exact .file content
    | dir entries => exact .dir (List.Perm.refl _)

/-- Whether two nodes differ in the order of listings only, at them and below. -/
def Relisted (node node' : Node) : Prop :=
  ∀ place, SameButOrder (node.get? place) (node'.get? place)

theorem Relisted.refl (node : Node) : Relisted node node := fun place => .refl (node.get? place)

/-- Directories with the same names are related when what each name leads to is. -/
theorem Relisted.dir {entries entries' : List (String × Node)}
    (hnames : (entries.map Prod.fst).Perm (entries'.map Prod.fst))
    (hbelow : ∀ name node node', entries.lookup name = some node →
      entries'.lookup name = some node' → Relisted node node') :
    Relisted (.dir entries) (.dir entries') := by
  intro place
  cases place with
  | nil => exact .dir hnames
  | cons name rest =>
    have hfound : (entries.lookup name).isSome = (entries'.lookup name).isSome := by
      rw [Bool.eq_iff_iff, isSome_lookup_iff, isSome_lookup_iff, hnames.mem_iff]
    rw [get?, get?]
    cases hnode : entries.lookup name with
    | none =>
      rw [hnode] at hfound
      have hnode' : entries'.lookup name = none := by simpa using hfound.symm
      simp only [Node.entries, hnode, hnode']
      exact .nothing
    | some node =>
      rw [hnode] at hfound
      obtain ⟨node', hnode'⟩ := Option.isSome_iff_exists.mp hfound.symm
      simp only [Node.entries, hnode, hnode']
      exact hbelow name node node' hnode hnode' rest

/-- **The entries of a directory can be listed in any order**, if no name occurs twice. -/
theorem Relisted.of_perm {entries entries' : List (String × Node)}
    (hnodup : (entries.map Prod.fst).Nodup) (h : entries.Perm entries') :
    Relisted (.dir entries) (.dir entries') := by
  refine .dir (h.map Prod.fst) fun name node node' hnode hnode' => ?_
  rw [lookup_eq_of_perm hnodup h, hnode'] at hnode
  rw [Option.some_inj.mp hnode]
  exact .refl node

end Node

/-! ## 2. Trees -/

namespace FileTree

/-- Whether two trees differ in the order of listings only. -/
structure Relisted (t t' : FileTree) : Prop where
  cwd_eq : t.cwd = t'.cwd
  root : t.root.Relisted t'.root

namespace Relisted

variable {t t' : FileTree} (h : Relisted t t') {p : Path}

include h

theorem step_eq (place : List String) (segment : String) :
    t.step place segment = t'.step place segment := by
  have hplace := h.root place
  rw [step, step]
  generalize t.root.get? place = node at hplace
  generalize t'.root.get? place = node' at hplace
  cases hplace with
  | nothing => rfl
  | file content => rfl
  | dir names =>
    have hfound := Bool.eq_iff_iff.mpr
      ((isSome_lookup_iff.trans (names.mem_iff (a := segment))).trans isSome_lookup_iff.symm)
    dsimp only
    rw [hfound]

theorem walk_eq (place segments : List String) :
    t.walk place segments = t'.walk place segments := by
  induction segments generalizing place with
  | nil => rfl
  | cons segment segments ih =>
    rw [walk, walk, h.step_eq]
    cases t'.step place segment with
    | error e => rfl
    | ok next => exact ih next

/-- **A path leads to the same place, whatever the order of listings.** -/
theorem place_eq (p : Path) : t.place p = t'.place p := by
  rw [FileTree.place, FileTree.place, h.walk_eq, start, start, h.cwd_eq]

/-- What a path is found to lead to. -/
theorem find_cases (p : Path) :
    (∃ e, t.find p = .error e ∧ t'.find p = .error e) ∨
    ∃ node node', t.find p = .ok node ∧ t'.find p = .ok node' ∧
      Node.SameButOrder (some node) (some node') := by
  rw [find, find, h.place_eq]
  cases t'.place p with
  | error e => exact .inl ⟨e, rfl, rfl⟩
  | ok place =>
    have hplace := h.root place
    dsimp only
    cases hnode : t.root.get? place with
    | none =>
      rw [hnode] at hplace
      generalize t'.root.get? place = node' at hplace
      cases hplace
      exact .inl ⟨_, rfl, rfl⟩
    | some node =>
      cases hnode' : t'.root.get? place with
      | none =>
        rw [hnode, hnode'] at hplace
        cases hplace
      | some node' =>
        rw [hnode, hnode'] at hplace
        exact .inr ⟨node, node', rfl, rfl, hplace⟩

theorem isDir_eq (p : Path) : t.isDir p = t'.isDir p := by
  rw [isDir, isDir]
  rcases h.find_cases p with ⟨e, hfind, hfind'⟩ | ⟨node, node', hfind, hfind', hsame⟩
  · rw [hfind, hfind']
  · rw [hfind, hfind']
    cases hsame with
    | file content => rfl
    | dir names => rfl

theorem isFile_eq (p : Path) : t.isFile p = t'.isFile p := by
  rw [isFile, isFile]
  rcases h.find_cases p with ⟨e, hfind, hfind'⟩ | ⟨node, node', hfind, hfind', hsame⟩
  · rw [hfind, hfind']
  · rw [hfind, hfind']
    cases hsame with
    | file content => rfl
    | dir names => rfl

theorem readText_eq (p : Path) : t.readText p = t'.readText p := by
  rw [readText, readText]
  rcases h.find_cases p with ⟨e, hfind, hfind'⟩ | ⟨node, node', hfind, hfind', hsame⟩
  · rw [hfind, hfind']
  · rw [hfind, hfind']
    cases hsame with
    | file content => rfl
    | dir names => rfl

/-- **A listing shows the same names, in some order.** -/
theorem exists_list_perm (hdir : t.isDir p = true) :
    ∃ entries entries', t.list p = .ok entries ∧ t'.list p = .ok entries' ∧
      (entries.map Prod.fst).Perm (entries'.map Prod.fst) := by
  rw [isDir] at hdir
  rw [list, list]
  rcases h.find_cases p with ⟨e, hfind, -⟩ | ⟨node, node', hfind, hfind', hsame⟩
  · rw [hfind] at hdir
    cases hdir
  · rw [hfind] at hdir
    rw [hfind, hfind']
    cases hsame with
    | file content => cases hdir
    | dir names => exact ⟨_, _, rfl, rfl, names⟩

end Relisted

end FileTree

end GoResolver
