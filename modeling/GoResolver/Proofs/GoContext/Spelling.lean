import GoResolver.Proofs.FileTree.Spelling
import GoResolver.Proofs.GoContext.RootSoundness
import GoResolver.Proofs.GoContext.Search
import Mathlib.Data.List.Forall2

/-!
# The spelling of the importing directory and the search

The same directory can be written in many ways, and the answer to an import should depend on the
directory and not on the writing.  For an import path that is not local the importing directory
only decides which `vendor` directories are searched, and these are found by cutting its text short.

1. Slashes and `.` do no harm: two spellings with the same components have the same candidates, one
   for one (`forall₂_place_vendorCandidates`), and what is at them is found alike, because the disk
   cannot tell them apart (`Alike.of_place_eq`).
2. A `..` does harm.  The text `app/../lib` passes through `app`, so the `vendor` directory of `app`
   is searched from there, and from `lib` it is not (`not_found_alike_of_detour`).

`locate_agrees_of_spelling` is therefore about spellings without `..`, which lead to the same
directory only when they have the same components, and about any spellings as long as no `vendor`
directory has the package.  Of every spelling it says which `vendor` directory can be used: one of a
directory that the text passes through.

Spelling also costs length, and the system refuses a path that is too long.  Where `vendor`
directories decide, the paths that are looked at must fit (`Location.Fits`).
-/

namespace GoResolver

/-! ## 1. What is found, whatever the spelling -/

/-- What a lookup finds, but for how directories are spelled: the kind of an error, or the place. -/
def Lookup.found (r : Lookup) : Except String Place :=
  match r.result with
  | .error e => .error e.code
  | .ok l => .ok l.place

/-- The names that a directory lists. -/
def FileTree.namesIn (t : FileTree) (dir : Path) : List String :=
  match t.list dir with
  | .error _ => []
  | .ok entries => entries.map Prod.fst

/-- No path that is looked at for a location is too long for the system. -/
def Location.Fits (files : FileTree) (l : Location) : Prop :=
  l.dir.Fits ∧ ∀ name ∈ files.namesIn l.dir, (l.dir.child name).Fits

instance (files : FileTree) (l : Location) : Decidable (l.Fits files) :=
  inferInstanceAs (Decidable (_ ∧ _))

/-! ## 2. The candidates of two spellings -/

/-- The paths above two spellings of a relative path are spellings of each other, one for one. -/
theorem Path.forall₂_same_ancestors {p p' : Path} (hlead : p.lead = none) (h : p.Same p') :
    List.Forall₂ (fun sub sub' => sub.lead = none ∧ sub.Same sub') p.ancestors p'.ancestors := by
  have hlead' : p'.lead = none := (same_iff.mp h).1.symm.trans hlead
  have hcomponents : p.ancestors.map components = p'.ancestors.map components := by
    have hsame : p.components = p'.components := h
    rw [components_ancestors hlead, components_ancestors hlead', hsame]
  rw [List.forall₂_and_left]
  refine ⟨fun sub hsub => lead_of_mem_ancestors hlead hsub, ?_⟩
  rw [← List.forall₂_eq_eq_eq, List.forall₂_map_left_iff, List.forall₂_map_right_iff]
    at hcomponents
  exact hcomponents

namespace GoContext

variable {ctx : GoContext} {files : FileTree} {path : String} {d d' : Path}

/-- A vendored package of a subdirectory is at one place, however the subdirectory is spelled. -/
theorem place_vendored_eq_of_same (hvalid : ImportPath.validate path = .ok ())
    (hlocal : ImportPath.isLocal path = false) (tree : SourceTree) {sub sub' : Path}
    (hlead : sub.lead = none) (h : sub.Same sub') :
    (vendored tree sub path).place = (vendored tree sub' path).place := by
  have hlead' : sub'.lead = none := (Path.same_iff.mp h).1.symm.trans hlead
  have hcomponents : sub.components = sub'.components := h
  have hnames : sub.slashNames = sub'.slashNames := by
    rw [Path.slashNames, Path.slashNames, Path.names, Path.names, hcomponents]
  have hdir : (vendored tree sub path).dir.components =
      (vendored tree sub' path).dir.components := by
    rw [components_vendored hvalid hlocal tree hlead, components_vendored hvalid hlocal tree hlead',
      hcomponents]
  rw [Location.place, Location.place, hdir, vendored, vendored, hnames]

/-- One source tree contains both spellings of a directory, with the same path in it. -/
theorem enclosing?_of_same (h : d.Same d') {tree : SourceTree} {rest : Path}
    (henclosing : ctx.enclosing? d = some (tree, rest)) :
    ∃ rest', ctx.enclosing? d' = some (tree, rest') ∧ rest.lead = none ∧ rest.Same rest' := by
  have hsame : d.components = d'.components := h
  obtain ⟨-, hlead, hcomponents, hfind⟩ := enclosing?_eq_some henclosing
  cases henclosing' : ctx.enclosing? d' with
  | none =>
    rw [enclosing?_eq_none_iff, ← hsame, hfind] at henclosing'
    cases henclosing'
  | some found =>
    obtain ⟨tree', rest'⟩ := found
    obtain ⟨-, -, hcomponents', hfind'⟩ := enclosing?_eq_some henclosing'
    rw [← hsame, hfind, Option.some_inj] at hfind'
    rw [← hfind', ← hsame, hcomponents, List.append_cancel_left_eq] at hcomponents'
    exact ⟨rest', by rw [hfind'], hlead, hcomponents'⟩

/-- **Both spellings of a directory have the same vendored candidates, one for one.** -/
theorem forall₂_place_vendorCandidates (hvalid : ImportPath.validate path = .ok ())
    (hlocal : ImportPath.isLocal path = false) (h : d.Same d') :
    List.Forall₂ (fun l l' => l.place = l'.place) (ctx.vendorCandidates path d)
      (ctx.vendorCandidates path d') := by
  cases henclosing : ctx.enclosing? d with
  | none =>
    have hsame : d.components = d'.components := h
    have henclosing' : ctx.enclosing? d' = none := by
      rw [enclosing?_eq_none_iff, ← hsame, ← enclosing?_eq_none_iff, henclosing]
    rw [vendorCandidates, vendorCandidates, henclosing, henclosing']
    exact .nil
  | some found =>
    obtain ⟨tree, rest⟩ := found
    obtain ⟨rest', henclosing', hlead, hrest⟩ := enclosing?_of_same h henclosing
    rw [vendorCandidates, vendorCandidates, henclosing, henclosing']
    simp only [List.forall₂_map_left_iff, List.forall₂_map_right_iff]
    exact (Path.forall₂_same_ancestors hlead hrest).imp fun sub sub' hsub =>
      place_vendored_eq_of_same hvalid hlocal tree hsub.1 hsub.2

/-! ## 3. What is at two spellings of a place -/

/-- The kind of what looking through a directory found. -/
def Findings.kind (r : Findings) : Except String Bool :=
  match r.verdict with
  | .error e => .error e.code
  | .ok b => .ok b

/-- Looking through the same files finds the same. -/
theorem kind_examine_eq {dir dir' : Path} {names : List String}
    (h : ∀ name ∈ names, files.find (dir.child name) = files.find (dir'.child name)) :
    (ctx.examine files dir names).kind = (ctx.examine files dir' names).kind := by
  induction names with
  | nil => rfl
  | cons name names ih =>
    have hfind := h name List.mem_cons_self
    have hfile : files.isFile (dir.child name) = files.isFile (dir'.child name) := by
      rw [FileTree.isFile, FileTree.isFile, hfind]
    have hread : files.readText (dir.child name) = files.readText (dir'.child name) := by
      rw [FileTree.readText, FileTree.readText, hfind]
    have hrest := ih fun name' hname' => h name' (List.mem_cons_of_mem _ hname')
    rw [examine, examine, hfile, hread]
    split
    · exact hrest
    · cases files.readText (dir'.child name) with
      | error e => rfl
      | ok source =>
        dsimp only
        cases Constraint.ofSource source with
        | error malformed => exact hrest
        | ok constraint =>
          cases constraint with
          | none => rfl
          | some c =>
            dsimp only
            split
            · rfl
            · exact hrest

/-- Two locations that a search cannot tell apart. -/
structure Alike (ctx : GoContext) (files : FileTree) (path : String) (l l' : Location) : Prop where
  isDir_eq : files.isDir l.dir = files.isDir l'.dir
  found_eq : files.isDir l.dir = true →
    (ctx.accept files path l).found = (ctx.accept files path l').found

theorem Alike.refl (ctx : GoContext) (files : FileTree) (path : String) (l : Location) :
    Alike ctx files path l l := ⟨rfl, fun _ => rfl⟩

/-- What is found at a listed location depends on what looking through the names found. -/
theorem found_accept_of_list {l : Location} {entries : List (String × Node)}
    (h : files.list l.dir = .ok entries) :
    (ctx.accept files path l).found =
      (ctx.examine files l.dir (entries.map Prod.fst)).kind.bind fun buildable =>
        if buildable then .ok l.place
        else .error (ResolutionError.noBuildableFiles path l.dir).code := by
  rw [accept, h, Lookup.found, Findings.kind]
  dsimp only
  cases (ctx.examine files l.dir (entries.map Prod.fst)).verdict with
  | error e => rfl
  | ok buildable =>
    cases buildable with
    | true => rfl
    | false => rfl

theorem list_and_namesIn_of_find {dir : Path} {entries : List (String × Node)}
    (h : files.find dir = .ok (.dir entries)) :
    files.list dir = .ok entries ∧ files.namesIn dir = entries.map Prod.fst := by
  have hlist : files.list dir = .ok entries := by rw [FileTree.list, h]
  exact ⟨hlist, by rw [FileTree.namesIn, hlist]⟩

/-- **At two spellings of a place the same is found**, when the same names lead to the same nodes
below them. -/
theorem found_accept_eq_of_find_child {path' : String} {l l' : Location} (h : l.place = l'.place)
    {entries : List (String × Node)} (hfind : files.find l.dir = .ok (.dir entries))
    (hfind' : files.find l'.dir = .ok (.dir entries))
    (hchild : ∀ name ∈ files.namesIn l.dir,
      files.find (l.dir.child name) = files.find (l'.dir.child name)) :
    (ctx.accept files path l).found = (ctx.accept files path' l').found := by
  obtain ⟨hlist, hnames⟩ := list_and_namesIn_of_find hfind
  rw [hnames] at hchild
  rw [found_accept_of_list hlist, found_accept_of_list (list_and_namesIn_of_find hfind').1,
    kind_examine_eq hchild, h]
  rfl

/-- **Two spellings of a place are alike.** -/
theorem Alike.of_place_eq {l l' : Location} (h : l.place = l'.place) (hl : l.Fits files)
    (hl' : l'.Fits files) : Alike ctx files path l l' := by
  obtain ⟨-, hdir, -⟩ := Place.mk.inj h
  refine ⟨FileTree.isDir_eq_of_same hdir hl.1 hl'.1, fun hisDir => ?_⟩
  obtain ⟨entries, hfind⟩ := FileTree.isDir_iff.mp hisDir
  have hfind' := (FileTree.find_eq_dir_iff_of_same hdir hl.1 hl'.1).mp hfind
  have hnames : files.namesIn l.dir = files.namesIn l'.dir := by
    rw [(list_and_namesIn_of_find hfind).2, (list_and_namesIn_of_find hfind').2]
  exact found_accept_eq_of_find_child h hfind hfind' fun name hname =>
    FileTree.find_child_of_same hdir hl.1 hl'.1 hfind
      (iff_of_true (hl.2 name hname) (hl'.2 name (hnames ▸ hname)))

/-! ## 4. The search -/

/-- Among candidates that are alike, one for one, the first directories are alike. -/
theorem find?_of_alike {ls ls' : List Location}
    (h : List.Forall₂ (Alike ctx files path) ls ls') :
    (ls.find? (fun l => files.isDir l.dir) = none ∧
      ls'.find? (fun l => files.isDir l.dir) = none) ∨
    ∃ l l', ls.find? (fun l => files.isDir l.dir) = some l ∧
      ls'.find? (fun l => files.isDir l.dir) = some l' ∧
      (ctx.accept files path l).found = (ctx.accept files path l').found := by
  induction h with
  | nil => exact .inl ⟨rfl, rfl⟩
  | @cons l l' ls ls' hl _ ih =>
    cases hdir : files.isDir l.dir with
    | true =>
      have hdir' : files.isDir l'.dir = true := by rw [← hl.isDir_eq, hdir]
      exact .inr ⟨l, l', List.find?_cons_of_pos hdir, List.find?_cons_of_pos hdir',
        hl.found_eq hdir⟩
    | false =>
      have hdir' : files.isDir l'.dir = false := by rw [← hl.isDir_eq, hdir]
      rw [List.find?_cons_of_neg (by simp [hdir]), List.find?_cons_of_neg (by simp [hdir'])]
      exact ih

/-- Without a vendored directory the search is left with the source trees. -/
theorem find?_candidates_of_no_vendored
    (h : ∀ l ∈ ctx.vendorCandidates path d, files.isDir l.dir = false) :
    (ctx.candidates path d).find? (fun l => files.isDir l.dir) =
      (ctx.treeCandidates path).find? (fun l => files.isDir l.dir) := by
  have hnone : (ctx.vendorCandidates path d).find? (fun l => files.isDir l.dir) = none :=
    List.find?_eq_none.mpr fun l hl => by simp [h l hl]
  rw [candidates, List.find?_append, hnone, Option.none_or]

/-- What is found depends on the first candidate that is a directory. -/
theorem found_locate_eq_of_find? (hlocal : ImportPath.isLocal path = false)
    (h : ImportPath.validate path = .ok () →
      ((ctx.candidates path d).find? (fun l => files.isDir l.dir) = none ∧
        (ctx.candidates path d').find? (fun l => files.isDir l.dir) = none) ∨
      ∃ l l', (ctx.candidates path d).find? (fun l => files.isDir l.dir) = some l ∧
        (ctx.candidates path d').find? (fun l => files.isDir l.dir) = some l' ∧
        (ctx.accept files path l).found = (ctx.accept files path l').found) :
    (ctx.locate files path d).found = (ctx.locate files path d').found := by
  rw [locate, locate]
  cases hvalid : ImportPath.validate path with
  | error e => rfl
  | ok u =>
    dsimp only
    rcases h hvalid with ⟨hnone, hnone'⟩ | ⟨l, l', hsome, hsome', hfound⟩
    · rw [target_of_find?_eq_none hlocal hnone, target_of_find?_eq_none hlocal hnone']
      rfl
    · rw [target_of_find?_eq_some hlocal hsome, target_of_find?_eq_some hlocal hsome']
      exact hfound

/-- Both spellings of a directory have candidates that are alike, one for one. -/
theorem forall₂_alike_candidates (hvalid : ImportPath.validate path = .ok ())
    (hlocal : ImportPath.isLocal path = false) (h : d.Same d')
    (hfits : ∀ l ∈ ctx.vendorCandidates path d ++ ctx.vendorCandidates path d', l.Fits files) :
    List.Forall₂ (Alike ctx files path) (ctx.candidates path d) (ctx.candidates path d') := by
  have htrees : List.Forall₂ (Alike ctx files path) (ctx.treeCandidates path)
      (ctx.treeCandidates path) := List.forall₂_same.mpr fun l _ => .refl ctx files path l
  have hvendored : List.Forall₂ (fun l l' => l.place = l'.place) (ctx.vendorCandidates path d)
      (ctx.vendorCandidates path d') := forall₂_place_vendorCandidates hvalid hlocal h
  obtain ⟨hlength, hplace⟩ := List.forall₂_iff_zip.mp hvendored
  rw [candidates, candidates]
  refine List.rel_append (List.forall₂_iff_zip.mpr ⟨hlength, fun hmem => ?_⟩) htrees
  obtain ⟨hl, hl'⟩ := List.of_mem_zip hmem
  exact .of_place_eq (hplace hmem) (hfits _ (List.mem_append_left _ hl))
    (hfits _ (List.mem_append_right _ hl'))

/-! ## 5. Directories that a text passes through -/

/-- **A vendored candidate is below a directory that the text of the importing directory passes
through.**  Without `..` that is a directory above the importing one. -/
theorem exists_passed_of_mem_vendorCandidates (hvalid : ImportPath.validate path = .ok ())
    (hlocal : ImportPath.isLocal path = false) {l : Location}
    (h : l ∈ ctx.vendorCandidates path d) :
    ∃ passed, passed <+: d.components ∧
      (∀ cwd, l.dir.resolved cwd =
        passed.foldl Path.enter cwd ++ "vendor" :: ImportPath.elements path) ∧
      (.up ∉ d.components → ∀ cwd, passed.foldl Path.enter cwd <+: d.resolved cwd) := by
  rw [vendorCandidates] at h
  split at h
  · cases h
  · next tree rest henclosing =>
    obtain ⟨sub, hsub, rfl⟩ := List.mem_map.mp h
    obtain ⟨-, hlead, hcomponents, -⟩ := enclosing?_eq_some henclosing
    obtain ⟨behind, hbehind⟩ := Path.components_prefix_of_mem_ancestors hlead hsub
    refine ⟨tree.dir.components ++ sub.components, ?_, fun cwd => ?_, fun hup cwd => ?_⟩
    · exact ⟨behind, by rw [hcomponents, ← hbehind, List.append_assoc]⟩
    · rw [resolved_vendored hvalid hlocal tree (Path.lead_of_mem_ancestors hlead hsub),
        List.foldl_append]
      rfl
    · -- what is left behind the subdirectory are names, and they lead further down
      have huprest : .up ∉ rest.steps := by
        rw [← Path.components_eq_steps hlead]
        intro hmem
        exact hup (by rw [hcomponents]; exact List.mem_append_right _ hmem)
      obtain ⟨names, hnames⟩ := Path.exists_steps_eq_names huprest
      rw [← Path.components_eq_steps hlead, ← hbehind] at hnames
      obtain ⟨-, below, -, -, rfl⟩ := List.map_eq_append_iff.mp hnames.symm
      have hresolved : d.resolved cwd =
          (tree.dir.components ++ sub.components).foldl Path.enter cwd ++ below := by
        rw [Path.resolved, hcomponents, ← hbehind, ← List.append_assoc]
        exact List.foldl_append.trans (Path.foldl_enter_names _ below)
      rw [hresolved]
      exact List.prefix_append _ below

/-- **The search depends on the importing directory and not on its spelling**, as far as no detour
matters.  Let two absolute texts lead to the same directory.  Let them be free of `..`, or have the
same components, with paths that fit; or let none of the `vendor` directories on their way have the
package.  Then an import path that is not local is found at the same place from both, or fails with
the same kind of error.

Of a package that is found, whatever the spelling: a source tree has it under its own name, or it is
in a `vendor` directory of a directory that the text passes through.  Without `..` that directory is
above the importing one. -/
theorem locate_agrees_of_spelling (ctx : GoContext) (files : FileTree) {path : String}
    (hlocal : ImportPath.isLocal path = false) {d d' : Path} (habs : d.isAbsolute = true)
    (habs' : d'.isAbsolute = true) (hresolved : ∀ cwd, d.resolved cwd = d'.resolved cwd)
    (hdetours :
      (((.up ∉ d.components ∧ .up ∉ d'.components) ∨ d.Same d') ∧
        ∀ l ∈ ctx.vendorCandidates path d ++ ctx.vendorCandidates path d', l.Fits files) ∨
      ∀ l ∈ ctx.vendorCandidates path d ++ ctx.vendorCandidates path d',
        files.isDir l.dir = false) :
    (ctx.locate files path d).found = (ctx.locate files path d').found ∧
    ∀ l, (ctx.locate files path d).result = .ok l →
      l ∈ ctx.treeCandidates path ∨
      ∃ passed, passed <+: d.components ∧
        (∀ cwd, l.dir.resolved cwd =
          passed.foldl Path.enter cwd ++ "vendor" :: ImportPath.elements path) ∧
        (.up ∉ d.components → ∀ cwd, passed.foldl Path.enter cwd <+: d.resolved cwd) := by
  constructor
  · refine found_locate_eq_of_find? hlocal fun hvalid => ?_
    rcases hdetours with ⟨hspelling, hfits⟩ | hnone
    · have hsame : d.Same d' := by
        rcases hspelling with ⟨hup, hup'⟩ | hsame
        · exact Path.same_of_resolved_eq habs habs' hup hup' hresolved
        · exact hsame
      exact find?_of_alike (forall₂_alike_candidates hvalid hlocal hsame hfits)
    · rw [find?_candidates_of_no_vendored fun l hl => hnone l (List.mem_append_left _ hl),
        find?_candidates_of_no_vendored fun l hl => hnone l (List.mem_append_right _ hl)]
      cases htree : (ctx.treeCandidates path).find? fun l => files.isDir l.dir with
      | none => exact .inl ⟨rfl, rfl⟩
      | some l => exact .inr ⟨l, l, rfl, rfl, rfl⟩
  · intro l hl
    obtain ⟨hvalid, htarget⟩ := target_of_locate hl
    rcases List.mem_append.mp (mem_candidates_of_target hlocal htarget) with hmem | hmem
    · exact .inr (exists_passed_of_mem_vendorCandidates hvalid hlocal hmem)
    · exact .inl hmem

/-- A workspace in which a program vendors a package and a library beside it does not. -/
def vendoredBesideLibrary : GoContext × FileTree :=
  ({ gopath := [⟨"/ws"⟩] },
    { cwd := []
      root := .dir [("ws", .dir [("src", .dir
        [("app", .dir
          [("vendor", .dir [("dep", .dir [("dep.go", .file (.text "package dep\n"))])]),
            ("cmd", .dir [])]),
          ("lib", .dir [])])])] })

/-- From a subdirectory of the program the vendored package is found, however slashes are put. -/
theorem locate_agrees_of_slashes :
    let d : Path := ⟨"/ws/src/app/cmd"⟩
    let d' : Path := ⟨"//ws/src/./app//cmd/"⟩
    let ctx := vendoredBesideLibrary.1
    let files := vendoredBesideLibrary.2
    ImportPath.isLocal "dep" = false ∧ d.isAbsolute = true ∧ d'.isAbsolute = true ∧
      (∀ cwd, d.resolved cwd = d'.resolved cwd) ∧
      (.up ∉ d.components ∧ .up ∉ d'.components) ∧
      (∀ l ∈ ctx.vendorCandidates "dep" d ++ ctx.vendorCandidates "dep" d', l.Fits files) ∧
      (ctx.locate files "dep" d).result =
        .ok ⟨"app/vendor/dep", ⟨"/ws/src/app/vendor/dep"⟩, false⟩ ∧
      (ctx.locate files "dep" d').found = (ctx.locate files "dep" d).found := by
  intro d d' ctx files
  have hlocal : ImportPath.isLocal "dep" = false := by decide +kernel
  have habs : d.isAbsolute = true := by decide +kernel
  have habs' : d'.isAbsolute = true := by decide +kernel
  have hcomponents : d.components = d'.components := by decide +kernel
  have hresolved : ∀ cwd, d.resolved cwd = d'.resolved cwd := by
    intro cwd
    rw [Path.resolved, hcomponents]
    rfl
  have hup : .up ∉ d.components ∧ .up ∉ d'.components := by decide +kernel
  have hfits : ∀ l ∈ ctx.vendorCandidates "dep" d ++ ctx.vendorCandidates "dep" d',
      l.Fits files := by decide +kernel
  have hagrees := locate_agrees_of_spelling ctx files hlocal habs habs' hresolved
    (.inl ⟨.inl hup, hfits⟩)
  exact ⟨hlocal, habs, habs', hresolved, hup, hfits, by decide +kernel, hagrees.1.symm⟩

/-- **A detour can be told apart.**  Two absolute texts lead to the library, but one of them passes
through the program: from there the vendored package is found, and from the other nothing is.  The
`vendor` directory that is used is none above the library. -/
theorem not_found_alike_of_detour :
    let d : Path := ⟨"/ws/src/app/../lib"⟩
    let d' : Path := ⟨"/ws/src/lib"⟩
    let ctx := vendoredBesideLibrary.1
    let files := vendoredBesideLibrary.2
    ImportPath.isLocal "dep" = false ∧ d.isAbsolute = true ∧ d'.isAbsolute = true ∧
      (∀ cwd, d.resolved cwd = d'.resolved cwd) ∧
      (ctx.locate files "dep" d).result =
        .ok ⟨"app/vendor/dep", ⟨"/ws/src/app/vendor/dep"⟩, false⟩ ∧
      (ctx.locate files "dep" d').result = .error (.notFound "dep" d' [⟨"/ws/src/dep"⟩]) ∧
      (ctx.locate files "dep" d).found ≠ (ctx.locate files "dep" d').found ∧
      ¬ ["ws", "src", "app"] <+: d.resolved [] := by
  intro d d' ctx files
  have hresolved : ∀ cwd, d.resolved cwd = d'.resolved cwd := by
    intro cwd
    have hd : d.components =
        [.root, .name "ws", .name "src", .name "app", .up, .name "lib"] := by decide +kernel
    have hd' : d'.components = [.root, .name "ws", .name "src", .name "lib"] := by decide +kernel
    rw [Path.resolved, Path.resolved, hd, hd']
    rfl
  have hvendored : (ctx.locate files "dep" d).result =
      .ok ⟨"app/vendor/dep", ⟨"/ws/src/app/vendor/dep"⟩, false⟩ := by decide +kernel
  have hnothing : (ctx.locate files "dep" d').result =
      .error (.notFound "dep" d' [⟨"/ws/src/dep"⟩]) := by decide +kernel
  refine ⟨by decide +kernel, by decide +kernel, by decide +kernel, hresolved, hvendored, hnothing,
    ?_, by decide +kernel⟩
  rw [Lookup.found, Lookup.found, hvendored, hnothing]
  intro hfound
  cases hfound

end GoContext

end GoResolver
