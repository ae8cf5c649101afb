import GoResolver.Proofs.FileTree.Listing
import GoResolver.Proofs.GoContext.Search
import GoResolver.Proofs.GoContext.Spelling

/-!
# The order of a directory's entries and the search

A system lists the files of a directory in an order that nobody fixes, and the look through them
stops early: at the first file that builds, and at the first that cannot be read.  Which of the two
is met first is up to the order.

1. A directory that holds files of one of these kinds only, or of neither, is judged alike in every
   order (`kind_examine_eq_of_perm`).
2. A directory that holds both is *mixed*.  One order has the file that builds first and another the
   file that cannot be read, and the two are judged differently (`exists_perm_of_builds`,
   `exists_perm_of_unreadable`).

Nothing else in the search sees the order: candidates are asked for by path.  So an answer is the
same in every order exactly when the directory that is looked at is not mixed
(`locate_order_immaterial_iff`).

The second half needs orders of a whole tree and not of one list, so a directory of a tree is given
another order by putting it back with its entries rearranged (`FileTree.exists_relisted`).
-/

namespace GoResolver

/-! ## 1. A directory put back in another order -/

namespace Node

/-- Putting back a node that differs in the order of listings only makes no other difference. -/
theorem Relisted.put {root node node' : Node} {place : List String}
    (hplace : root.get? place = some node) (h : Relisted node node') :
    Relisted root (root.put place node') := by
  induction place generalizing root with
  | nil =>
    rw [get?, Option.some_inj] at hplace
    rw [hplace]
    exact h
  | cons name place ih =>
    rw [get?] at hplace
    cases root with
    | file content => cases hplace
    | dir entries =>
      rw [Node.entries] at hplace
      cases hchild : entries.lookup name with
      | none =>
        rw [hchild] at hplace
        cases hplace
      | some child =>
        rw [hchild] at hplace
        have hmem : name ∈ entries.map Prod.fst := by
          rw [← isSome_lookup_iff, hchild]
          rfl
        rw [Node.put]
        refine .dir ?_ fun other node₁ node₂ h₁ h₂ => ?_
        · rw [Node.entries, map_fst_setEntry hmem]
        · rw [Node.entries, hchild, Option.getD_some] at h₂
          by_cases hother : other = name
          · subst hother
            rw [hchild, Option.some_inj] at h₁
            rw [lookup_setEntry_self, Option.some_inj] at h₂
            rw [← h₁, ← h₂]
            exact ih hplace
          · rw [lookup_setEntry_of_ne hother, h₁, Option.some_inj] at h₂
            rw [h₂]
            exact .refl node₂

end Node

/-- **A directory without repeated names can be listed in any order.** -/
theorem FileTree.exists_relisted {t : FileTree} {p : Path} {entries entries' : List (String × Node)}
    (hlist : t.list p = .ok entries) (hnodup : (entries.map Prod.fst).Nodup)
    (h : entries.Perm entries') : ∃ t', t.Relisted t' ∧ t'.list p = .ok entries' := by
  obtain ⟨q, hplace, hq⟩ : ∃ q, t.place p = .ok q ∧ t.root.get? q = some (.dir entries) := by
    rw [list] at hlist
    split at hlist
    · cases hlist
    · cases hlist
    · next es hfind =>
      rw [Except.ok.inj hlist] at hfind
      exact find_eq_dir_iff.mp hfind
  have hrelisted : t.Relisted { t with root := t.root.put q (.dir entries') } :=
    ⟨rfl, Node.Relisted.put hq (.of_perm hnodup h)⟩
  refine ⟨_, hrelisted, ?_⟩
  have hfind : FileTree.find { t with root := t.root.put q (.dir entries') } p =
      .ok (.dir entries') :=
    find_eq_dir_iff.mpr ⟨q, (hrelisted.place_eq p).symm.trans hplace, Node.get?_put_self _ _ _⟩
  rw [list, hfind]

/-- What a lookup answers, but for the texts of errors: the location, or the kind of an error. -/
def Lookup.answer (r : Lookup) : Except String Location :=
  match r.result with
  | .error e => .error e.code
  | .ok l => .ok l

namespace GoContext

variable {ctx : GoContext} {files files' : FileTree} {path : String} {sourceDir dir : Path}

/-! ## 2. The names in a directory -/

/-- What is found in a directory, but for the texts of errors. -/
theorem kind_examine_cases (ctx : GoContext) (files : FileTree) (dir : Path)
    (names : List String) :
    ((ctx.examine files dir names).kind = .ok true ∧
      ∃ name ∈ names, ctx.BuildsAt files dir name) ∨
    ((ctx.examine files dir names).kind = .error "RESOLUTION_IO" ∧
      ∃ name ∈ names, ctx.UnreadableAt files dir name) ∨
    ((ctx.examine files dir names).kind = .ok false ∧
      ∀ name ∈ names, ¬ ctx.BuildsAt files dir name ∧ ¬ ctx.UnreadableAt files dir name) := by
  rcases verdict_examine_cases ctx files dir names with
    ⟨hverdict, hbuilds⟩ | ⟨name, e, hname, hunreadable, -, hverdict⟩ | ⟨hverdict, hnone⟩
  · exact .inl ⟨by rw [Findings.kind, hverdict], hbuilds⟩
  · refine .inr (.inl ⟨?_, name, hname, hunreadable⟩)
    rw [Findings.kind, hverdict]
    rfl
  · exact .inr (.inr ⟨by rw [Findings.kind, hverdict], hnone⟩)

/-- Whether some of the names are files that build and some are files that cannot be read. -/
def Mixed (ctx : GoContext) (files : FileTree) (dir : Path) (names : List String) : Prop :=
  (∃ name ∈ names, ctx.BuildsAt files dir name) ∧
    ∃ name ∈ names, ctx.UnreadableAt files dir name

/-- **Names that are not mixed are judged alike in every order.** -/
theorem kind_examine_eq_of_perm {names names' : List String} (h : names.Perm names')
    (hmixed : ¬ ctx.Mixed files dir names) :
    (ctx.examine files dir names').kind = (ctx.examine files dir names).kind := by
  have hmem : ∀ {P : String → Prop}, (∃ name ∈ names', P name) → ∃ name ∈ names, P name := by
    rintro P ⟨name, hname, hP⟩
    exact ⟨name, h.mem_iff.mpr hname, hP⟩
  rcases kind_examine_cases ctx files dir names with
      ⟨hkind, hhas⟩ | ⟨hkind, hhas⟩ | ⟨hkind, hnot⟩ <;>
    rcases kind_examine_cases ctx files dir names' with
      ⟨hkind', hhas'⟩ | ⟨hkind', hhas'⟩ | ⟨hkind', hnot'⟩
  · rw [hkind, hkind']
  · exact absurd ⟨hhas, hmem hhas'⟩ hmixed
  · obtain ⟨name, hname, hbuilds⟩ := hhas
    exact absurd hbuilds (hnot' name (h.mem_iff.mp hname)).1
  · exact absurd ⟨hmem hhas', hhas⟩ hmixed
  · rw [hkind, hkind']
  · obtain ⟨name, hname, hunreadable⟩ := hhas
    exact absurd hunreadable (hnot' name (h.mem_iff.mp hname)).2
  · obtain ⟨name, hname, hbuilds⟩ := hmem hhas'
    exact absurd hbuilds (hnot name hname).1
  · obtain ⟨name, hname, hunreadable⟩ := hmem hhas'
    exact absurd hunreadable (hnot name hname).2
  · rw [hkind, hkind']

/-- A file that builds can come first. -/
theorem exists_perm_of_builds {entries : List (String × Node)}
    (h : ∃ name ∈ entries.map Prod.fst, ctx.BuildsAt files dir name) :
    ∃ entries', entries.Perm entries' ∧
      (ctx.examine files dir (entries'.map Prod.fst)).kind = .ok true := by
  obtain ⟨name, hname, hbuilds⟩ := h
  obtain ⟨e, he, rfl⟩ := List.mem_map.mp hname
  obtain ⟨front, back, rfl⟩ := List.append_of_mem he
  refine ⟨e :: (front ++ back), List.perm_middle, ?_⟩
  rw [List.map_cons, Findings.kind, verdict_examine_of_buildsAt hbuilds]

/-- A file that cannot be read can come first. -/
theorem exists_perm_of_unreadable {entries : List (String × Node)}
    (h : ∃ name ∈ entries.map Prod.fst, ctx.UnreadableAt files dir name) :
    ∃ entries', entries.Perm entries' ∧
      (ctx.examine files dir (entries'.map Prod.fst)).kind = .error "RESOLUTION_IO" := by
  obtain ⟨name, hname, hunreadable⟩ := h
  obtain ⟨e, he, rfl⟩ := List.mem_map.mp hname
  obtain ⟨front, back, rfl⟩ := List.append_of_mem he
  refine ⟨e :: (front ++ back), List.perm_middle, ?_⟩
  obtain ⟨error, -, hverdict⟩ :=
    verdict_examine_of_unreadableAt hunreadable ((front ++ back).map Prod.fst)
  rw [List.map_cons, Findings.kind, hverdict]
  rfl

/-- **Names are judged alike in every order exactly when they are not mixed.** -/
theorem kind_examine_alike_iff (ctx : GoContext) (files : FileTree) (dir : Path)
    (entries : List (String × Node)) :
    (∀ entries', entries.Perm entries' →
      (ctx.examine files dir (entries'.map Prod.fst)).kind =
        (ctx.examine files dir (entries.map Prod.fst)).kind) ↔
    ¬ ctx.Mixed files dir (entries.map Prod.fst) := by
  constructor
  · rintro hsame ⟨hbuilds, hunreadable⟩
    obtain ⟨entries₁, hperm₁, hkind₁⟩ := exists_perm_of_builds hbuilds
    obtain ⟨entries₂, hperm₂, hkind₂⟩ := exists_perm_of_unreadable hunreadable
    have hkinds := (hsame entries₁ hperm₁).trans (hsame entries₂ hperm₂).symm
    rw [hkind₁, hkind₂] at hkinds
    cases hkinds
  · intro hmixed entries' hperm
    exact kind_examine_eq_of_perm (hperm.map Prod.fst) hmixed

/-! ## 3. The search -/

/-- Looking through names sees the files that they lead to, and no order but that of the names. -/
theorem examine_eq_of_relisted (h : files.Relisted files') (dir : Path) (names : List String) :
    ctx.examine files' dir names = ctx.examine files dir names := by
  induction names with
  | nil => rfl
  | cons name names ih => rw [examine, examine, h.isFile_eq, h.readText_eq, ih]

theorem target_eq_of_relisted (h : files.Relisted files') :
    ctx.target files' path sourceDir = ctx.target files path sourceDir := by
  have hisDir : files'.isDir = files.isDir := funext fun p => (h.isDir_eq p).symm
  rw [target, target, hisDir]

/-- What is answered for a location depends on what looking through the names found. -/
theorem answer_accept_of_list {l : Location} {entries : List (String × Node)}
    (h : files.list l.dir = .ok entries) :
    (ctx.accept files path l).answer =
      (ctx.examine files l.dir (entries.map Prod.fst)).kind.bind fun buildable =>
        if buildable then .ok l
        else .error (ResolutionError.noBuildableFiles path l.dir).code := by
  rw [accept, h, Lookup.answer, Findings.kind]
  dsimp only
  cases (ctx.examine files l.dir (entries.map Prod.fst)).verdict with
  | error e => rfl
  | ok buildable =>
    cases buildable with
    | true => rfl
    | false => rfl

/-- What an import path leads to is a directory. -/
theorem isDir_of_target {l : Location} (h : ctx.target files path sourceDir = .ok l) :
    files.isDir l.dir = true := by
  rw [target] at h
  split at h
  · dsimp only at h
    split at h
    · next hdir =>
      have hl : l.dir = (sourceDir.child path).normalize := by
        rw [← Except.ok.inj h, localLocation]
        split <;> rfl
      rw [hl, hdir]
    · cases h
  · split at h
    · next location hfind =>
      have hdir := List.find?_some hfind
      rw [← Except.ok.inj h]
      exact hdir
    · cases h

/-- **A directory that is not mixed is accepted or refused alike in every order.** -/
theorem answer_accept_eq_of_relisted (h : files.Relisted files') {l : Location}
    (hdir : files.isDir l.dir = true)
    (hmixed : ∀ entries, files.list l.dir = .ok entries →
      ¬ ctx.Mixed files l.dir (entries.map Prod.fst)) :
    (ctx.accept files' path l).answer = (ctx.accept files path l).answer := by
  obtain ⟨entries, entries', hlist, hlist', hnames⟩ := h.exists_list_perm hdir
  rw [answer_accept_of_list hlist, answer_accept_of_list hlist', examine_eq_of_relisted h,
    kind_examine_eq_of_perm hnames (hmixed entries hlist)]

theorem answer_locate_of_target {l : Location} (hvalid : ImportPath.validate path = .ok ())
    (h : ctx.target files path sourceDir = .ok l) :
    (ctx.locate files path sourceDir).answer = (ctx.accept files path l).answer := by
  rw [locate, hvalid]
  dsimp only
  rw [h]

/-- A look that is over before a directory is read is over in every order. -/
theorem locate_eq_of_relisted (h : files.Relisted files')
    (hnone : ImportPath.validate path = .ok () → ∀ l, ctx.target files path sourceDir ≠ .ok l) :
    ctx.locate files' path sourceDir = ctx.locate files path sourceDir := by
  rw [locate, locate, target_eq_of_relisted h]
  cases hvalid : ImportPath.validate path with
  | error e => rfl
  | ok u =>
    dsimp only
    cases htarget : ctx.target files path sourceDir with
    | error e => rfl
    | ok l => exact absurd htarget (hnone hvalid l)

/-- **A search that answers alike in every order looks at no mixed directory.**  The directory is
put into another order, and the answer is what looking through that order finds. -/
theorem not_mixed_of_answer_eq {l : Location} {entries : List (String × Node)}
    (hsame : ∀ files', files.Relisted files' →
      (ctx.locate files' path sourceDir).answer = (ctx.locate files path sourceDir).answer)
    (hvalid : ImportPath.validate path = .ok ())
    (htarget : ctx.target files path sourceDir = .ok l)
    (hlist : files.list l.dir = .ok entries) (hnodup : (entries.map Prod.fst).Nodup) :
    ¬ ctx.Mixed files l.dir (entries.map Prod.fst) := by
  rintro ⟨hbuilds, hunreadable⟩
  have hanswer : ∀ entries', entries.Perm entries' →
      ((ctx.examine files l.dir (entries'.map Prod.fst)).kind.bind fun buildable =>
        if buildable then .ok l
        else .error (ResolutionError.noBuildableFiles path l.dir).code) =
      (ctx.locate files path sourceDir).answer := by
    intro entries' hperm
    obtain ⟨files', hrelisted, hlist'⟩ := FileTree.exists_relisted hlist hnodup hperm
    have htarget' := (target_eq_of_relisted hrelisted).trans htarget
    rw [← hsame files' hrelisted, answer_locate_of_target hvalid htarget',
      answer_accept_of_list hlist', examine_eq_of_relisted hrelisted]
  obtain ⟨entries₁, hperm₁, hkind₁⟩ := exists_perm_of_builds hbuilds
  obtain ⟨entries₂, hperm₂, hkind₂⟩ := exists_perm_of_unreadable hunreadable
  have hanswers := (hanswer entries₁ hperm₁).trans (hanswer entries₂ hperm₂).symm
  rw [hkind₁, hkind₂] at hanswers
  cases hanswers

theorem answer_locate_eq_of_relisted (hrelisted : files.Relisted files')
    (hmixed : ImportPath.validate path = .ok () →
      ∀ l, ctx.target files path sourceDir = .ok l →
        ∀ entries, files.list l.dir = .ok entries →
          ¬ ctx.Mixed files l.dir (entries.map Prod.fst)) :
    (ctx.locate files' path sourceDir).answer = (ctx.locate files path sourceDir).answer := by
  by_cases hnone : ImportPath.validate path = .ok () →
      ∀ l, ctx.target files path sourceDir ≠ .ok l
  · rw [locate_eq_of_relisted hrelisted hnone]
  · push Not at hnone
    obtain ⟨hvalid, l, htarget⟩ := hnone
    have htarget' := (target_eq_of_relisted hrelisted).trans htarget
    rw [answer_locate_of_target hvalid htarget, answer_locate_of_target hvalid htarget',
      answer_accept_eq_of_relisted hrelisted (isDir_of_target htarget) (hmixed hvalid l htarget)]

/-- **The order of listings is immaterial exactly where no mixed directory is looked at.**

1. The names in a directory are judged alike in every order, unless they are mixed, and then they
   are not.
2. The search answers alike for a tree in every order, with the same location or the same kind of
   error, unless the directory that decides is mixed, and then it does not.  The directory is taken
   to have no name twice. -/
theorem locate_order_immaterial_iff (ctx : GoContext) (files : FileTree) :
    (∀ (dir : Path) (entries : List (String × Node)),
      (∀ entries', entries.Perm entries' →
        (ctx.examine files dir (entries'.map Prod.fst)).kind =
          (ctx.examine files dir (entries.map Prod.fst)).kind) ↔
      ¬ ctx.Mixed files dir (entries.map Prod.fst)) ∧
    ∀ (path : String) (sourceDir : Path),
      (∀ l entries, ctx.target files path sourceDir = .ok l → files.list l.dir = .ok entries →
        (entries.map Prod.fst).Nodup) →
      ((∀ files', files.Relisted files' →
        (ctx.locate files' path sourceDir).answer = (ctx.locate files path sourceDir).answer) ↔
      (ImportPath.validate path = .ok () → ∀ l, ctx.target files path sourceDir = .ok l →
        ∀ entries, files.list l.dir = .ok entries →
          ¬ ctx.Mixed files l.dir (entries.map Prod.fst))) := by
  refine ⟨kind_examine_alike_iff ctx files, fun path sourceDir hnodup => ⟨?_, ?_⟩⟩
  · intro hsame hvalid l htarget entries hlist
    exact not_mixed_of_answer_eq hsame hvalid htarget hlist (hnodup l entries htarget hlist)
  · intro hmixed files' hrelisted
    exact answer_locate_eq_of_relisted hrelisted hmixed

/-- Two packages of a workspace.  One holds a file that builds and one that cannot be read; in the
other the file that cannot be read is for another system. -/
def withUnreadable : GoContext × FileTree :=
  ({ gopath := [⟨"/ws"⟩] },
    { cwd := []
      root := .dir [("ws", .dir [("src", .dir
        [("mixed", .dir [("a.go", .file (.text "package mixed\n")), ("b.go", .file .bytes)]),
          ("plain", .dir
            [("a.go", .file (.text "//go:build !\n")), ("b_windows.go", .file .bytes),
              ("c.go", .dir []), ("d.go", .file (.text "package plain\n"))])])])] })

/-- The package without a file that cannot be read is found in every order of its entries. -/
theorem locate_order_immaterial_of_plain :
    (∀ l entries, withUnreadable.1.target withUnreadable.2 "plain" ⟨"/"⟩ = .ok l →
      withUnreadable.2.list l.dir = .ok entries → (entries.map Prod.fst).Nodup) ∧
    (withUnreadable.1.locate withUnreadable.2 "plain" ⟨"/"⟩).result =
      .ok ⟨"plain", ⟨"/ws/src/plain"⟩, false⟩ ∧
    ∀ files', withUnreadable.2.Relisted files' →
      (withUnreadable.1.locate files' "plain" ⟨"/"⟩).answer =
        .ok ⟨"plain", ⟨"/ws/src/plain"⟩, false⟩ := by
  have htarget : ∀ l, withUnreadable.1.target withUnreadable.2 "plain" ⟨"/"⟩ = .ok l →
      l.dir = ⟨"/ws/src/plain"⟩ := by
    intro l hl
    have hplain : withUnreadable.1.target withUnreadable.2 "plain" ⟨"/"⟩ =
        .ok ⟨"plain", ⟨"/ws/src/plain"⟩, false⟩ := by decide +kernel
    rw [hplain] at hl
    rw [← Except.ok.inj hl]
  have hnames : ∀ entries, withUnreadable.2.list ⟨"/ws/src/plain"⟩ = .ok entries →
      entries.map Prod.fst = ["a.go", "b_windows.go", "c.go", "d.go"] := by
    intro entries hlist
    rw [← Except.ok.inj hlist]
    rfl
  have hnodup : ∀ l entries, withUnreadable.1.target withUnreadable.2 "plain" ⟨"/"⟩ = .ok l →
      withUnreadable.2.list l.dir = .ok entries → (entries.map Prod.fst).Nodup := by
    intro l entries hl hlist
    rw [htarget l hl] at hlist
    rw [hnames entries hlist]
    decide
  have hmixed : ∀ l, withUnreadable.1.target withUnreadable.2 "plain" ⟨"/"⟩ = .ok l →
      ∀ entries, withUnreadable.2.list l.dir = .ok entries →
        ¬ withUnreadable.1.Mixed withUnreadable.2 l.dir (entries.map Prod.fst) := by
    rintro l hl entries hlist ⟨-, name, hname, hfile, hbuildable, e, hread⟩
    rw [htarget l hl] at hlist hfile hread
    rw [hnames entries hlist] at hname
    -- what cannot be read is the one file whose name does not build
    have hreadable : ∀ name ∈ ["a.go", "b_windows.go", "c.go", "d.go"],
        withUnreadable.2.isFile (Path.child ⟨"/ws/src/plain"⟩ name) = true →
        withUnreadable.1.isBuildableName name = true →
        (withUnreadable.2.readText (Path.child ⟨"/ws/src/plain"⟩ name)).isOk = true := by
      decide +kernel
    have hok := hreadable name hname hfile hbuildable
    rw [hread] at hok
    cases hok
  have hresult : (withUnreadable.1.locate withUnreadable.2 "plain" ⟨"/"⟩).result =
      .ok ⟨"plain", ⟨"/ws/src/plain"⟩, false⟩ := by decide +kernel
  refine ⟨hnodup, hresult, fun files' hrelisted => ?_⟩
  have hsame := ((locate_order_immaterial_iff withUnreadable.1 withUnreadable.2).2 "plain" ⟨"/"⟩
    hnodup).mpr (fun _ => hmixed) files' hrelisted
  rw [hsame, Lookup.answer, hresult]

/-- **The order can matter.**  The two trees differ in nothing but the order of one directory, and
an import of it is answered in one of them and fails in the other. -/
theorem not_answered_alike_in_every_order :
    let ctx := withUnreadable.1
    let files := withUnreadable.2
    let other : Node := .dir [("b.go", .file .bytes), ("a.go", .file (.text "package mixed\n"))]
    let files' : FileTree := { files with root := files.root.put ["ws", "src", "mixed"] other }
    files.Relisted files' ∧
      (ctx.locate files "mixed" ⟨"/"⟩).result = .ok ⟨"mixed", ⟨"/ws/src/mixed"⟩, false⟩ ∧
      (ctx.locate files' "mixed" ⟨"/"⟩).result =
        .error (.io ⟨"/ws/src/mixed/b.go"⟩ "stream did not contain valid UTF-8") ∧
      (ctx.locate files "mixed" ⟨"/"⟩).answer ≠ (ctx.locate files' "mixed" ⟨"/"⟩).answer := by
  intro ctx files other files'
  have hrelisted : files.Relisted files' :=
    ⟨rfl, .put rfl (.of_perm (by decide) (List.Perm.swap _ _ _))⟩
  have hfound : (ctx.locate files "mixed" ⟨"/"⟩).result =
      .ok ⟨"mixed", ⟨"/ws/src/mixed"⟩, false⟩ := by decide +kernel
  have hfailed : (ctx.locate files' "mixed" ⟨"/"⟩).result =
      .error (.io ⟨"/ws/src/mixed/b.go"⟩ "stream did not contain valid UTF-8") := by
    decide +kernel
  refine ⟨hrelisted, hfound, hfailed, ?_⟩
  rw [Lookup.answer, Lookup.answer, hfound, hfailed]
  intro hanswer
  cases hanswer

end GoContext

end GoResolver
