import GoResolver.Proofs.FileTree.Lexical
import GoResolver.Proofs.GoContext.Search

/-!
# Local imports

A local import path is written behind the importing directory, and the two together say which
directory is meant: the one that the path resolves to, each `..` taking back a name and, where there
is none, leading above the current directory.  The search asks for another path, the normalized one.
`locate_of_local` says when this is the same.

1. Whatever is found, it is found where the *normalized* path resolves to: nothing is found exactly
   when there is no directory, or when the normalized path is empty or too long.
2. When normalizing keeps the place (`Path.PlaceIsKept`), this is the directory that is meant, and
   the files in it decide: one that builds, one that cannot be read, or neither.
3. When it does not, the search goes wrong.  A path that cancels to nothing leads to a directory
   that is there, the current one or one above it, and it is not found.  A path that rises by two or
   more is looked up somewhere else.

The files of the directory are named by its entries, and the search asks for them by path; a file
whose path is too long is passed over (`IsFileAt`).
-/

namespace GoResolver

/-- Whether the normalized form of a path can be looked up and leads where the path leads. -/
structure Path.PlaceIsKept (p : Path) (cwd : List String) : Prop where
  /-- The path does not cancel to nothing. -/
  text_ne_empty : p.normalize.text ≠ ""
  fits : p.normalize.Fits
  /-- The path starts at the root, or it rises above the current directory by one name at most, or
  the root is so near that it makes no difference. -/
  rise : p.isAbsolute = true ∨ p.height ≤ 1 ∨ cwd.length ≤ p.height % 2

namespace GoContext

variable {ctx : GoContext} {files : FileTree} {path : String} {dir sourceDir : Path}
  {entries : List (String × Node)}

/-! ## 1. The files in a directory -/

/-- Whether a name stands for a file among the entries of a directory, and its path is not too long.
-/
def IsFileAt (entries : List (String × Node)) (dir : Path) (name : String) (content : Content) :
    Prop :=
  entries.lookup name = some (.file content) ∧ (dir.child name).Fits

theorem buildsAt_iff (hdir : files.find dir = .ok (.dir entries)) {name : String}
    (hname : IsEntryName name) :
    ctx.BuildsAt files dir name ↔
      ∃ source, IsFileAt entries dir name (.text source) ∧ ctx.Builds name source := by
  have hread : ∀ source, files.readText (dir.child name) = .ok source ↔
      IsFileAt entries dir name (.text source) := by
    intro source
    rw [IsFileAt, ← FileTree.find_child_eq_ok_iff hdir hname, FileTree.readText]
    split
    · next e hfind => simp [hfind]
    · next es hfind => simp [hfind]
    · next hfind => simp [hfind]
    · next s hfind => simp [hfind]
  exact exists_congr fun source => and_congr_left fun _ => hread source

/-- What cannot be read is a file whose bytes are no text. -/
theorem unreadableAt_iff (hdir : files.find dir = .ok (.dir entries)) {name : String}
    (hname : IsEntryName name) :
    ctx.UnreadableAt files dir name ↔
      IsFileAt entries dir name .bytes ∧ ctx.isBuildableName name = true := by
  rw [UnreadableAt, IsFileAt, ← FileTree.find_child_eq_ok_iff hdir hname, FileTree.isFile,
    FileTree.readText]
  split
  · next content hfind =>
    cases content with
    | text s => simp [hfind]
    | bytes => simp [hfind]
  · next hnot =>
    have hbytes : files.find (dir.child name) ≠ .ok (.file .bytes) := hnot .bytes
    simp [hbytes]

/-- **The files in a directory decide what is answered for it.** -/
theorem result_accept_cases (ctx : GoContext) (path : String)
    (hnames : ∀ e ∈ entries, IsEntryName e.1) {l : Location}
    (hdir : files.find l.dir = .ok (.dir entries)) :
    ((ctx.accept files path l).result = .ok l ∧
      ∃ name source, IsFileAt entries l.dir name (.text source) ∧ ctx.Builds name source) ∨
    (∃ name, IsFileAt entries l.dir name .bytes ∧ ctx.isBuildableName name = true ∧
      (ctx.accept files path l).result =
        .error (.io (l.dir.child name) SystemError.notText.message)) ∨
    ((ctx.accept files path l).result = .error (.noBuildableFiles path l.dir) ∧
      ∀ name content, IsFileAt entries l.dir name content → ctx.isBuildableName name = true →
        ∃ source, content = .text source ∧ ¬ ctx.Builds name source) := by
  have hvalid : ∀ name ∈ entries.map Prod.fst, IsEntryName name := by
    intro name hname
    obtain ⟨e, he, rfl⟩ := List.mem_map.mp hname
    exact hnames e he
  have hlist : files.list l.dir = .ok entries := by rw [FileTree.list, hdir]
  rw [accept, hlist]
  dsimp only
  rcases verdict_examine_cases ctx files l.dir (entries.map Prod.fst) with
    ⟨hverdict, name, hname, hbuilds⟩ | ⟨name, e, hname, hunreadable, hread, hverdict⟩ |
    ⟨hverdict, hnone⟩
  · obtain ⟨source, hfile, hbuilds⟩ := (buildsAt_iff hdir (hvalid name hname)).mp hbuilds
    exact .inl ⟨by rw [hverdict], name, source, hfile, hbuilds⟩
  · obtain ⟨hfile, hbuildable⟩ := (unreadableAt_iff hdir (hvalid name hname)).mp hunreadable
    have hfind := (FileTree.find_child_eq_ok_iff hdir (hvalid name hname)).mpr hfile
    have herror : e = .notText := by
      rw [FileTree.readText, hfind] at hread
      exact (Except.error.inj hread).symm
    exact .inr (.inl ⟨name, hfile, hbuildable, by rw [hverdict, herror]⟩)
  · refine .inr (.inr ⟨by rw [hverdict], fun name content hfile hbuildable => ?_⟩)
    have hname : name ∈ entries.map Prod.fst := by
      obtain ⟨front, back, hentries, -⟩ := List.lookup_eq_some_iff.mp hfile.1
      rw [hentries]
      simp
    obtain ⟨hbuilds, hunreadable⟩ := hnone name hname
    cases content with
    | bytes =>
      exact absurd ((unreadableAt_iff hdir (hvalid name hname)).mpr ⟨hfile, hbuildable⟩)
        hunreadable
    | text source =>
      exact ⟨source, rfl, fun h =>
        hbuilds ((buildsAt_iff hdir (hvalid name hname)).mpr ⟨source, hfile, h⟩)⟩

/-! ## 2. The search -/

/-- The search for a local import path asks for one directory. -/
theorem result_locate_of_local (ctx : GoContext) (files : FileTree)
    (hvalid : ImportPath.validate path = .ok ()) (hlocal : ImportPath.isLocal path = true)
    (sourceDir : Path) :
    (ctx.locate files path sourceDir).result =
      if files.isDir (sourceDir.child path).normalize then
        (ctx.accept files path (ctx.localLocation path (sourceDir.child path).normalize)).result
      else .error (.notFound path sourceDir [(sourceDir.child path).normalize]) := by
  rw [locate, hvalid]
  dsimp only
  rw [target, hlocal, if_pos rfl]
  dsimp only
  cases files.isDir (sourceDir.child path).normalize with
  | true => rfl
  | false => rfl

theorem dir_localLocation (ctx : GoContext) (path : String) (dir : Path) :
    (ctx.localLocation path dir).dir = dir := by
  rw [localLocation]
  split <;> rfl

/-- Whether a search says that nothing was found. -/
def SaysNotFound (result : Except ResolutionError Location) : Prop :=
  ∃ path sourceDir searched, result = .error (.notFound path sourceDir searched)

/-- Of a directory that is there it is not said that nothing was found. -/
theorem not_saysNotFound_accept {l : Location} (hnames : ∀ e ∈ entries, IsEntryName e.1)
    (hdir : files.find l.dir = .ok (.dir entries)) :
    ¬ SaysNotFound (ctx.accept files path l).result := by
  rintro ⟨path', sourceDir', searched, hnotFound⟩
  rcases result_accept_cases ctx path hnames hdir with
    ⟨hresult, -⟩ | ⟨name, -, -, hresult⟩ | ⟨hresult, -⟩ <;>
  · rw [hresult] at hnotFound
    cases hnotFound

/-- **Nothing is found exactly when there is no directory where the normalized path resolves to**,
or when that path is empty or too long. -/
theorem saysNotFound_locate_iff (ctx : GoContext) (hfiles : files.WellFormed)
    (hvalid : ImportPath.validate path = .ok ()) (hlocal : ImportPath.isLocal path = true)
    (sourceDir : Path) :
    SaysNotFound (ctx.locate files path sourceDir).result ↔
      ¬ ((sourceDir.child path).normalize.text ≠ "" ∧ (sourceDir.child path).normalize.Fits ∧
        files.HasDir ((sourceDir.child path).normalize.resolved files.cwd)) := by
  rw [← FileTree.isDir_normalize_iff hfiles, result_locate_of_local ctx files hvalid hlocal]
  cases hdir : files.isDir (sourceDir.child path).normalize with
  | false =>
    rw [if_neg Bool.false_ne_true]
    exact iff_of_true ⟨_, _, _, rfl⟩ Bool.false_ne_true
  | true =>
    obtain ⟨entries, hfind⟩ := FileTree.isDir_iff.mp hdir
    obtain ⟨q, -, hq⟩ := FileTree.find_eq_dir_iff.mp hfind
    have hnames : ∀ e ∈ entries, IsEntryName e.1 := hfiles.names.of_get?_dir hq
    rw [if_pos rfl]
    refine iff_of_false (not_saysNotFound_accept hnames ?_) (not_not_intro rfl)
    rwa [dir_localLocation]

/-- **Local imports reach the directory that is meant, when normalizing keeps it.**

1. Nothing is found exactly when there is no directory where the normalized path resolves to, or
   when that path is empty or too long.
2. When normalizing keeps the place, nothing is found exactly when there is no directory where the
   path itself resolves to.  When there is one, its files decide: a package is answered with a path
   that leads to this directory, and some file in it builds; or the look through it ends at a file
   that cannot be read; or it has no file of either kind.
3. The directory that a path resolves to when it cancels to nothing is there, and it is not found
   by 1.  The place is another one unless the path rises by one name at most, or to the root. -/
theorem locate_of_local (ctx : GoContext) (hfiles : files.WellFormed)
    (hvalid : ImportPath.validate path = .ok ()) (hlocal : ImportPath.isLocal path = true)
    (sourceDir : Path) :
    let p := sourceDir.child path
    let meant := p.resolved files.cwd
    let result := (ctx.locate files path sourceDir).result
    (SaysNotFound result ↔
      ¬ (p.normalize.text ≠ "" ∧ p.normalize.Fits ∧
        files.HasDir (p.normalize.resolved files.cwd))) ∧
    (p.PlaceIsKept files.cwd →
      (SaysNotFound result ↔ ¬ files.HasDir meant) ∧
      ∀ entries, files.root.get? meant = some (.dir entries) →
        (∃ l, result = .ok l ∧ l.dir = p.normalize ∧ files.place l.dir = .ok meant ∧
          ∃ name source, IsFileAt entries l.dir name (.text source) ∧ ctx.Builds name source) ∨
        (∃ name, IsFileAt entries p.normalize name .bytes ∧ ctx.isBuildableName name = true ∧
          result = .error (.io (p.normalize.child name) SystemError.notText.message)) ∨
        (result = .error (.noBuildableFiles path p.normalize) ∧
          ∀ name content, IsFileAt entries p.normalize name content →
            ctx.isBuildableName name = true →
              ∃ source, content = .text source ∧ ¬ ctx.Builds name source)) ∧
    (p.normalize.text = "" → files.HasDir meant) ∧
    (p.normalize.resolved files.cwd = meant ↔
      p.isAbsolute = true ∨ p.height ≤ 1 ∨ files.cwd.length ≤ p.height % 2) := by
  intro p meant result
  have hnotFound := saysNotFound_locate_iff ctx hfiles hvalid hlocal sourceDir
  refine ⟨hnotFound, fun hkept => ⟨?_, fun entries hentries => ?_⟩, fun hempty => ?_,
    p.resolved_normalize_eq_iff files.cwd⟩
  · have hmeant : p.normalize.resolved files.cwd = meant :=
      (p.resolved_normalize_eq_iff files.cwd).mpr hkept.rise
    rw [hnotFound, hmeant]
    exact not_congr ⟨fun h => h.2.2, fun h => ⟨hkept.text_ne_empty, hkept.fits, h⟩⟩
  · have hmeant : p.normalize.resolved files.cwd = meant :=
      (p.resolved_normalize_eq_iff files.cwd).mpr hkept.rise
    have hfind : files.find p.normalize = .ok (.dir entries) := by
      refine (FileTree.find_normalize_eq_dir_iff hfiles p).mpr
        ⟨hkept.text_ne_empty, hkept.fits, ?_⟩
      rw [hmeant]
      exact hentries
    obtain ⟨q, hplace, hq⟩ := FileTree.find_eq_dir_iff.mp hfind
    have hqmeant : q = meant := (FileTree.place_eq_resolved hplace).trans hmeant
    have hnames : ∀ e ∈ entries, IsEntryName e.1 := hfiles.names.of_get?_dir hq
    have hresult : result =
        (ctx.accept files path (ctx.localLocation path p.normalize)).result := by
      have hisDir : files.isDir p.normalize = true := FileTree.isDir_iff.mpr ⟨entries, hfind⟩
      have hlocate := result_locate_of_local ctx files hvalid hlocal sourceDir
      rw [if_pos hisDir] at hlocate
      exact hlocate
    have hdir := dir_localLocation ctx path p.normalize
    rw [hresult]
    rcases result_accept_cases ctx path hnames (hdir ▸ hfind) with
      ⟨hok, hbuilds⟩ | hunreadable | hnone
    · exact .inl ⟨_, hok, hdir, by rw [hdir, hplace, hqmeant], hbuilds⟩
    · rw [hdir] at hunreadable
      exact .inr (.inl hunreadable)
    · rw [hdir] at hnone
      exact .inr (.inr hnone)
  · have hcancelled : p.normalize.components = [] := Path.text_eq_empty_iff.mp hempty
    exact hfiles.cwd.of_prefix (Path.resolved_prefix_of_normalize_eq_empty hcancelled files.cwd)

/-- Two packages side by side, in a directory that is the parent of the current one. -/
def sideBySide : GoContext × FileTree :=
  ({},
    { cwd := ["ws", "app"]
      root := .dir
        [("lib", .dir [("lib.go", .file (.text "package lib\n"))]),
          ("ws", .dir
            [("app", .dir [("app.go", .file (.text "package app\n"))]),
              ("lib", .dir [("lib.go", .file (.text "package lib\n"))])])] })

theorem wellFormed_sideBySide : sideBySide.2.WellFormed := by
  have hnames : ∀ s ∈ ["lib", "ws", "lib.go", "app", "app.go"], IsEntryName s := by decide +kernel
  simp only [List.forall_mem_cons] at hnames
  obtain ⟨hlib, hws, hlibgo, happ, happgo, -⟩ := hnames
  refine ⟨?_, _, rfl⟩
  simp [sideBySide, hlib, hws, hlibgo, happ, happgo]

/-- The package next to the current directory is reached. -/
theorem locate_of_local_beside :
    sideBySide.2.WellFormed ∧ ImportPath.validate "../lib" = .ok () ∧
    ImportPath.isLocal "../lib" = true ∧
    (Path.child ⟨"."⟩ "../lib").resolved sideBySide.2.cwd = ["ws", "lib"] ∧
    ∃ l, (sideBySide.1.locate sideBySide.2 "../lib" ⟨"."⟩).result = .ok l ∧ l.dir = ⟨"../lib"⟩ ∧
      sideBySide.2.place l.dir = .ok ["ws", "lib"] := by
  have hvalid : ImportPath.validate "../lib" = .ok () := by decide +kernel
  have hlocal : ImportPath.isLocal "../lib" = true := by decide +kernel
  have hmeant : (Path.child ⟨"."⟩ "../lib").resolved sideBySide.2.cwd = ["ws", "lib"] := by
    decide +kernel
  have hnormalize : (Path.child ⟨"."⟩ "../lib").normalize = ⟨"../lib"⟩ := by decide +kernel
  have hkept : (Path.child ⟨"."⟩ "../lib").PlaceIsKept sideBySide.2.cwd :=
    ⟨by decide +kernel, by decide +kernel, .inr (.inl (by decide +kernel))⟩
  have hsource : Constraint.ofSource "package lib\n" = .ok none := by
    have hheader : Constraint.header "package lib\n" = [] := by decide +kernel
    rw [Constraint.ofSource_eq, hheader]
    rfl
  refine ⟨wellFormed_sideBySide, hvalid, hlocal, hmeant, ?_⟩
  have hfiles := ((locate_of_local sideBySide.1 wellFormed_sideBySide hvalid hlocal ⟨"."⟩).2.1
    hkept).2 [("lib.go", .file (.text "package lib\n"))] (by rw [hmeant]; rfl)
  rw [hmeant, hnormalize] at hfiles
  rcases hfiles with ⟨l, hresult, hdir, hplace, -⟩ | ⟨name, hbytes, -⟩ | ⟨-, hnone⟩
  · exact ⟨l, hresult, hdir, hplace⟩
  · -- the only file is a text
    have hentry := hbytes.1
    rw [List.lookup_cons] at hentry
    split at hentry
    · cases hentry
    · cases hentry
  · -- the only file builds
    have hfile : IsFileAt [("lib.go", .file (.text "package lib\n"))] ⟨"../lib"⟩ "lib.go"
        (.text "package lib\n") := ⟨rfl, by decide +kernel⟩
    have hbuildable : sideBySide.1.isBuildableName "lib.go" = true := by decide +kernel
    obtain ⟨source, hcontent, hfails⟩ := hnone _ _ hfile hbuildable
    rw [← Content.text.inj hcontent] at hfails
    exact absurd ⟨hbuildable, .inl hsource⟩ hfails

/-- **Directories that are there are not found.**  The package two directories up is looked up in
the current directory, and the current directory itself is looked up by the empty path. -/
theorem not_reached_of_two_ups :
    sideBySide.2.WellFormed ∧
    ((Path.child ⟨".."⟩ "../lib").resolved sideBySide.2.cwd = ["lib"] ∧
      sideBySide.2.HasDir ["lib"] ∧
      (sideBySide.1.locate sideBySide.2 "../lib" ⟨".."⟩).result =
        .error (.notFound "../lib" ⟨".."⟩ [⟨"lib"⟩])) ∧
    (Path.child ⟨"."⟩ ".").resolved sideBySide.2.cwd = sideBySide.2.cwd ∧
      sideBySide.2.HasDir sideBySide.2.cwd ∧
      (sideBySide.1.locate sideBySide.2 "." ⟨"."⟩).result =
        .error (.notFound "." ⟨"."⟩ [⟨""⟩]) := by
  refine ⟨wellFormed_sideBySide, ⟨by decide +kernel, ⟨_, rfl⟩, by decide +kernel⟩,
    by decide +kernel, wellFormed_sideBySide.cwd, by decide +kernel⟩

end GoContext

end GoResolver
