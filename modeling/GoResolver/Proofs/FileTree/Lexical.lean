import GoResolver.Proofs.FileTree.Spelling
import GoResolver.Proofs.Path.Normalization

/-!
# Walking and resolving

A path can be followed in two ways.  `Path.resolved` takes back a name for each `..` and asks no
disk; a walk goes from directory to directory, and every directory on the way has to be there.

* A walk that succeeds ends where the path resolves to (`place_eq_resolved`).  A tree has no links,
  so both ways agree on where `..` leads.
* The other way round a walk can fail in a directory that a later `..` leaves again.  A normalized
  path has no such detour: it goes up from the current directory at most once, and then down to its
  end.  So it leads to a directory when there is one at its end (`find_normalize_eq_dir_iff`).

The second point is about trees as there are: the current directory is a directory of the tree, and
names have no slash and are not too long (`FileTree.WellFormed`).
-/

namespace GoResolver

/-! ## 1. Trees as there are -/

/-- The names that the entries of a directory have. -/
def IsEntryName (s : String) : Prop :=
  Path.IsStep (.name s) ∧ '\x00' ∉ s.toList ∧ s.utf8ByteSize ≤ nameLimit

instance (s : String) : Decidable (IsEntryName s) := inferInstanceAs (Decidable (_ ∧ _ ∧ _))

theorem IsEntryName.component?_eq {s : String} (h : IsEntryName s) :
    Path.component? s = some (.name s) := h.1.1

/-- All names in a tree are names of entries. -/
inductive Node.NamesAreValid : Node → Prop where
  | file (content : Content) : NamesAreValid (.file content)
  | dir (entries : List (String × Node))
      (inside : ∀ e ∈ entries, e.2.NamesAreValid) (here : ∀ e ∈ entries, IsEntryName e.1) :
      NamesAreValid (.dir entries)

namespace Node

variable {node found : Node}

@[simp] theorem namesAreValid_file (content : Content) : (Node.file content).NamesAreValid :=
  .file content

@[simp] theorem namesAreValid_dir {entries : List (String × Node)} :
    (Node.dir entries).NamesAreValid ↔ ∀ e ∈ entries, e.2.NamesAreValid ∧ IsEntryName e.1 := by
  constructor
  · rintro (_ | ⟨_, inside, here⟩)
    exact fun e he => ⟨inside e he, here e he⟩
  · exact fun h => .dir entries (fun e he => (h e he).1) fun e he => (h e he).2

theorem NamesAreValid.entry (h : node.NamesAreValid) {name : String}
    (hfound : node.entries.lookup name = some found) : found.NamesAreValid ∧ IsEntryName name := by
  obtain ⟨before, after, hentries, -⟩ := List.lookup_eq_some_iff.mp hfound
  have hmem : (name, found) ∈ node.entries := by
    rw [hentries]
    exact List.mem_append_right before List.mem_cons_self
  cases node with
  | file content => cases hmem
  | dir entries => exact namesAreValid_dir.mp h _ hmem

/-- The names on the way to a node are names of entries. -/
theorem NamesAreValid.of_get? (h : node.NamesAreValid) {place : List String}
    (hfound : node.get? place = some found) : ∀ s ∈ place, IsEntryName s := by
  induction place generalizing node with
  | nil => exact fun s hs => by cases hs
  | cons name place ih =>
    rw [get?] at hfound
    split at hfound
    · cases hfound
    · next child hchild =>
      obtain ⟨hbelow, hname⟩ := h.entry hchild
      exact List.forall_mem_cons.mpr ⟨hname, ih hbelow hfound⟩

/-- The names in a directory of the tree are names of entries. -/
theorem NamesAreValid.of_get?_dir (h : node.NamesAreValid) {place : List String}
    {entries : List (String × Node)} (hfound : node.get? place = some (.dir entries)) :
    ∀ e ∈ entries, IsEntryName e.1 := by
  induction place generalizing node with
  | nil =>
    rw [get?, Option.some_inj] at hfound
    rw [hfound, namesAreValid_dir] at h
    exact fun e he => (h e he).2
  | cons name place ih =>
    rw [get?] at hfound
    split at hfound
    · cases hfound
    · next child hchild => exact ih (h.entry hchild).1 hfound

theorem get?_append (node : Node) (place below : List String) :
    node.get? (place ++ below) = (node.get? place).bind fun found => found.get? below := by
  induction place generalizing node with
  | nil => rfl
  | cons name place ih =>
    rw [List.cons_append, get?, get?]
    cases node.entries.lookup name with
    | none => rfl
    | some child => exact ih child

/-- What is found below a directory is what its entries lead to. -/
theorem get?_concat {root : Node} {place : List String} {entries : List (String × Node)}
    (hplace : root.get? place = some (.dir entries)) (name : String) :
    root.get? (place ++ [name]) = entries.lookup name := by
  rw [get?_append, hplace, Option.bind_some, get?, Node.entries]
  cases entries.lookup name with
  | none => rfl
  | some child => rfl

/-- Above a node there are directories. -/
theorem exists_dir_of_get?_append {node : Node} {place below : List String}
    (hbelow : below ≠ []) (h : node.get? (place ++ below) = some found) :
    ∃ entries, node.get? place = some (.dir entries) := by
  rw [get?_append] at h
  obtain ⟨above, habove, hfound⟩ := Option.bind_eq_some_iff.mp h
  obtain ⟨name, rest, rfl⟩ := List.exists_cons_of_ne_nil hbelow
  cases above with
  | file content => cases hfound
  | dir entries => exact ⟨entries, habove⟩

end Node

namespace FileTree

variable {t : FileTree} {p : Path} {entries : List (String × Node)}

/-- Whether there is a directory at a place. -/
def HasDir (t : FileTree) (place : List String) : Prop :=
  ∃ entries, t.root.get? place = some (.dir entries)

/-- Above a directory there are directories. -/
theorem HasDir.of_prefix {place below : List String} (h : t.HasDir below)
    (hbegins : place <+: below) : t.HasDir place := by
  obtain ⟨rest, rfl⟩ := hbegins
  obtain ⟨entries, hentries⟩ := h
  rcases List.eq_nil_or_concat rest with rfl | ⟨front, last, rfl⟩
  · exact ⟨entries, by rwa [List.append_nil] at hentries⟩
  · exact Node.exists_dir_of_get?_append (by simp) hentries

/-- A tree as there are: its names are names of entries, and the current directory is in it. -/
structure WellFormed (t : FileTree) : Prop where
  names : t.root.NamesAreValid
  cwd : t.HasDir t.cwd

/-! ## 2. Walks end where paths resolve to -/

/-- A step leads where its component leads. -/
theorem step_eq_ok {place next : List String} {s : String} (h : t.step place s = .ok next) :
    next = (Path.component? s).toList.foldl Path.enter place := by
  rw [step] at h
  split at h
  · cases h
  · cases h
  · rw [Path.component?]
    split at h
    · next htrivial =>
      rw [if_pos htrivial]
      exact (Except.ok.inj h).symm
    · next htrivial =>
      rw [if_neg htrivial]
      split at h
      · next hup =>
        rw [if_pos hup]
        exact (Except.ok.inj h).symm
      · next hup =>
        rw [if_neg hup]
        split at h
        · cases h
        · split at h
          · exact (Except.ok.inj h).symm
          · cases h

theorem walk_eq_ok {place q : List String} {segs : List String} (h : t.walk place segs = .ok q) :
    q = (segs.filterMap Path.component?).foldl Path.enter place := by
  induction segs generalizing place with
  | nil => exact (Except.ok.inj h).symm
  | cons s segs ih =>
    rw [walk] at h
    split at h
    · cases h
    · next next hstep =>
      have hnext := step_eq_ok hstep
      rw [ih h, hnext]
      cases hs : Path.component? s with
      | none => rw [List.filterMap_cons_none hs, Option.toList_none, List.foldl_nil]
      | some c =>
        rw [List.filterMap_cons_some hs, Option.toList_some, List.foldl_cons, List.foldl_cons,
          List.foldl_nil]

/-- **A path that leads somewhere leads where it resolves to.** -/
theorem place_eq_resolved {q : List String} (h : t.place p = .ok q) : q = p.resolved t.cwd := by
  rw [Path.resolved_eq]
  exact walk_eq_ok (place_eq_ok_iff.mp h).2

/-! ## 3. Down to a directory -/

/-- A name leads down to its entry. -/
theorem step_name {place : List String} {name : String}
    (hplace : t.root.get? place = some (.dir entries))
    (hname : Path.component? name = some (.name name)) (hlimit : name.utf8ByteSize ≤ nameLimit) :
    t.step place name =
      if (entries.lookup name).isSome then .ok (place ++ [name]) else .error .notFound := by
  have hup : name ≠ ".." := by
    rintro rfl
    exact absurd hname (by decide)
  have htrivial : ¬ Path.isTrivial name = true := by
    rw [← Path.component?_eq_none_iff, hname]
    exact Option.some_ne_none _
  rw [step, hplace]
  dsimp only
  rw [if_neg htrivial, if_neg hup, if_neg (Nat.not_lt.mpr hlimit)]

/-- Names lead down to the directory that they are the names of. -/
theorem walk_names (hnames : t.root.NamesAreValid) {place below : List String}
    (h : t.HasDir (place ++ below)) : t.walk place below = .ok (place ++ below) := by
  induction below generalizing place with
  | nil => rw [walk, List.append_nil]
  | cons name below ih =>
    obtain ⟨found, hfound⟩ := h
    obtain ⟨entries, hplace⟩ :=
      Node.exists_dir_of_get?_append (List.cons_ne_nil name below) hfound
    have hname : IsEntryName name :=
      hnames.of_get? hfound name (List.mem_append_right place List.mem_cons_self)
    have hentry : (entries.lookup name).isSome = true := by
      rw [Node.get?_append, hplace, Option.bind_some, Node.get?, Node.entries] at hfound
      split at hfound
      · cases hfound
      · next child hchild =>
        rw [hchild]
        rfl
    have hdir : t.HasDir (place ++ [name] ++ below) := ⟨found, by simpa using hfound⟩
    rw [walk, step_name hplace hname.component?_eq hname.2.2, if_pos hentry]
    dsimp only
    rw [ih hdir, List.append_assoc, List.singleton_append]

/-! ## 4. What a path is found to lead to -/

theorem refusal?_eq_none_iff :
    p.refusal? = none ↔ p.text ≠ "" ∧ '\x00' ∉ p.text.toList ∧ p.Fits := by
  rw [Path.refusal?, Path.Fits]
  by_cases hempty : p.text = ""
  · simp [hempty]
  · by_cases hnull : '\x00' ∈ p.text.toList
    · simp [hempty, hnull]
    · simp [hempty, hnull]

/-- A joined path is not refused, unless it is too long. -/
theorem refusal?_join {q : Path} (hp : p.refusal? = none) (hq : q.isAbsolute = false)
    (hnull : '\x00' ∉ q.text.toList) (hfits : (p.join q).Fits) :
    (p.join q).refusal? = none := by
  obtain ⟨htext, hpnull, -⟩ := refusal?_eq_none_iff.mp hp
  refine refusal?_eq_none_iff.mpr ⟨?_, ?_, hfits⟩
  · rw [ne_eq, Path.text_eq_empty_iff] at htext ⊢
    rw [Path.components_join (Path.text_eq_empty_iff.not.mpr htext) hq, List.append_eq_nil_iff]
    exact fun h => htext h.1
  · rw [Path.mem_text_iff (by decide) (by decide)] at hnull hpnull ⊢
    rintro ⟨step, hstep, hmem⟩
    rw [Path.steps_join p hq, List.mem_append] at hstep
    rcases hstep with hstep | hstep
    · exact hpnull ⟨step, hstep, hmem⟩
    · exact hnull ⟨step, hstep, hmem⟩

/-- What a path leads to is at the end of its walk. -/
theorem find_eq_ok_iff {node : Node} :
    t.find p = .ok node ↔ ∃ q, t.place p = .ok q ∧ t.root.get? q = some node := by
  rw [find]
  cases t.place p with
  | error e => simp
  | ok place =>
    cases hnode : t.root.get? place with
    | none => simp [hnode]
    | some found => simp [hnode]

/-- A path that leads anywhere is not too long for the system. -/
theorem fits_of_find {node : Node} (h : t.find p = .ok node) : p.Fits := by
  obtain ⟨q, hq, -⟩ := find_eq_ok_iff.mp h
  exact (refusal?_eq_none_iff.mp (place_eq_ok_iff.mp hq).1).2.2

/-- What is too long leads to no file. -/
theorem isFile_of_not_fits (h : ¬ p.Fits) : t.isFile p = false := by
  cases hfind : t.find p with
  | error e => rw [isFile, hfind]
  | ok node => exact absurd (fits_of_find hfind) h

/-- **The path of an entry leads to the entry**, unless it is too long. -/
theorem find_child (hdir : t.find p = .ok (.dir entries)) {name : String}
    (hname : IsEntryName name) (hfits : (p.child name).Fits) :
    t.find (p.child name) = (entries.lookup name).elim (.error .notFound) .ok := by
  obtain ⟨q, hplace, hq⟩ := find_eq_dir_iff.mp hdir
  have hslash : '/' ∉ name.toList := hname.1.2
  have hrel : Path.isAbsolute ⟨name⟩ = false := by
    rw [Path.isAbsolute, beq_eq_false_iff_ne]
    exact fun hhead => hslash (List.mem_of_mem_head? hhead)
  have hsegs : Path.segments ⟨name⟩ = [name] := by
    rw [Path.segments, Text.pieces_of_not_mem hslash, List.map_singleton, String.ofList_toList]
  have hrefusal : (p.child name).refusal? = none :=
    refusal?_join (place_eq_ok_iff.mp hplace).1 hrel hname.2.1 hfits
  rw [find, FileTree.place, hrefusal]
  dsimp only
  rw [walk_child hplace hq hrel, hsegs, walk, step_name hq hname.component?_eq hname.2.2]
  cases hentry : entries.lookup name with
  | none => rfl
  | some node =>
    have hnode : t.root.get? (q ++ [name]) = some node := by rw [Node.get?_concat hq, hentry]
    rw [Option.isSome_some, if_pos rfl]
    dsimp only
    rw [walk]
    dsimp only
    rw [hnode, Option.elim_some]

theorem find_child_eq_ok_iff (hdir : t.find p = .ok (.dir entries)) {name : String}
    (hname : IsEntryName name) {node : Node} :
    t.find (p.child name) = .ok node ↔
      entries.lookup name = some node ∧ (p.child name).Fits := by
  constructor
  · intro hfind
    have hfits := fits_of_find hfind
    rw [find_child hdir hname hfits] at hfind
    cases hentry : entries.lookup name with
    | none =>
      rw [hentry] at hfind
      cases hfind
    | some found =>
      rw [hentry] at hfind
      exact ⟨by rw [Except.ok.inj hfind], hfits⟩
  · rintro ⟨hentry, hfits⟩
    rw [find_child hdir hname hfits, hentry, Option.elim_some]

/-- The walk of a normalized path goes up once or not at all, and then down. -/
theorem walk_normalize (ht : t.WellFormed) {below : List String}
    (hcomponents : p.normalize.components = p.rest ++ below.map .name)
    (h : t.HasDir (Path.above (p.height % 2) (p.startFrom t.cwd) ++ below)) :
    t.walk (t.start p.normalize) p.normalize.segments =
      .ok (Path.above (p.height % 2) (p.startFrom t.cwd) ++ below) := by
  obtain ⟨habs, hsteps⟩ := Path.isAbsolute_and_steps_normalize hcomponents
  have hstart : t.start p.normalize = p.startFrom t.cwd := by
    rw [start, habs, Path.startFrom]
  have hstartDir : t.HasDir (p.startFrom t.cwd) := by
    rw [Path.startFrom]
    split
    · exact h.of_prefix (List.nil_prefix)
    · exact ht.cwd
  have hsegments : p.normalize.segments.filter (fun s => !Path.isTrivial s) =
      p.oddUp.map Component.segment ++ below := by
    have hread : p.normalize.segments.filterMap Path.component? =
        p.oddUp ++ below.map .name := hsteps
    rw [Path.filter_segments, hread, List.map_append, Path.map_segment_map_name]
  obtain ⟨entries, hentries⟩ := h
  obtain ⟨startEntries, hstartEntries⟩ := hstartDir
  rw [walk_eq_ok_iff hentries, hsegments, hstart, Path.oddUp]
  rcases Nat.mod_two_eq_zero_or_one p.height with heven | hodd
  · rw [heven, Path.above_zero] at hentries ⊢
    exact walk_names ht.names ⟨entries, hentries⟩
  · rw [hodd, ← Path.dropLast_above 0, Path.above_zero] at hentries ⊢
    have hup : t.step (p.startFrom t.cwd) ".." = .ok (p.startFrom t.cwd).dropLast := by
      rw [step, hstartEntries]
      rfl
    rw [if_pos rfl, List.map_singleton, Component.segment, List.singleton_append, walk, hup]
    exact walk_names ht.names ⟨entries, hentries⟩

/-- **A normalized path leads to a directory when there is one where it resolves to**, unless the
path is empty or too long. -/
theorem find_normalize_eq_dir_iff (ht : t.WellFormed) (p : Path) :
    t.find p.normalize = .ok (.dir entries) ↔
      p.normalize.text ≠ "" ∧ p.normalize.Fits ∧
        t.root.get? (p.normalize.resolved t.cwd) = some (.dir entries) := by
  rw [find_eq_dir_iff]
  constructor
  · rintro ⟨q, hplace, hq⟩
    obtain ⟨htext, -, hfits⟩ := refusal?_eq_none_iff.mp (place_eq_ok_iff.mp hplace).1
    exact ⟨htext, hfits, by rwa [← place_eq_resolved hplace]⟩
  · rintro ⟨htext, hfits, hentries⟩
    obtain ⟨below, hcomponents, -⟩ := p.exists_components_normalize
    obtain ⟨-, hsteps⟩ := Path.isAbsolute_and_steps_normalize hcomponents
    have hresolved := Path.resolved_of_components_normalize hcomponents t.cwd
    have hnull : '\x00' ∉ p.normalize.text.toList := by
      rw [Path.mem_text_iff (by decide) (by decide), hsteps]
      rintro ⟨step, hstep, hmem⟩
      rcases List.mem_append.mp hstep with hup | hname
      · rw [Path.oddUp] at hup
        split at hup
        · rw [List.mem_singleton.mp hup] at hmem
          exact absurd hmem (by decide)
        · cases hup
      · -- the names of the path are names in the tree
        obtain ⟨s, hs, rfl⟩ := List.mem_map.mp hname
        rw [hresolved] at hentries
        exact (ht.names.of_get? hentries s (List.mem_append_right _ hs)).2.1 hmem
    refine ⟨p.normalize.resolved t.cwd, ?_, hentries⟩
    rw [place_eq_ok_iff]
    refine ⟨refusal?_eq_none_iff.mpr ⟨htext, hnull, hfits⟩, ?_⟩
    rw [hresolved] at hentries ⊢
    exact walk_normalize ht hcomponents ⟨entries, hentries⟩

theorem isDir_normalize_iff (ht : t.WellFormed) (p : Path) :
    t.isDir p.normalize = true ↔
      p.normalize.text ≠ "" ∧ p.normalize.Fits ∧ t.HasDir (p.normalize.resolved t.cwd) := by
  rw [isDir_iff, exists_congr fun entries => find_normalize_eq_dir_iff ht p]
  simp only [exists_and_left, HasDir]

end FileTree

end GoResolver
