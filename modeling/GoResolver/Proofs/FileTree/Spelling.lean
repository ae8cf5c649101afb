import GoResolver.FileTree
import GoResolver.Proofs.Path.Components

/-!
# The spelling of a path and where it leads

Two paths are the same when their components agree, but a lookup goes by the text: it walks all the
segments between slashes, the trivial ones too.  Here it is shown how far two spellings of one path
can be told apart on a disk.

* They start at the same place and have the same steps (`Path.same_iff`), so a lookup of either that
  leads to a directory leads to the directory of the other (`FileTree.place_eq_ok_iff_of_same`).
* Below that directory the same names lead to the same nodes, files included
  (`FileTree.find_child_of_same`).

A file itself can be told apart: `f/` leads nowhere when `f` leads to a file, because a trivial
segment needs a directory to stand in.  So can a path that is too long, since the system counts all
its bytes: the directories are assumed to fit, and of the paths below them both or neither.
-/

namespace GoResolver

/-! ## 1. Spellings of one path -/

/-- A character that does not separate pieces stands in one of them. -/
theorem Text.mem_iff_exists_mem_pieces {sep c : Char} (h : c ≠ sep) (s : List Char) :
    c ∈ s ↔ ∃ piece ∈ Text.pieces sep s, c ∈ piece := by
  induction s with
  | nil => simp [Text.pieces]
  | cons d s ih =>
    rw [List.mem_cons, ih, Text.pieces]
    split
    · next hsep => simp [hsep, h]
    · cases hpieces : Text.pieces sep s with
      | nil => exact absurd hpieces (Text.pieces_ne_nil sep s)
      | cons piece pieces => simp [or_assoc]

namespace Path

/-- The segments that are not trivial are those that the steps are written as. -/
theorem filter_segments (segs : List String) :
    segs.filter (fun s => !isTrivial s) = (segs.filterMap component?).map Component.segment := by
  induction segs with
  | nil => rfl
  | cons s segs ih =>
    cases hc : component? s with
    | none =>
      have hs : isTrivial s = true := component?_eq_none_iff.mp hc
      rw [List.filter_cons_of_neg (by simp [hs]), List.filterMap_cons_none hc, ih]
    | some c =>
      have hs : isTrivial s = false := by
        rw [← Bool.not_eq_true, ← component?_eq_none_iff, hc]
        exact Option.some_ne_none c
      rw [List.filter_cons_of_pos (by simp [hs]), List.filterMap_cons_some hc, List.map_cons, ih,
        segment_of_component?_eq_some hc]

/-! ### What the system refuses -/

/-- The path is not too long for the system. -/
def Fits (p : Path) : Prop := p.text.utf8ByteSize ≤ pathLimit

instance (p : Path) : Decidable p.Fits := inferInstanceAs (Decidable (_ ≤ _))

theorem text_eq_empty_iff {p : Path} : p.text = "" ↔ p.components = [] := by
  constructor
  · intro hp
    have hempty : p = ⟨""⟩ := by rw [← hp]
    rw [hempty]
    rfl
  · intro h
    by_contra hp
    rw [components_eq, List.append_eq_nil_iff] at h
    have hlead : p.lead = none := by simpa using h.1
    obtain ⟨s, rest, hsegs⟩ := List.exists_cons_of_ne_nil p.segments_ne_nil
    -- the first segment would be a step
    have hs : isTrivial s = false :=
      not_isTrivial_of_mem_head?_segments hlead hp (by rw [hsegs]; rfl)
    cases hc : component? s with
    | none =>
      rw [component?_eq_none_iff.mp hc] at hs
      cases hs
    | some c =>
      have hsteps := h.2
      rw [steps, hsegs, List.filterMap_cons_some hc] at hsteps
      cases hsteps

/-- A character that no spelling adds stands in a step. -/
theorem mem_text_iff {p : Path} {c : Char} (hslash : c ≠ '/') (hdot : c ≠ '.') :
    c ∈ p.text.toList ↔ ∃ step ∈ p.steps, c ∈ step.segment.toList := by
  have hsegs : c ∈ p.text.toList ↔ ∃ s ∈ p.segments, c ∈ s.toList := by
    rw [Text.mem_iff_exists_mem_pieces hslash, segments]
    simp
  have htrivial : ∀ s : String, c ∈ s.toList → isTrivial s = false := by
    intro s hs
    rw [isTrivial, Bool.or_eq_false_iff, beq_eq_false_iff_ne, beq_eq_false_iff_ne]
    constructor
    · rintro rfl
      simp at hs
    · rintro rfl
      exact hdot (by simpa using hs)
  have hfilter : ∀ s, s ∈ p.segments ∧ c ∈ s.toList ↔
      s ∈ p.steps.map Component.segment ∧ c ∈ s.toList := by
    intro s
    rw [steps, ← filter_segments, List.mem_filter]
    constructor
    · rintro ⟨hmem, hs⟩
      exact ⟨⟨hmem, by rw [htrivial s hs]; rfl⟩, hs⟩
    · rintro ⟨⟨hmem, -⟩, hs⟩
      exact ⟨hmem, hs⟩
  rw [hsegs]
  constructor
  · rintro ⟨s, hs⟩
    obtain ⟨hmem, hc⟩ := (hfilter s).mp hs
    obtain ⟨step, hstep, rfl⟩ := List.mem_map.mp hmem
    exact ⟨step, hstep, hc⟩
  · rintro ⟨step, hstep, hc⟩
    exact ⟨step.segment, (hfilter _).mpr ⟨List.mem_map_of_mem hstep, hc⟩⟩

/-- The system refuses both spellings of a path or none, unless just one is too long. -/
theorem refusal?_eq_of_same {p q : Path} (h : p.Same q) (hfits : p.Fits ↔ q.Fits) :
    p.refusal? = q.refusal? := by
  have hempty : p.text = "" ↔ q.text = "" := by
    rw [text_eq_empty_iff, text_eq_empty_iff, h]
  have hnull : p.text.toList.contains '\x00' = q.text.toList.contains '\x00' := by
    rw [Bool.eq_iff_iff, List.contains_iff_mem, List.contains_iff_mem,
      mem_text_iff (by decide) (by decide), mem_text_iff (by decide) (by decide),
      (same_iff.mp h).2]
  have hlong : pathLimit < p.text.utf8ByteSize ↔ pathLimit < q.text.utf8ByteSize := by
    rw [← Nat.not_le, ← Nat.not_le]
    exact not_congr hfits
  rw [refusal?, refusal?, hnull]
  exact if_congr hempty rfl (if_congr Iff.rfl rfl (if_congr hlong rfl rfl))

end Path

/-! ## 2. Walks -/

namespace FileTree

variable {t : FileTree} {p p' : Path} {q : List String} {entries : List (String × Node)}

/-- What leads to a directory starts in one. -/
theorem exists_dir_of_walk (hq : t.root.get? q = some (.dir entries)) {place : List String}
    {segs : List String} (h : t.walk place segs = .ok q) :
    ∃ entries', t.root.get? place = some (.dir entries') := by
  cases segs with
  | nil =>
    rw [walk, Except.ok.injEq] at h
    exact ⟨entries, by rw [h, hq]⟩
  | cons s segs =>
    rw [walk, step] at h
    cases hplace : t.root.get? place with
    | none =>
      rw [hplace] at h
      cases h
    | some node =>
      cases node with
      | file content =>
        rw [hplace] at h
        cases h
      | dir entries' => exact ⟨entries', rfl⟩

theorem step_of_isTrivial {place : List String} {s : String}
    (hplace : t.root.get? place = some (.dir entries)) (hs : Path.isTrivial s = true) :
    t.step place s = .ok place := by
  rw [step, hplace]
  exact if_pos hs

/-- **Trivial segments make no difference on the way to a directory.** -/
theorem walk_eq_ok_iff (hq : t.root.get? q = some (.dir entries)) (place : List String)
    (segs : List String) :
    t.walk place segs = .ok q ↔
      t.walk place (segs.filter fun s => !Path.isTrivial s) = .ok q := by
  induction segs generalizing place with
  | nil => exact Iff.rfl
  | cons s segs ih =>
    cases hs : Path.isTrivial s with
    | true =>
      rw [List.filter_cons_of_neg (by simp [hs]), ← ih place]
      constructor
      · intro h
        obtain ⟨entries', hplace⟩ := exists_dir_of_walk hq h
        rw [walk, step_of_isTrivial hplace hs] at h
        exact h
      · intro h
        obtain ⟨entries', hplace⟩ := exists_dir_of_walk hq h
        rw [walk, step_of_isTrivial hplace hs]
        exact h
    | false =>
      rw [List.filter_cons_of_pos (by simp [hs]), walk, walk]
      cases t.step place s with
      | error e => exact Iff.rfl
      | ok next => exact ih next

/-- A walk that has come to a place goes on from there. -/
theorem walk_append_of_ok {place : List String} {segs : List String}
    (h : t.walk place segs = .ok q) (segs' : List String) :
    t.walk place (segs ++ segs') = t.walk q segs' := by
  induction segs generalizing place with
  | nil =>
    rw [walk, Except.ok.injEq] at h
    rw [List.nil_append, h]
  | cons s segs ih =>
    rw [walk] at h
    rw [List.cons_append, walk]
    cases hstep : t.step place s with
    | error e =>
      rw [hstep] at h
      cases h
    | ok next =>
      rw [hstep] at h
      exact ih h

/-! ## 3. Lookups of one path -/

theorem place_eq_ok_iff {place : List String} :
    t.place p = .ok place ↔ p.refusal? = none ∧ t.walk (t.start p) p.segments = .ok place := by
  rw [FileTree.place]
  cases p.refusal? with
  | none => simp
  | some e => simp

/-- The empty path leads nowhere. -/
theorem text_ne_empty_of_place (h : t.place p = .ok q) : p.text ≠ "" := by
  intro hempty
  have hrefusal := (place_eq_ok_iff.mp h).1
  rw [Path.refusal?, if_pos hempty] at hrefusal
  cases hrefusal

/-- A path leads to a directory when its walk ends in one. -/
theorem find_eq_dir_iff :
    t.find p = .ok (.dir entries) ↔
      ∃ q, t.place p = .ok q ∧ t.root.get? q = some (.dir entries) := by
  rw [find]
  cases t.place p with
  | error e => simp
  | ok place =>
    cases hnode : t.root.get? place with
    | none => simp [hnode]
    | some node => simp [hnode]

/-- **Both spellings of a path lead to the same directory**, if they lead to one. -/
theorem place_eq_ok_iff_of_same (h : p.Same p') (hp : p.Fits) (hp' : p'.Fits)
    (hq : t.root.get? q = some (.dir entries)) : t.place p = .ok q ↔ t.place p' = .ok q := by
  have hstart : t.start p = t.start p' := by rw [start, start, Path.isAbsolute_eq_of_same h]
  have hsteps : p.steps = p'.steps := (Path.same_iff.mp h).2
  rw [Path.steps, Path.steps] at hsteps
  rw [place_eq_ok_iff, place_eq_ok_iff, Path.refusal?_eq_of_same h (iff_of_true hp hp'), hstart,
    walk_eq_ok_iff hq _ p.segments, walk_eq_ok_iff hq _ p'.segments, Path.filter_segments,
    Path.filter_segments, hsteps]

theorem find_eq_dir_iff_of_same (h : p.Same p') (hp : p.Fits) (hp' : p'.Fits) :
    t.find p = .ok (.dir entries) ↔ t.find p' = .ok (.dir entries) := by
  rw [find_eq_dir_iff, find_eq_dir_iff]
  exact exists_congr fun q => and_congr_left fun hq => place_eq_ok_iff_of_same h hp hp' hq

theorem isDir_iff : t.isDir p = true ↔ ∃ entries, t.find p = .ok (.dir entries) := by
  rw [isDir]
  split
  · next entries hfind => simp [hfind]
  · next hnot =>
    simp only [Bool.false_eq_true, false_iff, not_exists]
    exact fun entries hfind => hnot entries hfind

theorem isDir_eq_of_same (h : p.Same p') (hp : p.Fits) (hp' : p'.Fits) :
    t.isDir p = t.isDir p' := by
  rw [Bool.eq_iff_iff, isDir_iff, isDir_iff]
  exact exists_congr fun entries => find_eq_dir_iff_of_same h hp hp'

/-! ## 4. Below a directory -/

/-- The path of an entry starts its walk where the directory's ends. -/
theorem walk_child (hplace : t.place p = .ok q) (hq : t.root.get? q = some (.dir entries))
    {name : String} (hname : Path.isAbsolute ⟨name⟩ = false) :
    t.walk (t.start (p.child name)) (p.child name).segments =
      t.walk q (Path.segments ⟨name⟩) := by
  have hwalk := (place_eq_ok_iff.mp hplace).2
  have htext := text_ne_empty_of_place hplace
  have hstart : t.start (p.child name) = t.start p := by
    have habs : (p.child name).isAbsolute = p.isAbsolute := by
      rw [Bool.eq_iff_iff, Path.isAbsolute_iff_lead_eq_root, Path.isAbsolute_iff_lead_eq_root,
        Path.child, Path.lead_join htext hname]
    rw [start, start, habs]
  obtain ⟨front, -, hfront, hsegs⟩ := Path.exists_segments_join htext hname
  have hfrontwalk : t.walk (t.start p) front = .ok q := by
    rcases hfront with hfront | hfront
    · rwa [hfront] at hwalk
    · -- the empty segment at the end stays where it is
      rw [walk_eq_ok_iff hq, hfront, List.filter_append] at hwalk
      have hempty : [""].filter (fun s => !Path.isTrivial s) = [] := rfl
      rwa [hempty, List.append_nil, ← walk_eq_ok_iff hq] at hwalk
  rw [hstart, Path.child, hsegs]
  exact walk_append_of_ok hfrontwalk _

/-- **The same names lead to the same nodes below both spellings of a directory.** -/
theorem find_child_of_same (h : p.Same p') (hp : p.Fits) (hp' : p'.Fits)
    (hdir : t.find p = .ok (.dir entries)) {name : String}
    (hchild : (p.child name).Fits ↔ (p'.child name).Fits) :
    t.find (p.child name) = t.find (p'.child name) := by
  cases hname : Path.isAbsolute ⟨name⟩ with
  | true =>
    have habs : ∀ r : Path, r.child name = ⟨name⟩ := fun r => by
      rw [Path.child, Path.join, hname, if_pos rfl]
    rw [habs, habs]
  | false =>
    obtain ⟨q, hplace, hq⟩ := find_eq_dir_iff.mp hdir
    have hplace' := (place_eq_ok_iff_of_same h hp hp' hq).mp hplace
    have hsame : (p.child name).Same (p'.child name) := by
      have hcomponents : p.components = p'.components := h
      rw [Path.Same, Path.child, Path.child,
        Path.components_join (text_ne_empty_of_place hplace) hname,
        Path.components_join (text_ne_empty_of_place hplace') hname, hcomponents]
    rw [find, find, FileTree.place, FileTree.place, walk_child hplace hq hname,
      walk_child hplace' hq hname, Path.refusal?_eq_of_same hsame hchild]

end FileTree

end GoResolver
