import GoResolver.FileTree
import Mathlib.Data.List.Infix

/-!
# Source files that can be read

Reading a file fails when its bytes are no text.  This module is about trees in which no source file
is of that kind, and it says what that means for a lookup by path: a path that ends in `.go` and
leads to a file leads to a text (`FileTree.exists_readText_eq`).

The condition is on the tree and speaks of entries; the path is a text that need not look like the
entries it leads to.  Between the two stands the walk.  Its last step goes to the entry that the
path's last segment names, for that segment ends in `.go` as well and so is no `..` and not trivial
(`FileTree.exists_walk_eq`).
-/

namespace GoResolver

/-- The ending of a source file's name. -/
def sourceEnding : List Char := ".go".toList

/-- Every source file in a tree holds text. -/
inductive Node.SourcesAreText : Node → Prop where
  | file (content : Content) : SourcesAreText (.file content)
  | dir (entries : List (String × Node))
      (inside : ∀ e ∈ entries, e.2.SourcesAreText)
      (here : ∀ e ∈ entries, sourceEnding <:+ e.1.toList → e.2 ≠ .file .bytes) :
      SourcesAreText (.dir entries)

/-! ## 1. Entries -/

namespace Node

variable {node found : Node}

@[simp] theorem sourcesAreText_file (content : Content) : (Node.file content).SourcesAreText :=
  .file content

@[simp] theorem sourcesAreText_dir {entries : List (String × Node)} :
    (Node.dir entries).SourcesAreText ↔ ∀ e ∈ entries, e.2.SourcesAreText ∧
      (sourceEnding <:+ e.1.toList → e.2 ≠ .file .bytes) := by
  constructor
  · rintro (_ | ⟨_, inside, here⟩)
    exact fun e he => ⟨inside e he, here e he⟩
  · exact fun h => .dir entries (fun e he => (h e he).1) fun e he => (h e he).2

/-- What a name is found to have is an entry, with the facts about entries. -/
theorem SourcesAreText.entry (h : node.SourcesAreText) {name : String}
    (hfound : node.entries.lookup name = some found) :
    found.SourcesAreText ∧ (sourceEnding <:+ name.toList → found ≠ .file .bytes) := by
  obtain ⟨before, after, hentries, -⟩ := List.lookup_eq_some_iff.mp hfound
  have hmem : (name, found) ∈ node.entries := by
    rw [hentries]
    exact List.mem_append_right before List.mem_cons_self
  cases node with
  | file content => cases hmem
  | dir entries => exact sourcesAreText_dir.mp h _ hmem

/-- A place in the tree whose last name is a source file's holds no other bytes than text. -/
theorem SourcesAreText.ne_bytes (h : node.SourcesAreText) {above : List String} {name : String}
    (hname : sourceEnding <:+ name.toList) :
    node.get? (above ++ [name]) ≠ some (.file .bytes) := by
  induction above generalizing node with
  | nil =>
    intro hfound
    rw [List.nil_append, Node.get?] at hfound
    split at hfound
    · cases hfound
    · next child hchild =>
      rw [Node.get?, Option.some_inj] at hfound
      exact (h.entry hchild).2 hname hfound
  | cons first above ih =>
    intro hfound
    rw [List.cons_append, Node.get?] at hfound
    split at hfound
    · cases hfound
    · next child hchild => exact ih (h.entry hchild).1 hfound

end Node

/-! ## 2. The end of a walk -/

namespace Path

/-- Behind the last slash of a path stands what the path ends in. -/
theorem exists_segments_eq {p : Path} {ending : List Char} (hslash : '/' ∉ ending)
    (h : ending <:+ p.text.toList) :
    ∃ front last, p.segments = front ++ [last] ∧ ending <:+ last.toList := by
  obtain ⟨stem, hstem⟩ := h
  have hpieces : ∀ s : List Char, ∃ front last,
      Text.pieces '/' (s ++ ending) = front ++ [last] ∧ ending <:+ last := by
    intro s
    induction s with
    | nil => exact ⟨[], ending, Text.pieces_of_not_mem hslash, List.suffix_refl _⟩
    | cons c s ih =>
      obtain ⟨front, last, hlast, hending⟩ := ih
      rw [List.cons_append, Text.pieces, hlast]
      by_cases hc : c = '/'
      · exact ⟨[] :: front, last, by rw [if_pos hc, List.cons_append], hending⟩
      · rw [if_neg hc]
        cases front with
        | nil => exact ⟨[], c :: last, rfl, hending.trans (List.suffix_cons c last)⟩
        | cons piece front => exact ⟨(c :: piece) :: front, last, rfl, hending⟩
  obtain ⟨front, last, hlast, hending⟩ := hpieces stem
  refine ⟨front.map String.ofList, String.ofList last, ?_, ?_⟩
  · rw [segments, ← hstem, hlast, List.map_append, List.map_singleton]
  · rwa [String.toList_ofList]

/-- The path of an entry ends in the entry's name. -/
theorem suffix_text_child (dir : Path) (name : String) :
    name.toList <:+ (dir.child name).text.toList := by
  rw [child, join]
  split
  · exact List.suffix_refl _
  · split
    · rw [String.toList_append]
      exact List.suffix_append _ _
    · rw [String.toList_append]
      exact List.suffix_append _ _

end Path

namespace FileTree

variable {t : FileTree}

/-- The last segment of a walk, when it is a name, is the last name of the place that is reached. -/
theorem exists_walk_eq {front : List String} {last : String} {place place' : List String}
    (htrivial : Path.isTrivial last = false) (hup : last ≠ "..")
    (h : t.walk place (front ++ [last]) = .ok place') : ∃ above, place' = above ++ [last] := by
  induction front generalizing place with
  | nil =>
    rw [List.nil_append, walk] at h
    split at h
    · cases h
    · next next hstep =>
      have hnext : next = place' := by
        rw [walk, Except.ok.injEq] at h
        exact h
      rw [step] at hstep
      split at hstep
      · cases hstep
      · cases hstep
      · rw [htrivial, if_neg Bool.false_ne_true, if_neg hup] at hstep
        split at hstep
        · cases hstep
        · split at hstep
          · exact ⟨place, by rw [← hnext, Except.ok.inj hstep]⟩
          · cases hstep
  | cons segment front ih =>
    rw [List.cons_append, walk] at h
    split at h
    · cases h
    · exact ih h

/-- A text that ends like a source file's name is the name of an entry. -/
theorem not_isTrivial_of_sourceEnding {s : String} (h : sourceEnding <:+ s.toList) :
    Path.isTrivial s = false ∧ s ≠ ".." := by
  have hne : ∀ s' : String, s'.toList.length < 3 → s ≠ s' := by
    rintro s' hlength rfl
    have hle : 3 ≤ s.toList.length := h.length_le
    omega
  have hempty : s ≠ "" := hne "" (by decide)
  have hhere : s ≠ "." := hne "." (by decide)
  exact ⟨by simp [Path.isTrivial, hempty, hhere], hne ".." (by decide)⟩

/-- **A path that ends like a source file's name and leads to a file leads to a text.** -/
theorem exists_readText_eq {p : Path} (ht : t.root.SourcesAreText)
    (hending : sourceEnding <:+ p.text.toList) (hfile : t.isFile p = true) :
    ∃ source, t.readText p = .ok source := by
  rw [isFile] at hfile
  split at hfile
  · next content hfind =>
    rw [readText, hfind]
    cases content with
    | text source => exact ⟨source, rfl⟩
    | bytes =>
      -- the place that was found ends in the name of a source file
      obtain ⟨front, last, hsegs, hlast⟩ := Path.exists_segments_eq (by decide) hending
      obtain ⟨htrivial, hup⟩ := not_isTrivial_of_sourceEnding hlast
      rw [find] at hfind
      split at hfind
      · cases hfind
      · next place hplace =>
        rw [FileTree.place] at hplace
        split at hplace
        · cases hplace
        · rw [hsegs] at hplace
          obtain ⟨above, rfl⟩ := exists_walk_eq htrivial hup hplace
          split at hfind
          · next node hnode =>
            rw [Except.ok.inj hfind] at hnode
            exact absurd hnode (ht.ne_bytes hlast)
          · cases hfind
  · cases hfile

end FileTree

end GoResolver
