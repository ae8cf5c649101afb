import GoResolver.Proofs.FileTree.Lexical

/-!
# What writing leaves in place

Making directories and writing a file only add to a tree: what was found is found, and directories
stay directories (`FileTree.Extends`).  So a walk that succeeded still does, and it ends at the same
place (`Extends.walk_eq_ok`).

A file that was written is found again by its path (`find_of_writeText`).  The walk to it passes the
directories that were there when it was written, and its last segment names it: no file is written
under a segment that leads to a directory.
-/

namespace GoResolver

/-! ## 1. Putting a node into a tree -/

namespace Node

/-- Whether what is found at a place of a tree is found there in another, a directory as one. -/
structure Kept (found found' : Option Node) : Prop where
  dir : ∀ entries, found = some (.dir entries) → ∃ entries', found' = some (.dir entries')
  isSome : found.isSome = true → found'.isSome = true

theorem Kept.none (found' : Option Node) : Kept .none found' :=
  ⟨(fun _ h => by cases h), (fun h => by cases h)⟩

theorem Kept.refl (found : Option Node) : Kept found found :=
  ⟨fun entries h => ⟨entries, h⟩, fun h => h⟩

theorem Kept.of_dir (found : Option Node) (entries : List (String × Node)) :
    Kept found (some (.dir entries)) :=
  ⟨fun _ _ => ⟨entries, rfl⟩, fun _ => rfl⟩

/-- **Putting a node where there is no directory keeps what is found elsewhere.** -/
theorem kept_put {root : Node} {place : List String}
    (h : ∀ entries, root.get? place ≠ some (.dir entries)) (node : Node) (q : List String) :
    Kept (root.get? q) ((root.put place node).get? q) := by
  induction place generalizing root q with
  | nil =>
    cases root with
    | dir entries => exact absurd rfl (h entries)
    | file content =>
      cases q with
      | nil => exact ⟨(fun _ hdir => by cases hdir), fun _ => rfl⟩
      | cons name q => exact .none _
  | cons name place ih =>
    cases q with
    | nil =>
      -- whatever stands on the way becomes a directory
      exact .of_dir _ _
    | cons other q =>
      rw [put, get?, get?, entries.eq_1]
      by_cases hother : other = name
      · subst hother
        rw [lookup_setEntry_self]
        cases hchild : root.entries.lookup other with
        | none => exact .none _
        | some child =>
          refine ih (fun entries hentries => h entries ?_) q
          rw [get?, hchild]
          exact hentries
      · rw [lookup_setEntry_of_ne hother]
        exact .refl _

end Node

namespace FileTree

variable {t t' t'' : FileTree} {p : Path}

/-! ## 2. Trees that have more in them -/

/-- Whether a tree has everything that another one has, and its directories as directories. -/
structure Extends (t t' : FileTree) : Prop where
  cwd_eq : t'.cwd = t.cwd
  hasDir : ∀ {q}, t.HasDir q → t'.HasDir q
  found : ∀ {q}, (t.root.get? q).isSome = true → (t'.root.get? q).isSome = true

theorem Extends.refl (t : FileTree) : Extends t t := ⟨rfl, fun h => h, fun h => h⟩

theorem Extends.trans (h : Extends t t') (h' : Extends t' t'') : Extends t t'' where
  cwd_eq := h'.cwd_eq.trans h.cwd_eq
  hasDir hq := h'.hasDir (h.hasDir hq)
  found hq := h'.found (h.found hq)

/-- Putting a node where there is no directory adds to a tree. -/
theorem extends_put {place : List String} (h : ¬ t.HasDir place) (node : Node) :
    Extends t { t with root := t.root.put place node } where
  cwd_eq := rfl
  hasDir {q} := by
    rintro ⟨entries, hentries⟩
    exact (Node.kept_put (fun entries he => h ⟨entries, he⟩) node q).dir entries hentries
  found {q} := (Node.kept_put (fun entries he => h ⟨entries, he⟩) node q).isSome

/-- A step that succeeds in a tree succeeds in one that has more in it. -/
theorem Extends.step_eq_ok (h : Extends t t') {place next : List String} {s : String}
    (hstep : t.step place s = .ok next) : t'.step place s = .ok next := by
  rw [step] at hstep
  split at hstep
  · cases hstep
  · cases hstep
  · next entries hplace =>
    obtain ⟨entries', hplace'⟩ := h.hasDir ⟨entries, hplace⟩
    have hentry : (entries.lookup s).isSome = true → (entries'.lookup s).isSome = true := by
      rw [← Node.get?_concat hplace, ← Node.get?_concat hplace']
      exact h.found
    rw [step, hplace']
    dsimp only
    split at hstep
    · next htrivial => rw [if_pos htrivial, hstep]
    · next htrivial =>
      rw [if_neg htrivial]
      split at hstep
      · next hup => rw [if_pos hup, hstep]
      · next hup =>
        rw [if_neg hup]
        split at hstep
        · cases hstep
        · next hlimit =>
          rw [if_neg hlimit]
          split at hstep
          · next hfound => rw [if_pos (hentry hfound), hstep]
          · cases hstep

/-- **A walk that succeeds in a tree succeeds in one that has more in it.** -/
theorem Extends.walk_eq_ok (h : Extends t t') {place q segs : List String}
    (hwalk : t.walk place segs = .ok q) : t'.walk place segs = .ok q := by
  induction segs generalizing place with
  | nil => exact hwalk
  | cons s segs ih =>
    rw [walk] at hwalk ⊢
    split at hwalk
    · cases hwalk
    · next next hstep =>
      rw [h.step_eq_ok hstep]
      exact ih hwalk

/-- What leads somewhere in a tree leads to the same place in one that has more in it. -/
theorem Extends.place_eq_ok (h : Extends t t') {q : List String} (hplace : t.place p = .ok q) :
    t'.place p = .ok q := by
  rw [place_eq_ok_iff] at hplace ⊢
  have hstart : t'.start p = t.start p := by rw [start, start, h.cwd_eq]
  rw [hstart]
  exact ⟨hplace.1, h.walk_eq_ok hplace.2⟩

/-! ## 3. Making directories -/

/-- What one computation yields after another comes from what the other yields. -/
theorem exists_of_bind_eq_ok {ε α β : Type} {x : Except ε α} {f : α → Except ε β} {b : β}
    (h : (x >>= f) = .ok b) : ∃ a, x = .ok a ∧ f a = .ok b := by
  cases x with
  | error e => cases h
  | ok a => exact ⟨a, rfl, h⟩

/-- What a step can do: it leads to a directory, or its segment is too long, or it asks for an
entry. -/
theorem step_cases {place : List String} {entries : List (String × Node)}
    (hplace : t.root.get? place = some (.dir entries)) (s : String) :
    (∃ next, t.step place s = .ok next ∧ t.HasDir next) ∨
    t.step place s = .error .nameTooLong ∨
    (Path.component? s = some (.name s) ∧ s.utf8ByteSize ≤ nameLimit ∧
      t.step place s =
        if (entries.lookup s).isSome then .ok (place ++ [s]) else .error .notFound) := by
  have hdir : t.HasDir place := ⟨entries, hplace⟩
  cases hc : Path.component? s with
  | none =>
    have htrivial : Path.isTrivial s = true := Path.component?_eq_none_iff.mp hc
    exact .inl ⟨place, step_of_isTrivial hplace htrivial, hdir⟩
  | some c =>
    have htrivial : ¬ Path.isTrivial s = true := by
      rw [← Path.component?_eq_none_iff, hc]
      exact Option.some_ne_none c
    by_cases hup : s = ".."
    · refine .inl ⟨place.dropLast, ?_, hdir.of_prefix (List.dropLast_prefix place)⟩
      rw [step, hplace]
      dsimp only
      rw [if_neg htrivial, if_pos hup]
    · have hname : Path.component? s = some (.name s) := by
        rw [Path.component?, if_neg htrivial, if_neg hup]
      by_cases hlimit : s.utf8ByteSize ≤ nameLimit
      · exact .inr (.inr ⟨hc ▸ hname, hlimit, step_name hplace hname hlimit⟩)
      · refine .inr (.inl ?_)
        rw [step, hplace]
        dsimp only
        rw [if_neg htrivial, if_neg hup, if_pos (Nat.lt_of_not_le hlimit)]

/-- A step that finds nothing asks for an entry that the directory does not have. -/
theorem of_step_eq_notFound {place : List String} {entries : List (String × Node)} {s : String}
    (hplace : t.root.get? place = some (.dir entries))
    (h : t.step place s = .error .notFound) :
    Path.component? s = some (.name s) ∧ s.utf8ByteSize ≤ nameLimit ∧ entries.lookup s = none := by
  rcases step_cases hplace s with ⟨next, hnext, -⟩ | hlong | ⟨hname, hlimit, hentry⟩
  · rw [hnext] at h
    cases h
  · rw [hlong] at h
    cases h
  · rw [hentry] at h
    split at h
    · cases h
    · next hnone => exact ⟨hname, hlimit, Option.not_isSome_iff_eq_none.mp hnone⟩

theorem not_hasDir_of_step {place : List String} {s : String}
    (h : t.step place s = .error .notFound) : ¬ t.HasDir (place ++ [s]) := by
  rintro ⟨found, hfound⟩
  obtain ⟨entries, hplace⟩ := Node.exists_dir_of_get?_append (List.cons_ne_nil s []) hfound
  rw [Node.get?_concat hplace, (of_step_eq_notFound hplace h).2.2] at hfound
  cases hfound

theorem extends_of_makeDir (h : t.makeDir p = .ok t') : Extends t t' := by
  rw [makeDir] at h
  split at h
  · cases h
  · cases h
  · next above name _ _ =>
    obtain ⟨place, -, h⟩ := exists_of_bind_eq_ok h
    split at h
    · cases h
    · next hstep =>
      rw [← Except.ok.inj h]
      exact extends_put (not_hasDir_of_step hstep) _
    · cases h

theorem extends_of_ensureDir (h : t.ensureDir p = .ok t') : Extends t t' := by
  rw [ensureDir] at h
  split at h
  · next t₁ hmake =>
    rw [← Except.ok.inj h]
    exact extends_of_makeDir hmake
  · split at h
    · rw [← Except.ok.inj h]
      exact .refl t
    · cases h

theorem extends_of_makeDirs_go {chain : List Path} (h : makeDirs.go t chain = .ok t') :
    Extends t t' := by
  induction chain generalizing t' with
  | nil =>
    rw [makeDirs.go] at h
    rw [← Except.ok.inj h]
    exact .refl t
  | cons p above ih =>
    rw [makeDirs.go] at h
    split at h
    · rw [← Except.ok.inj h]
      exact .refl t
    · split at h
      · next t₁ hmake =>
        rw [← Except.ok.inj h]
        exact extends_of_makeDir hmake
      · obtain ⟨t₁, habove, hensure⟩ := exists_of_bind_eq_ok h
        exact (ih habove).trans (extends_of_ensureDir hensure)
      · split at h
        · rw [← Except.ok.inj h]
          exact .refl t
        · cases h

/-- **Making directories adds to a tree.** -/
theorem extends_of_makeDirs (h : t.makeDirs p = .ok t') : Extends t t' :=
  extends_of_makeDirs_go h

/-! ## 4. Writing a file -/

/-- A step is taken in a directory, and leads to a directory or to an entry. -/
theorem of_step_eq_ok {place next : List String} {s : String} (h : t.step place s = .ok next) :
    ∃ entries, t.root.get? place = some (.dir entries) ∧
      (t.HasDir next ∨
        Path.component? s = some (.name s) ∧ s.utf8ByteSize ≤ nameLimit ∧
          next = place ++ [s] ∧ (entries.lookup s).isSome = true) := by
  obtain ⟨entries, hplace⟩ : t.HasDir place := by
    rw [step] at h
    split at h
    · cases h
    · cases h
    · next entries hplace => exact ⟨entries, hplace⟩
  refine ⟨entries, hplace, ?_⟩
  rcases step_cases hplace s with ⟨found, hfound, hdir⟩ | hlong | ⟨hname, hlimit, hentry⟩
  · rw [hfound] at h
    exact .inl (Except.ok.inj h ▸ hdir)
  · rw [hlong] at h
    cases h
  · rw [hentry] at h
    split at h
    · next hsome => exact .inr ⟨hname, hlimit, (Except.ok.inj h).symm, hsome⟩
    · cases h

theorem isSome_of_step {place next : List String} {s : String} (h : t.step place s = .ok next) :
    (t.root.get? next).isSome = true := by
  obtain ⟨entries, hplace, ⟨entries', hdir⟩ | ⟨-, -, rfl, hentry⟩⟩ := of_step_eq_ok h
  · rw [hdir]
    rfl
  · rwa [Node.get?_concat hplace]

theorem isSome_of_walk {place q : List String} {segs : List String}
    (hplace : (t.root.get? place).isSome = true) (h : t.walk place segs = .ok q) :
    (t.root.get? q).isSome = true := by
  induction segs generalizing place with
  | nil =>
    rw [walk] at h
    rwa [← Except.ok.inj h]
  | cons s segs ih =>
    rw [walk] at h
    split at h
    · cases h
    · next next hstep => exact ih (isSome_of_step hstep) h

/-- In the directory at `place` a file can stand under `name`. -/
structure IsFree (t : FileTree) (place : List String) (name : String) : Prop where
  dir : t.HasDir place
  component?_eq : Path.component? name = some (.name name)
  limit : name.utf8ByteSize ≤ nameLimit
  noDir : ¬ t.HasDir (place ++ [name])

theorem isFree_of_step_notFound {place : List String} {s : String}
    (hplace : (t.root.get? place).isSome = true) (h : t.step place s = .error .notFound) :
    t.IsFree place s := by
  obtain ⟨entries, hentries⟩ : t.HasDir place := by
    rw [step] at h
    split at h
    · next hnone =>
      rw [hnone] at hplace
      cases hplace
    · cases h
    · next entries hentries => exact ⟨entries, hentries⟩
  obtain ⟨hname, hlimit, -⟩ := of_step_eq_notFound hentries h
  exact ⟨⟨entries, hentries⟩, hname, hlimit, not_hasDir_of_step h⟩

theorem isFree_of_step_file {place found : List String} {s : String} {content : Content}
    (h : t.step place s = .ok found) (hfile : t.root.get? found = some (.file content)) :
    found = place ++ [s] ∧ t.IsFree place s := by
  have hnoDir : ¬ t.HasDir found := by
    rintro ⟨entries, hentries⟩
    rw [hfile] at hentries
    cases hentries
  obtain ⟨entries, hplace, hdir | ⟨hname, hlimit, rfl, -⟩⟩ := of_step_eq_ok h
  · exact absurd hdir hnoDir
  · exact ⟨rfl, ⟨entries, hplace⟩, hname, hlimit, hnoDir⟩

/-- The target of a path that does not end in a slash is its last segment. -/
theorem exists_segments_of_target {above : List String} {name : String}
    (htarget : target p = (above, some name)) (hlast : p.text.toList.getLast? ≠ some '/')
    (htext : p.text ≠ "") : p.segments = above ++ [name] := by
  obtain h | ⟨front, last, hsegs⟩ := List.eq_nil_or_concat p.segments
  · exact absurd h p.segments_ne_nil
  · rw [List.concat_eq_append] at hsegs
    have hlastSegment : ¬ (last == "") = true := by
      rw [beq_iff_eq]
      rintro rfl
      have hslashed := p.slashed_segments
      rw [hsegs] at hslashed
      cases front with
      | nil => exact htext hslashed.symm
      | cons s front =>
        rw [Path.slashed_append (List.cons_ne_nil s front) (List.cons_ne_nil "" [])] at hslashed
        refine hlast ?_
        rw [← hslashed]
        simp [Path.slashed]
    rw [target, hsegs, List.reverse_append, List.reverse_singleton, List.singleton_append,
      List.dropWhile_cons_of_neg (p := (· == "")) hlastSegment, List.reverse_cons,
      List.reverse_reverse, List.dropLast_concat, List.getLast?_concat, Prod.mk.injEq,
      Option.some_inj] at htarget
    rw [hsegs, htarget.1, htarget.2]

/-- **What writing a file does**: it puts the file under the last segment of its path, into the
directory that the other segments lead to. -/
theorem exists_put_of_writeText {text : String} (hstart : (t.root.get? (t.start p)).isSome = true)
    (h : t.writeText p text = .ok t') :
    p.refusal? = none ∧ ∃ above name place,
      p.segments = above ++ [name] ∧ t.walk (t.start p) above = .ok place ∧ t.IsFree place name ∧
        t' = { t with root := t.root.put (place ++ [name]) (.file (.text text)) } := by
  rw [writeText] at h
  split at h
  · cases h
  · cases h
  · next above name hrefusal htarget =>
    refine ⟨hrefusal, ?_⟩
    obtain ⟨place, hwalk, h⟩ := exists_of_bind_eq_ok h
    have hplace := isSome_of_walk hstart hwalk
    split at h
    · cases h
    · split at h
      · cases h
      · next hlast =>
        have hsegs := exists_segments_of_target htarget hlast (refusal?_eq_none_iff.mp hrefusal).1
        split at h
        · next hstep =>
          exact ⟨above, name, place, hsegs, hwalk, isFree_of_step_notFound hplace hstep,
            (Except.ok.inj h).symm⟩
        · cases h
        · next found hstep =>
          split at h
          · next content hfile =>
            obtain ⟨hfound, hfree⟩ := isFree_of_step_file hstep hfile
            exact ⟨above, name, place, hsegs, hwalk, hfree, by rw [← hfound, Except.ok.inj h]⟩
          · cases h

/-- **A file that was written is found again**, with what was written. -/
theorem find_of_writeText {text : String} (hstart : (t.root.get? (t.start p)).isSome = true)
    (h : t.writeText p text = .ok t') :
    Extends t t' ∧ t'.find p = .ok (.file (.text text)) := by
  obtain ⟨hrefusal, above, name, place, hsegs, hwalk, hfree, rfl⟩ :=
    exists_put_of_writeText hstart h
  have hextends := extends_put hfree.noDir (.file (.text text))
  refine ⟨hextends, ?_⟩
  set t' : FileTree := { t with root := t.root.put (place ++ [name]) (.file (.text text)) } with ht'
  have hfile : t'.root.get? (place ++ [name]) = some (.file (.text text)) :=
    Node.get?_put_self t.root _ _
  obtain ⟨entries, hentries⟩ := hextends.hasDir hfree.dir
  have hentry : (entries.lookup name).isSome = true := by
    rw [← Node.get?_concat hentries, hfile]
    rfl
  have hplace : t'.place p = .ok (place ++ [name]) := by
    rw [place_eq_ok_iff]
    refine ⟨hrefusal, ?_⟩
    have hstart' : t'.start p = t.start p := rfl
    rw [hsegs, hstart', walk_append_of_ok (hextends.walk_eq_ok hwalk), walk,
      step_name hentries hfree.component?_eq hfree.limit, if_pos hentry]
    rfl
  exact find_eq_ok_iff.mpr ⟨place ++ [name], hplace, hfile⟩

end FileTree

end GoResolver
