import GoResolver.Proofs.Text.Lines
import GoResolver.Proofs.Toml.Drafts
import GoResolver.Proofs.Toml.Values

/-!
# Documents are read back

The text of a plain draft is read as the entries of the draft (`parse?_text`).

1. One line at a time: a line with a field is read as an entry, and the two lines of a header as a
   header (`lines?_entryLine`, `lines?_headerLines`).
2. All lines: a header takes over the entries that follow it, so the lines are read from the last
   one (`lines?_tables`).
3. The table: no name occurs twice, so no entry and no section finds anything in its place.

Names are written without quotes, which is right for names that are made of letters, digits,
underscores and hyphens (`IsBareName`).
-/

namespace GoResolver.Toml

/-- What is written for a value is read as the value. -/
theorem Datum.readsAs {d : Datum} (h : d.Fits) : ReadsAs d.chars d.value := by
  cases d with
  | text s => exact readsAs_stringText s
  | natural n => exact readsAs_naturalText h
  | truth b => exact readsAs_booleanText b
  | texts items => exact readsAs_stringsText items

/-! ## 1. Lines -/

/-- A bare name starts with a character that no line without a name starts with. -/
theorem IsBareName.exists_cons {name : String} (h : IsBareName name) :
    ∃ c cs, name.toList = c :: cs ∧ isBare c = true := by
  obtain ⟨c, cs, hname⟩ := List.exists_cons_of_ne_nil h.1
  have hbare := h.2
  rw [hname, List.all_cons, Bool.and_eq_true] at hbare
  exact ⟨c, cs, hname, hbare.1⟩

theorem isBlank_of_isBare {c : Char} (h : isBare c = true) : isBlank c = false := by
  rw [isBlank, Bool.or_eq_false_iff, beq_eq_false_iff_ne, beq_eq_false_iff_ne]
  constructor <;>
  · rintro rfl
    exact absurd h (by decide)

theorem skipBlanks_cons {c : Char} (h : isBlank c = false) (s : List Char) :
    skipBlanks (c :: s) = c :: s := by
  rw [skipBlanks, List.dropWhile_cons_of_neg (by rw [h]; exact Bool.false_ne_true)]

/-- A bare name is read up to the next character that is not bare. -/
theorem name?_append {name : String} (h : IsBareName name) {c : Char} (hc : isBare c = false)
    (s : List Char) : name? (name.toList ++ c :: s) = some (name, c :: s) := by
  have hall : ∀ d ∈ name.toList, isBare d = true := List.all_eq_true.mp h.2
  obtain ⟨htake, hdrop⟩ := Text.takeWhile_append_of_stops hall
    (r := c :: s) fun d hd => by rw [← Option.some_inj.mp hd, hc]
  unfold name?
  rw [htake, hdrop]
  split
  · next hnil => exact absurd hnil h.1
  · rw [String.ofList_toList]

/-- A bare name that no point follows is a key. -/
theorem key?_append {name : String} (h : IsBareName name) {c : Char} (hc : isBare c = false)
    {s r : List Char} {d : Char} (hskip : skipBlanks (c :: s) = d :: r) (hd : d ≠ '.') :
    key? (name.toList ++ c :: s) = some ({ name }, d :: r) := by
  obtain ⟨first, cs, hname, hbare⟩ := h.exists_cons
  have hread := name?_append h hc s
  rw [hname, List.cons_append] at hread ⊢
  rw [key?, maxParts, keyFrom?, skipBlanks_cons (isBlank_of_isBare hbare), hread,
    Option.bind_eq_bind, Option.bind_some]
  dsimp only
  rw [hskip]
  split
  · next h => exact absurd (List.cons.inj h).1 hd
  · rfl

section

variable {name : String} (h : IsBareName name) {text : List Char} {v : Value}
  (hv : ReadsAs text v)
include h hv

theorem entry?_entryLine (rest : List Char) :
    entry? (value? maxNesting) (entryLine name text ++ rest) =
      some (({ name }, v), '\n' :: rest) := by
  have hline : entryLine name text ++ rest =
      name.toList ++ ' ' :: ('=' :: ' ' :: (text ++ '\n' :: rest)) := by
    simp [entryLine]
  have hskip : skipBlanks (' ' :: (text ++ '\n' :: rest)) = text ++ '\n' :: rest := by
    rw [skipBlanks, List.dropWhile_cons_of_pos rfl]
    cases htext : text with
    | nil => rfl
    | cons c cs =>
      have hblank : isBlank c = false := hv.not_blank c (by rw [htext]; rfl)
      exact skipBlanks_cons hblank _
  unfold entry?
  rw [hline, key?_append h (by decide) rfl (by decide), Option.bind_eq_bind, Option.bind_some]
  show (value? maxNesting (skipBlanks (' ' :: (text ++ '\n' :: rest)))).bind _ = _
  rw [hskip, hv.value_eq]
  rfl

theorem line?_entryLine (rest : List Char) :
    line? (entryLine name text ++ rest) = some (.entry ({ name }, v), '\n' :: rest) := by
  obtain ⟨c, cs, hname, hbare⟩ := h.exists_cons
  have hentry := entry?_entryLine h hv rest
  obtain ⟨s, hs⟩ : ∃ s, entryLine name text ++ rest = c :: s :=
    ⟨_, by rw [entryLine, hname]; rfl⟩
  have hne : ∀ d, isBare d = false → c ≠ d := by
    rintro d hd rfl
    rw [hbare] at hd
    cases hd
  rw [hs] at hentry ⊢
  unfold line?
  rw [skipBlanks_cons (isBlank_of_isBare hbare)]
  split
  · next h => cases h
  · next h => exact absurd (List.cons.inj h).1 (hne '[' (by decide))
  · next h => exact absurd (List.cons.inj h).1 (hne '[' (by decide))
  · next d r _ _ h =>
    obtain ⟨rfl, rfl⟩ := List.cons.inj h
    have hblank : ¬ (c = '#' ∨ c = '\n' ∨ c = '\r') := by
      rw [not_or, not_or]
      exact ⟨hne '#' (by decide), hne '\n' (by decide), hne '\r' (by decide)⟩
    rw [if_neg hblank, hentry]
    rfl

end

/-- A line is read in front of those that follow it. -/
theorem lines?_of_line? {s r rest : List Char} {l : Line} (hs : s ≠ [])
    (hline : line? s = some (l, r)) (hrest : skipLine? r = some rest) (fuel : Nat) :
    lines? (fuel + 1) s = (lines? fuel rest).map fun d => d.withLine l := by
  rw [lines?]
  · rw [hline]
    show (skipLine? r).bind _ = _
    rw [hrest]
    show (lines? fuel rest).bind _ = _
    cases lines? fuel rest with
    | none => rfl
    | some d => rfl
  · exact hs

/-- **A line with an entry is read as the entry.** -/
theorem lines?_entryLine {name : String} (h : IsBareName name) {text : List Char} {v : Value}
    (hv : ReadsAs text v) (fuel : Nat) (rest : List Char) :
    lines? (fuel + 1) (entryLine name text ++ rest) =
      (lines? fuel rest).map fun d => d.withEntry ({ name }, v) :=
  lines?_of_line? (by simp [entryLine]) (line?_entryLine h hv rest) rfl fuel

/-- **An empty line and a line with a header are read as the header.** -/
theorem lines?_headerLines {name : String} (h : IsBareName name) (fuel : Nat) (rest : List Char) :
    lines? (fuel + 2) (headerLines name ++ rest) =
      (lines? fuel rest).map fun d => d.withHeader false { name } := by
  have htext : headerLines name ++ rest = '\n' :: '[' :: (name.toList ++ ']' :: '\n' :: rest) := by
    simp [headerLines]
  have hline : line? ('[' :: (name.toList ++ ']' :: '\n' :: rest)) =
      some (.header false { name }, '\n' :: rest) := by
    obtain ⟨c, cs, hname, hbare⟩ := h.exists_cons
    have hkey := key?_append h (c := ']') (by decide) (skipBlanks_cons (by decide) ('\n' :: rest))
      (by decide)
    have hbracket : c ≠ '[' := by
      rintro rfl
      exact absurd hbare (by decide)
    rw [hname, List.cons_append] at hkey ⊢
    unfold line?
    rw [skipBlanks_cons (by decide)]
    split
    · next h => cases h
    · next h => exact absurd (List.cons.inj (List.cons.inj h).2).1 hbracket
    · next r _ h =>
      rw [← (List.cons.inj h).2, hkey, Option.bind_eq_bind, Option.bind_some]
      rfl
    · next hnot h =>
      obtain ⟨rfl, rfl⟩ := List.cons.inj h
      exact (hnot rfl).elim
  have hblank : line? ('\n' :: '[' :: (name.toList ++ ']' :: '\n' :: rest)) =
      some (.blank, '\n' :: '[' :: (name.toList ++ ']' :: '\n' :: rest)) := rfl
  rw [htext, lines?_of_line? (by simp) hblank rfl, lines?_of_line? (by simp) hline rfl]
  cases lines? fuel rest with
  | none => rfl
  | some d => rfl

/-! ## 2. Documents -/

/-- Entries with the names as keys. -/
def keyed (entries : List (String × Value)) : List (Key × Value) :=
  entries.map fun e => ({ name := e.1 }, e.2)

/-- The sections of tables. -/
def sectionsOf (tables : List (String × List Field)) : List Section :=
  tables.map fun t => ⟨false, { name := t.1 }, keyed (entriesOf t.2)⟩

/-- The document that a draft is written as. -/
def Draft.document (d : Draft) : Document where
  preamble := keyed (entriesOf d.fields)
  sections := sectionsOf d.tables

/-- The lines of fields are read in front of those that follow them. -/
theorem lines?_fieldLines {fields : List Field} (h : PlainFields fields) (fuel : Nat)
    (rest : List Char) :
    lines? (fields.length + fuel) (fieldLines fields ++ rest) =
      (lines? fuel rest).map fun d =>
        { d with preamble := keyed (entriesOf fields) ++ d.preamble } := by
  induction fields with
  | nil =>
    rw [List.length_nil, Nat.zero_add]
    show lines? fuel rest = _
    cases lines? fuel rest with
    | none => rfl
    | some d => rfl
  | cons f fields ih =>
    have hlength : (f :: fields).length + fuel = fields.length + fuel + 1 := by
      rw [List.length_cons]
      omega
    have hlines : fieldLines (f :: fields) ++ rest =
        entryLine f.1 f.2.chars ++ (fieldLines fields ++ rest) := by
      rw [fieldLines, List.flatMap_cons, List.append_assoc, fieldLines]
    rw [hlength, hlines, lines?_entryLine h.head.1 (Datum.readsAs h.head.2), ih h.tail]
    cases lines? fuel rest with
    | none => rfl
    | some d => rfl

/-- How many lines tables have. -/
def lineCount : List (String × List Field) → Nat
  | [] => 0
  | t :: tables => t.2.length + 2 + lineCount tables

/-- The lines of tables. -/
def tableLines (tables : List (String × List Field)) : List Char :=
  tables.flatMap fun t => headerLines t.1 ++ fieldLines t.2

/-- The lines of tables are read to the end of the text. -/
theorem lines?_tables {tables : List (String × List Field)}
    (h : ∀ t ∈ tables, IsBareName t.1 ∧ PlainFields t.2) {fuel : Nat}
    (hfuel : lineCount tables ≤ fuel) :
    lines? fuel (tableLines tables) = some { sections := sectionsOf tables } := by
  induction tables generalizing fuel with
  | nil => cases fuel <;> rfl
  | cons t tables ih =>
    obtain ⟨⟨hname, hfields⟩, hrest⟩ := List.forall_mem_cons.mp h
    rw [lineCount] at hfuel
    obtain ⟨more, rfl⟩ := Nat.exists_eq_add_of_le hfuel
    have hlines := ih hrest (Nat.le_add_right (lineCount tables) more)
    have hcount : t.2.length + 2 + lineCount tables + more =
        t.2.length + (lineCount tables + more) + 2 := by omega
    have htext : tableLines (t :: tables) =
        headerLines t.1 ++ (fieldLines t.2 ++ tableLines tables) := by
      rw [tableLines, List.flatMap_cons, List.append_assoc, tableLines]
    rw [hcount, htext, lines?_headerLines hname, lines?_fieldLines hfields, hlines]
    simp [sectionsOf, Document.withHeader]

/-- A document has at least as many characters as lines. -/
theorem length_le_length_fieldLines (fields : List Field) :
    fields.length ≤ (fieldLines fields).length := by
  induction fields with
  | nil => exact Nat.le_refl 0
  | cons f fields ih =>
    have hline : 1 ≤ (entryLine f.1 f.2.chars).length := by
      rw [entryLine, List.length_append, List.length_singleton]
      omega
    rw [fieldLines] at ih ⊢
    rw [List.flatMap_cons, List.length_append, List.length_cons]
    omega

theorem lineCount_le (tables : List (String × List Field)) :
    lineCount tables ≤ (tableLines tables).length := by
  induction tables with
  | nil => exact Nat.le_refl 0
  | cons t tables ih =>
    have hfields := length_le_length_fieldLines t.2
    have hheader : 2 ≤ (headerLines t.1).length := by
      rw [headerLines, List.cons_append, List.length_cons, List.length_append]
      simp only [List.length_cons, List.length_nil]
      omega
    rw [tableLines] at ih ⊢
    rw [lineCount, List.flatMap_cons, List.length_append, List.length_append]
    omega

/-- No byte-order mark stands in front of a document. -/
theorem dropMark_chars {d : Draft} (h : d.IsPlain) : dropMark d.chars = d.chars := by
  have hhead : ∀ c ∈ d.chars.head?, c ≠ '\ufeff' := by
    rw [Draft.chars]
    cases hfields : d.fields with
    | nil =>
      cases d.tables with
      | nil => exact fun c hc => by cases hc
      | cons t tables =>
        intro c hc
        have hfeed : c = '\n' := (Option.mem_some_iff.mp hc).symm
        rw [hfeed]
        decide
    | cons f fields =>
      have hbareName : IsBareName f.1 := h.fields.bare f (hfields ▸ List.mem_cons_self)
      obtain ⟨c, cs, htext, hbare⟩ := hbareName.exists_cons
      intro d hd
      rw [fieldLines, List.flatMap_cons, entryLine, htext] at hd
      rw [← Option.mem_some_iff.mp hd]
      rintro rfl
      exact absurd hbare (by decide)
  unfold dropMark
  split
  · next s hs =>
    rw [hs] at hhead
    exact absurd rfl (hhead _ rfl)
  · rfl

/-- **The text of a draft is read as its document.** -/
theorem read?_text {d : Draft} (h : d.IsPlain) : Document.read? d.text = some d.document := by
  have hchars : d.chars = fieldLines d.fields ++ tableLines d.tables := rfl
  have hcount : d.fields.length + lineCount d.tables ≤ d.chars.length := by
    have hfields := length_le_length_fieldLines d.fields
    have htables := lineCount_le d.tables
    rw [hchars, List.length_append]
    omega
  obtain ⟨more, hmore⟩ := Nat.exists_eq_add_of_le hcount
  rw [Document.read?, Draft.text, String.toList_ofList, dropMark_chars h, hmore, Nat.add_assoc,
    hchars, lines?_fieldLines h.fields, lines?_tables h.tables (Nat.le_add_right _ _),
    Option.map_some]
  simp [Draft.document]

/-! ## 3. Tables -/

/-- What stands behind a list of different names is not one of them. -/
theorem not_mem_of_nodup_append_cons {names more : List String} {name : String}
    (h : (names ++ name :: more).Nodup) : name ∉ names := fun hmem =>
  (List.nodup_cons.mp (List.nodup_middle.mp h)).1 (List.mem_append_left more hmem)

/-- New names get their entries in order. -/
theorem assignAll_keyed {entries : List (String × Item)} {new : List (String × Value)}
    (hnodup : (entries.map Prod.fst ++ new.map Prod.fst).Nodup) :
    assignAll entries (keyed new) = some (entries ++ new.map fun e => (e.1, .value e.2)) := by
  induction new generalizing entries with
  | nil => rw [List.map_nil, List.append_nil]; rfl
  | cons e new ih =>
    have hnew : e.1 ∉ entries.map Prod.fst := not_mem_of_nodup_append_cons hnodup
    have hassign : assign entries ({ name := e.1 }, e.2) =
        some (entries ++ [(e.1, .value e.2)]) := by
      rw [assign, alter, lookup_eq_none_of_not_mem hnew, fresh, Option.map_some,
        setEntry_of_not_mem hnew]
    have hrest : assignAll (entries ++ [(e.1, .value e.2)]) (keyed new) =
        some (entries ++ [(e.1, .value e.2)] ++ new.map fun e => (e.1, .value e.2)) :=
      ih (by simpa using hnodup)
    show (assign entries ({ name := e.1 }, e.2)).bind _ = _
    rw [hassign]
    show assignAll (entries ++ [(e.1, .value e.2)]) (keyed new) = _
    rw [hrest, List.append_assoc]
    rfl

/-- The item of a table with fields. -/
def tableItem (fields : List Field) : Item :=
  .table .declared ((entriesOf fields).map fun e => (e.1, .value e.2))

/-- Fields make a table of their own. -/
theorem assignAll_entriesOf {fields : List Field} (h : PlainFields fields) :
    assignAll [] (keyed (entriesOf fields)) =
      some ((entriesOf fields).map fun e => (e.1, .value e.2)) :=
  assignAll_keyed (by rw [map_fst_entriesOf]; exact h.nodup)

/-- New sections get their tables in order. -/
theorem foldlM_addTo {root : List (String × Item)} {tables : List (String × List Field)}
    (hnodup : (root.map Prod.fst ++ tables.map Prod.fst).Nodup)
    (htables : ∀ t ∈ tables, PlainFields t.2) :
    (sectionsOf tables).foldlM Section.addTo root =
      some (root ++ tables.map fun t => (t.1, tableItem t.2)) := by
  induction tables generalizing root with
  | nil => rw [List.map_nil, List.append_nil]; rfl
  | cons t tables ih =>
    obtain ⟨hfields, htables⟩ := List.forall_mem_cons.mp htables
    have hnew : t.1 ∉ root.map Prod.fst := not_mem_of_nodup_append_cons hnodup
    have hadd : Section.addTo root ⟨false, { name := t.1 }, keyed (entriesOf t.2)⟩ =
        some (root ++ [(t.1, tableItem t.2)]) := by
      rw [Section.addTo, alter, lookup_eq_none_of_not_mem hnew, if_neg Bool.false_ne_true,
        Section.declare, assignAll_entriesOf hfields, Option.map_some, Option.map_some,
        setEntry_of_not_mem hnew]
      rfl
    have hrest : (sectionsOf tables).foldlM Section.addTo (root ++ [(t.1, tableItem t.2)]) =
        some (root ++ [(t.1, tableItem t.2)] ++ tables.map fun t => (t.1, tableItem t.2)) :=
      ih (by simpa using hnodup) htables
    rw [sectionsOf, List.map_cons, List.foldlM_cons, hadd]
    show List.foldlM Section.addTo _ (sectionsOf tables) = _
    rw [hrest, List.append_assoc]
    rfl

theorem finishEntries_append (a b : List (String × Item)) :
    finishEntries (a ++ b) = finishEntries a ++ finishEntries b := by
  induction a with
  | nil => rfl
  | cons e a ih =>
    obtain ⟨name, item⟩ := e
    rw [List.cons_append, finishEntries, finishEntries, ih, List.cons_append]

theorem finishEntries_values (entries : List (String × Value)) :
    finishEntries (entries.map fun e => (e.1, .value e.2)) = entries := by
  induction entries with
  | nil => rfl
  | cons e entries ih =>
    rw [List.map_cons, finishEntries, ih, Item.finish]

theorem finishEntries_tables (tables : List (String × List Field)) :
    finishEntries (tables.map fun t => (t.1, tableItem t.2)) =
      tables.map fun t => (t.1, .table (entriesOf t.2)) := by
  induction tables with
  | nil => rfl
  | cons t tables ih =>
    rw [List.map_cons, finishEntries, ih, tableItem, Item.finish, finishEntries_values]
    rfl

/-- **The text of a plain draft is read as the draft's entries.** -/
theorem parse?_text {d : Draft} (h : d.IsPlain) : parse? d.text = some d.entries := by
  have hroot : (((entriesOf d.fields).map fun e => (e.1, Item.value e.2)).map Prod.fst ++
      d.tables.map Prod.fst).Nodup := by
    have hnames : ((entriesOf d.fields).map fun e => (e.1, Item.value e.2)).map Prod.fst =
        d.fields.map Prod.fst := by
      rw [List.map_map, ← map_fst_entriesOf]
      rfl
    rw [hnames]
    exact h.nodup
  have hadd := foldlM_addTo hroot fun t ht => (h.tables t ht).2
  rw [parse?, read?_text h, Option.bind_some, Document.table?]
  simp only [Draft.document, assignAll_entriesOf h.fields, hadd, Option.bind_eq_bind,
    Option.bind_some]
  rw [finishEntries_append, finishEntries_values, finishEntries_tables]
  rfl

end GoResolver.Toml
