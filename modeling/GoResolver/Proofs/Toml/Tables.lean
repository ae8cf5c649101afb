import GoResolver.Proofs.Entries
import GoResolver.Toml.Reader

/-!
# No table has two entries of one name

A table can be written in pieces, in lines, headers, dotted keys and braces, and no piece may say
again what another one has said.  So in the table that a text describes no name occurs twice, and
the same holds of every table inside it (`isTable_of_parse?`).

1. Setting an entry never adds a name that is there, and a walk along a path sets one entry on each
   level.  So a change that makes proper items of proper items leaves a table proper
   (`isTable_of_alter`).
2. Finishing a table changes no names (`isTable_finishEntries`).
3. The reader makes tables in two places.  Those in braces are put together while a value is read
   (`isProper_of_value?`), and those of headers when the whole document has been read
   (`Document.isTable_of_table?`).
-/

namespace GoResolver.Toml

variable {α : Type}

/-- In every table in the value, at any depth, the names have a property. -/
inductive Value.EveryTable (P : List String → Prop) : Value → Prop
  | string (text : String) : EveryTable P (.string text)
  | integer (n : Int) : EveryTable P (.integer n)
  | float (x : Binary64) : EveryTable P (.float x)
  | boolean (b : Bool) : EveryTable P (.boolean b)
  | moment : EveryTable P .moment
  | array {items : List Value} (each : ∀ v ∈ items, EveryTable P v) : EveryTable P (.array items)
  | table {entries : List (String × Value)} (names : P (entries.map Prod.fst))
    (each : ∀ e ∈ entries, EveryTable P e.2) : EveryTable P (.table entries)

theorem Value.EveryTable.names_table {P : List String → Prop} {entries : List (String × Value)} :
    (Value.table entries).EveryTable P → P (entries.map Prod.fst)
  | .table names _ => names

/-- No table in the value has two entries of one name. -/
abbrev Value.IsProper (v : Value) : Prop := v.EveryTable List.Nodup

/-- No table in the item has two entries of one name. -/
inductive Item.IsProper : Item → Prop
  | value {v : Value} (h : v.IsProper) : IsProper (.value v)
  | table {origin : Origin} {entries : List (String × Item)} (names : (entries.map Prod.fst).Nodup)
    (each : ∀ e ∈ entries, IsProper e.2) : IsProper (.table origin entries)
  | tables {elements : List (List (String × Item))}
    (names : ∀ entries ∈ elements, (entries.map Prod.fst).Nodup)
    (each : ∀ entries ∈ elements, ∀ e ∈ entries, IsProper e.2) : IsProper (.tables elements)

/-- Entries of which no two have one name, and whose values have a property. -/
structure IsTable (P : α → Prop) (entries : List (String × α)) : Prop where
  names : (entries.map Prod.fst).Nodup
  each : ∀ e ∈ entries, P e.2

/-! ## 1. Building tables -/

section

variable {P : α → Prop} {name : String} {x : α} {entries : List (String × α)}

theorem isTable_nil : IsTable P [] := ⟨List.nodup_nil, fun _ h => nomatch h⟩

theorem IsTable.of_lookup (h : IsTable P entries) (hx : entries.lookup name = some x) : P x :=
  h.each _ (mem_of_lookup_eq_some hx)

theorem IsTable.setEntry (h : IsTable P entries) (hx : P x) (name : String) :
    IsTable P (setEntry name x entries) where
  names := nodup_setEntry h.names name x
  each e he := by
    rcases eq_or_mem_of_mem_setEntry he with rfl | he
    · exact hx
    · exact h.each e he

end

/-- A change that makes proper items, out of proper items or of nothing. -/
def KeepsProper (change : Option Item → Option Item) : Prop :=
  ∀ old new, (∀ item, old = some item → item.IsProper) → change old = some new → new.IsProper

section

variable {entries out : List (String × Item)}

theorem IsTable.isProper (h : IsTable Item.IsProper entries) (origin : Origin) :
    (Item.table origin entries).IsProper := .table h.names h.each

theorem Item.IsProper.isTable {origin : Origin} :
    (Item.table origin entries).IsProper → IsTable Item.IsProper entries
  | .table names each => ⟨names, each⟩

section

variable {elements : List (List (String × Item))}

theorem Item.IsProper.isTable_of_mem :
    (Item.tables elements).IsProper → ∀ t ∈ elements, IsTable Item.IsProper t
  | .tables names each, t, ht => ⟨names t ht, each t ht⟩

/-- A table is added at the end of a list of tables. -/
theorem Item.isProper_concat (h : ∀ t ∈ elements, IsTable Item.IsProper t)
    (hout : IsTable Item.IsProper out) : (Item.tables (elements ++ [out])).IsProper := by
  have htables : ∀ t ∈ elements ++ [out], IsTable Item.IsProper t := by
    intro t ht
    rcases List.mem_append.mp ht with ht | ht
    · exact h t ht
    · rwa [List.mem_singleton.mp ht]
  exact .tables (fun t ht => (htables t ht).names) fun t ht => (htables t ht).each

end

/-- **A walk that ends in a proper change leaves the table proper.** -/
theorem isTable_of_alter {change : Option Item → Option Item} (hchange : KeepsProper change)
    {byDots : Bool} {name : String} {path : List String} (hentries : IsTable Item.IsProper entries)
    (h : alter byDots name change path entries = some out) : IsTable Item.IsProper out := by
  induction path generalizing entries out with
  | nil =>
    rw [alter, Option.map_eq_some_iff] at h
    obtain ⟨item, hitem, rfl⟩ := h
    exact hentries.setEntry (hchange _ _ (fun old hold => hentries.of_lookup hold) hitem) name
  | cons part path ih =>
    simp only [alter, Option.bind_eq_bind] at h
    -- what stands under the first name of the path, and what it is replaced by
    split at h
    · obtain ⟨item, hitem, hout⟩ := Option.bind_eq_some_iff.mp h
      obtain ⟨inner, hinner, rfl⟩ := Option.map_eq_some_iff.mp hitem
      have hnew := (ih isTable_nil hinner).isProper (if byDots then .dotted else .implied)
      exact Option.some_inj.mp hout ▸ hentries.setEntry hnew part
    · cases h
    · next origin inner hlookup =>
      split at h
      · obtain ⟨item, hitem, hout⟩ := Option.bind_eq_some_iff.mp h
        obtain ⟨inner', hinner, rfl⟩ := Option.map_eq_some_iff.mp hitem
        have hnew := (ih (hentries.of_lookup hlookup).isTable hinner).isProper origin
        exact Option.some_inj.mp hout ▸ hentries.setEntry hnew part
      · cases h
    · next elements hlookup =>
      have htables := (hentries.of_lookup hlookup).isTable_of_mem
      split at h
      · cases h
      · next last hlast =>
        split at h
        · obtain ⟨item, hitem, hout⟩ := Option.bind_eq_some_iff.mp h
          obtain ⟨inner, hinner, rfl⟩ := Option.map_eq_some_iff.mp hitem
          have hinner := ih (htables last (List.mem_of_getLast? hlast)) hinner
          have hnew := Item.isProper_concat
            (fun t ht => htables t (List.dropLast_subset elements ht)) hinner
          exact Option.some_inj.mp hout ▸ hentries.setEntry hnew part
        · cases h

/-- Entries with proper values are added to a proper table. -/
theorem isTable_of_assignAll {new : List (Key × Value)} (hnew : ∀ e ∈ new, e.2.IsProper)
    (hentries : IsTable Item.IsProper entries) (h : assignAll entries new = some out) :
    IsTable Item.IsProper out := by
  rw [assignAll] at h
  induction new generalizing entries with
  | nil =>
    rw [List.foldlM_nil] at h
    exact Option.some_inj.mp h ▸ hentries
  | cons e new ih =>
    obtain ⟨hfirst, hrest⟩ := List.forall_mem_cons.mp hnew
    rw [List.foldlM_cons, Option.bind_eq_bind, Option.bind_eq_some_iff] at h
    obtain ⟨middle, hmiddle, h⟩ := h
    have hfresh : KeepsProper (fresh (.value e.2)) := by
      intro old item _ hitem
      cases old with
      | none => exact Option.some_inj.mp hitem ▸ .value hfirst
      | some _ => cases hitem
    exact ih hrest (isTable_of_alter hfresh hentries hmiddle) h

/-! ## 2. The finished table -/

theorem map_fst_finishEntries (entries : List (String × Item)) :
    (finishEntries entries).map Prod.fst = entries.map Prod.fst := by
  induction entries with
  | nil => rfl
  | cons e entries ih => rw [finishEntries, List.map_cons, List.map_cons, ih]

mutual

theorem Item.IsProper.finish : (item : Item) → item.IsProper → item.finish.IsProper
  | .value _, .value h => h
  | .table _ entries, .table names each =>
    .table ((map_fst_finishEntries entries).symm ▸ names)
      (isProper_of_mem_finishEntries entries each)
  | .tables elements, .tables names each =>
    .array (isProper_of_mem_finishTables elements names each)

theorem isProper_of_mem_finishEntries : (entries : List (String × Item)) →
    (∀ e ∈ entries, e.2.IsProper) → ∀ e ∈ finishEntries entries, e.2.IsProper
  | [], _ => fun _ h => nomatch h
  | (name, item) :: rest, h => by
    obtain ⟨hitem, hrest⟩ := List.forall_mem_cons.mp h
    rw [finishEntries, List.forall_mem_cons]
    exact ⟨Item.IsProper.finish item hitem, isProper_of_mem_finishEntries rest hrest⟩

theorem isProper_of_mem_finishTables : (elements : List (List (String × Item))) →
    (∀ t ∈ elements, (t.map Prod.fst).Nodup) → (∀ t ∈ elements, ∀ e ∈ t, e.2.IsProper) →
    ∀ v ∈ finishTables elements, v.IsProper
  | [], _, _ => fun _ h => nomatch h
  | entries :: rest, names, each => by
    obtain ⟨hnames, hrestNames⟩ := List.forall_mem_cons.mp names
    obtain ⟨heach, hrestEach⟩ := List.forall_mem_cons.mp each
    rw [finishTables, List.forall_mem_cons]
    have htable := isProper_of_mem_finishEntries entries heach
    exact ⟨.table ((map_fst_finishEntries entries).symm ▸ hnames) htable,
      isProper_of_mem_finishTables rest hrestNames hrestEach⟩

end

/-- **Finishing a table leaves it proper**: it changes no names. -/
theorem isTable_finishEntries (h : IsTable Item.IsProper entries) :
    IsTable Value.IsProper (finishEntries entries) :=
  ⟨(map_fst_finishEntries entries).symm ▸ h.names, isProper_of_mem_finishEntries entries h.each⟩

theorem isProper_of_inlineTable? {new : List (Key × Value)} {v : Value}
    (hnew : ∀ e ∈ new, e.2.IsProper) (h : inlineTable? new = some v) : v.IsProper := by
  obtain ⟨entries, hentries, rfl⟩ := Option.map_eq_some_iff.mp h
  have htable := isTable_finishEntries (isTable_of_assignAll hnew isTable_nil hentries)
  exact .table htable.names htable.each

end

/-! ## 3. Reading values -/

/-- A reader that reads only proper values. -/
def ReadsProper (value : ValueReader) : Prop :=
  ∀ s v r, value s = some (v, r) → v.IsProper

theorem isProper_of_integer? {negative : Bool} {n : Nat} {v : Value}
    (h : integer? negative n = some v) : v.IsProper := by
  rw [integer?] at h
  split at h <;> split at h
  · exact Option.some_inj.mp h ▸ .integer _
  · cases h
  · exact Option.some_inj.mp h ▸ .integer _
  · cases h

theorem isProper_of_float? {negative : Bool} {whole fraction : List Char} {exponent : Int}
    {v : Value} (h : float? negative whole fraction exponent = some v) : v.IsProper := by
  rw [float?] at h
  split at h
  · cases h
  · exact Option.some_inj.mp h ▸ .float _

theorem isProper_of_ofBase? (base : Nat) : ReadsProper (ofBase? base) := by
  intro s v r h
  simp only [ofBase?, Option.bind_eq_bind, Option.bind_eq_some_iff] at h
  obtain ⟨ds, -, n, hn, hv⟩ := h
  rw [← (Prod.mk.inj (Option.some_inj.mp hv)).1]
  exact isProper_of_integer? hn

theorem isProper_of_decimal? (negative : Bool) : ReadsProper (decimal? negative) := by
  intro s v r h
  simp only [decimal?, Option.bind_eq_bind, Option.bind_eq_some_iff] at h
  obtain ⟨whole, -, fraction, -, exponent, -, h⟩ := h
  split at h <;>
  · obtain ⟨n, hn, hv⟩ := Option.bind_eq_some_iff.mp h
    rw [← (Prod.mk.inj (Option.some_inj.mp hv)).1]
    first
      | exact isProper_of_integer? hn
      | exact isProper_of_float? hn

theorem isProper_of_number? : ReadsProper number? := by
  intro s v r h
  rw [number?] at h
  split at h
  · exact isProper_of_ofBase? 16 _ _ _ h
  · exact isProper_of_ofBase? 8 _ _ _ h
  · exact isProper_of_ofBase? 2 _ _ _ h
  · exact (Prod.mk.inj (Option.some_inj.mp h)).1 ▸ .float _
  · exact (Prod.mk.inj (Option.some_inj.mp h)).1 ▸ .float _
  · exact isProper_of_decimal? _ _ _ _ h

section

variable {value : ValueReader} (hvalue : ReadsProper value)
include hvalue

theorem isProper_of_items? {fuel : Nat} {s r : List Char} {items : List Value}
    (h : items? value fuel s = some (items, r)) : ∀ v ∈ items, v.IsProper := by
  induction fuel generalizing s items r with
  | zero => cases h
  | succ fuel ih =>
    simp only [items?, Option.bind_eq_bind, Option.bind_eq_some_iff] at h
    obtain ⟨rest, -, h⟩ := h
    split at h
    · rw [← (Prod.mk.inj (Option.some_inj.mp h)).1]
      exact fun _ h => nomatch h
    · obtain ⟨first, hfirst, h⟩ := Option.bind_eq_some_iff.mp h
      obtain ⟨after, -, h⟩ := Option.bind_eq_some_iff.mp h
      have hproper := hvalue _ _ _ hfirst
      split at h
      · obtain ⟨more, hmore, h⟩ := Option.bind_eq_some_iff.mp h
        rw [← (Prod.mk.inj (Option.some_inj.mp h)).1, List.forall_mem_cons]
        exact ⟨hproper, ih hmore⟩
      · rw [← (Prod.mk.inj (Option.some_inj.mp h)).1, List.forall_mem_singleton]
        exact hproper
      · cases h

theorem isProper_of_entry? {s r : List Char} {e : Key × Value}
    (h : entry? value s = some (e, r)) : e.2.IsProper := by
  unfold entry? at h
  simp only [Option.bind_eq_bind, Option.bind_eq_some_iff] at h
  obtain ⟨key, -, h⟩ := h
  split at h
  · obtain ⟨v, hv, h⟩ := Option.bind_eq_some_iff.mp h
    rw [← (Prod.mk.inj (Option.some_inj.mp h)).1]
    exact hvalue _ _ _ hv
  · cases h

theorem isProper_of_members? {fuel : Nat} {s r : List Char} {es : List (Key × Value)}
    (h : members? value fuel s = some (es, r)) : ∀ e ∈ es, e.2.IsProper := by
  induction fuel generalizing s es r with
  | zero => cases h
  | succ fuel ih =>
    simp only [members?, Option.bind_eq_bind, Option.bind_eq_some_iff] at h
    obtain ⟨first, hfirst, h⟩ := h
    have hproper := isProper_of_entry? hvalue hfirst
    split at h
    · obtain ⟨more, hmore, h⟩ := Option.bind_eq_some_iff.mp h
      rw [← (Prod.mk.inj (Option.some_inj.mp h)).1, List.forall_mem_cons]
      exact ⟨hproper, ih hmore⟩
    · rw [← (Prod.mk.inj (Option.some_inj.mp h)).1, List.forall_mem_singleton]
      exact hproper
    · cases h

theorem isProper_of_array? : ReadsProper (array? value) := by
  intro s v r h
  obtain ⟨p, hitems, hv⟩ := Option.map_eq_some_iff.mp h
  rw [← (Prod.mk.inj hv).1]
  exact .array (isProper_of_items? hvalue hitems)

theorem isProper_of_braces? : ReadsProper (braces? value) := by
  intro s v r h
  rw [braces?] at h
  split at h
  · rw [← (Prod.mk.inj (Option.some_inj.mp h)).1]
    exact .table List.nodup_nil fun _ h => nomatch h
  · obtain ⟨members, hmembers, h⟩ := Option.bind_eq_some_iff.mp h
    obtain ⟨table, htable, h⟩ := Option.bind_eq_some_iff.mp h
    rw [← (Prod.mk.inj (Option.some_inj.mp h)).1]
    exact isProper_of_inlineTable? (isProper_of_members? hvalue hmembers) htable

end

/-- Only arrays and tables in braces have values in them. -/
theorem isProper_of_valueWith? {inner : Option ValueReader}
    (hinner : ∀ value, inner = some value → ReadsProper value) :
    ReadsProper (valueWith? inner) := by
  intro s v r h
  rw [valueWith?.eq_def] at h
  split at h
  · exact (Prod.mk.inj (Option.some_inj.mp h)).1 ▸ .boolean true
  · exact (Prod.mk.inj (Option.some_inj.mp h)).1 ▸ .boolean false
  · obtain ⟨value, hvalue, h⟩ := Option.bind_eq_some_iff.mp h
    exact isProper_of_array? (hinner value hvalue) _ _ _ h
  · obtain ⟨value, hvalue, h⟩ := Option.bind_eq_some_iff.mp h
    exact isProper_of_braces? (hinner value hvalue) _ _ _ h
  · split at h
    · obtain ⟨p, -, hv⟩ := Option.map_eq_some_iff.mp h
      exact (Prod.mk.inj hv).1 ▸ .string _
    · split at h
      · obtain ⟨p, -, hv⟩ := Option.map_eq_some_iff.mp h
        exact (Prod.mk.inj hv).1 ▸ .moment
      · exact isProper_of_number? _ _ _ h

/-- **A value that is read is proper**, whatever is nested in it. -/
theorem isProper_of_value? (room : Nat) : ReadsProper (value? room) := by
  induction room with
  | zero => exact isProper_of_valueWith? fun _ h => nomatch h
  | succ room ih => exact isProper_of_valueWith? fun value h => Option.some_inj.mp h ▸ ih

/-! ## 4. Reading documents -/

/-- No value in the document has a table with two entries of one name. -/
structure Document.IsProper (d : Document) : Prop where
  preamble : ∀ e ∈ d.preamble, e.2.IsProper
  sections : ∀ s ∈ d.sections, ∀ e ∈ s.entries, e.2.IsProper

theorem isProper_of_line? {s r : List Char} {e : Key × Value}
    (h : line? s = some (.entry e, r)) : e.2.IsProper := by
  simp only [line?, Option.bind_eq_bind] at h
  split at h
  · cases h
  · obtain ⟨key, -, h⟩ := Option.bind_eq_some_iff.mp h
    obtain ⟨rest, -, h⟩ := Option.bind_eq_some_iff.mp h
    cases h
  · obtain ⟨key, -, h⟩ := Option.bind_eq_some_iff.mp h
    obtain ⟨rest, -, h⟩ := Option.bind_eq_some_iff.mp h
    cases h
  · split at h
    · cases h
    · obtain ⟨entry, hentry, h⟩ := Option.bind_eq_some_iff.mp h
      obtain rfl := Line.entry.inj (Prod.mk.inj (Option.some_inj.mp h)).1
      exact isProper_of_entry? (isProper_of_value? maxNesting) hentry

namespace Document

variable {d : Document}

theorem isProper_empty : IsProper {} :=
  ⟨fun _ h => absurd h List.not_mem_nil, fun _ h => absurd h List.not_mem_nil⟩

theorem IsProper.withLine (hd : d.IsProper) {l : Line}
    (hl : ∀ e, l = .entry e → e.2.IsProper) : (d.withLine l).IsProper := by
  cases l with
  | blank => exact hd
  | entry e => exact ⟨List.forall_mem_cons.mpr ⟨hl e rfl, hd.preamble⟩, hd.sections⟩
  | header isElement key =>
    exact ⟨fun _ h => absurd h List.not_mem_nil,
      List.forall_mem_cons.mpr ⟨hd.preamble, hd.sections⟩⟩

theorem isProper_of_lines? {fuel : Nat} {s : List Char} (h : lines? fuel s = some d) :
    d.IsProper := by
  induction fuel generalizing s d with
  | zero =>
    cases s with
    | nil => exact Option.some_inj.mp h ▸ isProper_empty
    | cons c s => cases h
  | succ fuel ih =>
    cases s with
    | nil => exact Option.some_inj.mp h ▸ isProper_empty
    | cons c s =>
      simp only [lines?, Option.bind_eq_bind, Option.bind_eq_some_iff] at h
      obtain ⟨⟨l, r⟩, hl, rest, -, d', hd', h⟩ := h
      rw [← Option.some_inj.mp h]
      refine (ih hd').withLine fun e he => ?_
      subst he
      exact isProper_of_line? hl

/-- A table is declared anew, or where it was only implied. -/
theorem keepsProper_declare {s : Section} (hs : ∀ e ∈ s.entries, e.2.IsProper) :
    KeepsProper s.declare := by
  intro old new hold hnew
  rw [Section.declare.eq_def] at hnew
  split at hnew
  · obtain ⟨t, ht, rfl⟩ := Option.map_eq_some_iff.mp hnew
    exact (isTable_of_assignAll hs isTable_nil ht).isProper .declared
  · obtain ⟨t, ht, rfl⟩ := Option.map_eq_some_iff.mp hnew
    exact (isTable_of_assignAll hs (hold _ rfl).isTable ht).isProper .declared
  · cases hnew

/-- A table is the first or a further one of a list. -/
theorem keepsProper_append {s : Section} (hs : ∀ e ∈ s.entries, e.2.IsProper) :
    KeepsProper s.append := by
  intro old new hold hnew
  rw [Section.append.eq_def] at hnew
  split at hnew
  · obtain ⟨t, ht, rfl⟩ := Option.map_eq_some_iff.mp hnew
    show (Item.tables ([] ++ [t])).IsProper
    exact Item.isProper_concat (fun _ h => nomatch h) (isTable_of_assignAll hs isTable_nil ht)
  · obtain ⟨t, ht, rfl⟩ := Option.map_eq_some_iff.mp hnew
    exact Item.isProper_concat (hold _ rfl).isTable_of_mem
      (isTable_of_assignAll hs isTable_nil ht)
  · cases hnew

theorem isTable_of_addTo {root out : List (String × Item)} {s : Section}
    (hs : ∀ e ∈ s.entries, e.2.IsProper) (hroot : IsTable Item.IsProper root)
    (h : s.addTo root = some out) : IsTable Item.IsProper out := by
  rw [Section.addTo] at h
  split at h
  · exact isTable_of_alter (keepsProper_append hs) hroot h
  · exact isTable_of_alter (keepsProper_declare hs) hroot h

/-- Sections are added one after the other. -/
theorem isTable_of_sections {sections : List Section}
    (hsections : ∀ s ∈ sections, ∀ e ∈ s.entries, e.2.IsProper) {root out : List (String × Item)}
    (hroot : IsTable Item.IsProper root) (h : sections.foldlM Section.addTo root = some out) :
    IsTable Item.IsProper out := by
  induction sections generalizing root with
  | nil => exact Option.some_inj.mp h ▸ hroot
  | cons s sections ih =>
    obtain ⟨hs, hrest⟩ := List.forall_mem_cons.mp hsections
    obtain ⟨middle, hmiddle, h⟩ := Option.bind_eq_some_iff.mp h
    exact ih hrest (isTable_of_addTo hs hroot hmiddle) h

theorem isTable_of_table? (hd : d.IsProper) {entries : List (String × Value)}
    (h : d.table? = some entries) : IsTable Value.IsProper entries := by
  simp only [table?, Option.bind_eq_bind, Option.bind_eq_some_iff] at h
  obtain ⟨preamble, hpreamble, root, hroot, h⟩ := h
  have htable := isTable_of_assignAll hd.preamble isTable_nil hpreamble
  rw [← Option.some_inj.mp h]
  exact isTable_finishEntries (isTable_of_sections hd.sections htable hroot)

end Document

/-- **In the table that a text describes, and in every table inside it, no name occurs twice.** -/
theorem isTable_of_parse? {text : String} {entries : List (String × Value)}
    (h : parse? text = some entries) : IsTable Value.IsProper entries := by
  obtain ⟨d, hd, htable⟩ := Option.bind_eq_some_iff.mp h
  exact Document.isTable_of_table? (Document.isProper_of_lines? hd) htable

end GoResolver.Toml
