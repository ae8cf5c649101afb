import GoResolver.Json.Library

/-!
# JSON text is read back

A value can be laid out in many ways, with blanks where the grammar allows them.  A `Layout` says
which blanks are written; the indented form is one of them (`pretty_eq_write`), and the form without
any blanks is another.  In every layout the text of a value is read as the value (`parse?_write`).

1. A character of a string is written as itself or behind a backslash, and either way it is read as
   one `Spelling` of the character (`spellings?_escaped`).
2. Reading a value stops where its text ends, whatever follows (`ReadsBack`).  So the items of an
   array are read one after the other, and the members of an object too.

What is written has no numbers, and all its strings are texts (`IsTextual`).
-/

namespace GoResolver.JsonValue

/-! ## 1. Strings -/

/-- What is read for a character that was written. -/
def Spelling.of (c : Char) : Spelling :=
  if c ∈ ['\x08', '\x0c', '\n', '\r', '\t'] then .char c
  else if c.toNat < 0x20 then .unit c.toNat
  else .char c

/-- The number that a list of four hexadecimal digits denotes. -/
def code? : List Char → Option Nat
  | [a, b, c, d] => hex4? a b c d
  | _ => none

theorem exists_of_code? {s : List Char} {n : Nat} (h : code? s = some n) :
    ∃ a b c d, s = [a, b, c, d] ∧ hex4? a b c d = some n := by
  rw [code?.eq_def] at h
  split at h
  · exact ⟨_, _, _, _, rfl, h⟩
  · cases h

/-- The code of a control character is written with four digits and read back. -/
theorem exists_paddedDigits {n : Nat} (hn : n < 0x20) :
    ∃ a b c d, Text.paddedDigits 16 4 n = [a, b, c, d] ∧ hex4? a b c d = some n := by
  have hread : ∀ m < 0x20, code? (Text.paddedDigits 16 4 m) = some m := by decide
  exact exists_of_code? (hread n hn)

/-- The three ways to write a character: a letter behind a backslash, a code behind one, and the
character itself. -/
theorem escaped_cases (c : Char) :
    (∃ e, e ≠ 'u' ∧ simpleEscape? e = some c ∧ escaped c = ['\\', e] ∧ Spelling.of c = .char c) ∨
    (c.toNat < 0x20 ∧ escaped c = ['\\', 'u'] ++ Text.paddedDigits 16 4 c.toNat ∧
      Spelling.of c = .unit c.toNat) ∨
    (c ≠ '"' ∧ c ≠ '\\' ∧ ¬ c.toNat < 0x20 ∧ escaped c = [c] ∧ Spelling.of c = .char c) := by
  by_cases hletter : c ∈ ['"', '\\', '\x08', '\x0c', '\n', '\r', '\t']
  · simp only [List.mem_cons, List.not_mem_nil, or_false] at hletter
    left
    rcases hletter with rfl | rfl | rfl | rfl | rfl | rfl | rfl <;>
      exact ⟨_, by decide, rfl, rfl, rfl⟩
  · simp only [List.mem_cons, List.not_mem_nil, or_false, not_or] at hletter
    obtain ⟨hquote, hslash, hb, hf, hn, hr, ht⟩ := hletter
    right
    by_cases hcontrol : c.toNat < 0x20
    · refine .inl ⟨hcontrol, ?_, ?_⟩
      · simp only [escaped, hquote, hslash, hb, hf, hn, hr, ht, hcontrol, if_false, if_true]
      · simp [Spelling.of, hb, hf, hn, hr, ht, hcontrol]
    · refine .inr ⟨hquote, hslash, hcontrol, ?_, ?_⟩
      · simp only [escaped, hquote, hslash, hb, hf, hn, hr, ht, hcontrol, if_false]
      · simp [Spelling.of, hcontrol]

/-- **A written character is read as its spelling**, whatever follows. -/
theorem spellings?_escaped (c : Char) (s : List Char) :
    spellings? (escaped c ++ s) =
      (spellings? s).map fun p => (Spelling.of c :: p.1, p.2) := by
  rcases escaped_cases c with ⟨e, hu, hletter, hwritten, hspelling⟩ |
    ⟨hcontrol, hwritten, hspelling⟩ | ⟨hquote, hslash, hcontrol, hwritten, hspelling⟩
  · have hne : ∀ (a b c d : Char) (r : List Char), e = 'u' → s = a :: b :: c :: d :: r → False :=
      fun _ _ _ _ _ he _ => hu he
    rw [hwritten, hspelling, List.cons_append, List.cons_append, List.nil_append,
      spellings?.eq_4 e s hne, hletter]
    cases spellings? s <;> rfl
  · obtain ⟨a, b, c', d, hdigits, hcode⟩ := exists_paddedDigits hcontrol
    rw [hwritten, hspelling, hdigits]
    simp only [List.cons_append, List.nil_append]
    rw [spellings?, hcode]
    cases spellings? s <;> rfl
  · rw [hwritten, hspelling, List.singleton_append,
      spellings?.eq_5 c s hquote (fun _ _ _ _ _ h _ => hslash h) (fun _ _ h _ => hslash h),
      if_neg hcontrol]
    cases spellings? s <;> rfl

/-- The spelling of a character spells it. -/
theorem spelled?_of (c : Char) (rest : List Spelling) :
    spelled? (Spelling.of c :: rest) = (c :: ·) <$> spelled? rest := by
  rcases escaped_cases c with ⟨-, -, -, -, hspelling⟩ | ⟨hcontrol, -, hspelling⟩ |
    ⟨-, -, -, -, hspelling⟩
  · rw [hspelling, spelled?]
  · have hhigh : ¬ isHighHalf c.toNat = true := by
      simp only [isHighHalf, Bool.and_eq_true, decide_eq_true_eq]
      omega
    have hlow : ¬ isLowHalf c.toNat = true := by
      simp only [isLowHalf, Bool.and_eq_true, decide_eq_true_eq]
      omega
    rw [hspelling, spelled?.eq_def]
    dsimp only
    rw [if_neg hhigh, if_neg hlow, Char.ofNat_toNat]
  · rw [hspelling, spelled?]

theorem spelled?_map_of (s : List Char) : spelled? (s.map Spelling.of) = some s := by
  induction s with
  | nil => rfl
  | cons c s ih =>
    rw [List.map_cons, spelled?_of, ih]
    rfl

theorem spellings?_flatMap_escaped (s rest : List Char) :
    spellings? (s.flatMap escaped ++ '"' :: rest) = some (s.map Spelling.of, rest) := by
  induction s with
  | nil => rfl
  | cons c s ih => rw [List.flatMap_cons, List.append_assoc, spellings?_escaped, ih, List.map_cons,
      Option.map_some]

/-- A text behind its opening quote. -/
def quotedTail (s : String) : List Char := s.toList.flatMap escaped ++ ['"']

theorem toList_quotedText (s : String) : (quotedText s).toList = '"' :: quotedTail s := by
  rw [quotedText, String.toList_ofList, quotedTail, List.cons_append]

/-- **A written string is read back**, whatever follows. -/
theorem string?_quotedTail (s : String) (rest : List Char) :
    string? (quotedTail s ++ rest) = some (some s, rest) := by
  rw [string?, quotedTail, List.append_assoc, List.singleton_append, spellings?_flatMap_escaped,
    Option.map_some, spelled?_map_of, Option.map_some, String.ofList_toList]

/-! ## 2. Layouts -/

/-- The blanks in the text of a value. -/
structure Layout where
  /-- What stands before an item or a bracket of the given level. -/
  line : Nat → List Char
  /-- What stands behind a colon. -/
  gap : List Char
  line_isSpace : ∀ level, ∀ c ∈ line level, isSpace c = true
  gap_isSpace : ∀ c ∈ gap, isSpace c = true

namespace Layout

/-- The layout without blanks. -/
def compact : Layout where
  line _ := []
  gap := []
  line_isSpace := by simp
  gap_isSpace := by simp

/-- The layout with every item on a line of its own. -/
def indented : Layout where
  line level := '\n' :: List.replicate (2 * level) ' '
  gap := [' ']
  line_isSpace level c hc := by
    rcases List.mem_cons.mp hc with rfl | hc
    · rfl
    · rw [List.eq_of_mem_replicate hc]
      rfl
  gap_isSpace c hc := by
    rw [List.mem_singleton.mp hc]
    rfl

/-- The items after the first one, and the closing bracket. -/
def rest (l : Layout) (level : Nat) (close : Char) : List (List Char) → List Char
  | [] => l.line level ++ [close]
  | s :: more => ',' :: l.line (level + 1) ++ s ++ l.rest level close more

/-- Items after an opening bracket, and the closing one. -/
def items (l : Layout) (level : Nat) (close : Char) : List (List Char) → List Char
  | [] => [close]
  | s :: more => l.line (level + 1) ++ s ++ l.rest level close more

mutual

/-- The text of a value inside the given number of brackets. -/
def write (l : Layout) (level : Nat) : JsonValue → List Char
  | .null => ['n', 'u', 'l', 'l']
  | .bool true => ['t', 'r', 'u', 'e']
  | .bool false => ['f', 'a', 'l', 's', 'e']
  | .number text => text.toList
  | .string text => '"' :: quotedTail (text.getD "")
  | .array vs => '[' :: l.items level ']' (l.writeItems (level + 1) vs)
  | .object ms => '{' :: l.items level '}' (l.writeMembers (level + 1) ms)

/-- The texts of items. -/
def writeItems (l : Layout) (level : Nat) : List JsonValue → List (List Char)
  | [] => []
  | v :: vs => l.write level v :: l.writeItems level vs

/-- The texts of members. -/
def writeMembers (l : Layout) (level : Nat) : List (Option String × JsonValue) → List (List Char)
  | [] => []
  | (key, v) :: ms =>
    ('"' :: quotedTail (key.getD "") ++ ':' :: l.gap ++ l.write level v) :: l.writeMembers level ms

end

end Layout

/-! ### The indented form -/

theorem toList_newLine (level : Nat) : (newLine level).toList = Layout.indented.line level := by
  have hspaces : Layout.indented.line level = ['\n'] ++ List.replicate (2 * level) ' ' := rfl
  rw [newLine, String.toList_append, String.toList_ofList, String.toList_ofList, hspaces]

theorem toList_intercalate_cons (sep s : String) (more : List String) :
    (String.intercalate sep (s :: more)).toList =
      s.toList ++ more.flatMap fun t => sep.toList ++ t.toList := by
  induction more generalizing s with
  | nil => rw [String.intercalate_singleton, List.flatMap_nil, List.append_nil]
  | cons t more ih =>
    rw [String.intercalate_cons_cons, String.toList_append, String.toList_append, ih,
      List.flatMap_cons, List.append_assoc, List.append_assoc]

theorem rest_eq_flatMap (l : Layout) (level : Nat) (close : Char) (more : List (List Char)) :
    l.rest level close more =
      (more.flatMap fun s => ',' :: l.line (level + 1) ++ s) ++ (l.line level ++ [close]) := by
  induction more with
  | nil => rfl
  | cons s more ih => rw [Layout.rest, ih, List.flatMap_cons, List.append_assoc, List.append_assoc,
      List.append_assoc]

/-- The indented form of brackets with items between them. -/
theorem toList_bracketed {left right : String} {opening close : Char}
    (hleft : left.toList = [opening]) (hright : right.toList = [close]) (level : Nat)
    (items : List String) :
    (bracketed left right level items).toList =
      opening :: Layout.indented.items level close (items.map String.toList) := by
  cases items with
  | nil =>
    rw [bracketed, List.isEmpty_nil, if_pos rfl, String.toList_append, hleft, hright]
    rfl
  | cons s more =>
    have hcomma : ("," : String).toList = [','] := rfl
    rw [bracketed, List.isEmpty_cons, if_neg Bool.false_ne_true]
    simp only [String.toList_append, hleft, hright, toList_newLine, toList_intercalate_cons,
      hcomma, List.map_cons, Layout.items, rest_eq_flatMap, List.flatMap_map, List.append_assoc,
      List.cons_append, List.nil_append]

mutual

/-- **The indented form is the text in the indented layout.** -/
theorem toList_pretty (level : Nat) : (v : JsonValue) →
    (pretty level v).toList = Layout.indented.write level v
  | .null => by rw [pretty, Layout.write]; rfl
  | .bool b => by
    rw [pretty]
    cases b <;> rfl
  | .number text => by rw [pretty, Layout.write]
  | .string text => by rw [pretty, toList_quotedText, Layout.write]
  | .array items => by
    have hleft : ("[" : String).toList = ['['] := rfl
    have hright : ("]" : String).toList = [']'] := rfl
    rw [pretty, toList_bracketed hleft hright, toList_prettyItems, Layout.write]
  | .object members => by
    have hleft : ("\x7b" : String).toList = ['{'] := rfl
    have hright : ("\x7d" : String).toList = ['}'] := rfl
    rw [pretty, toList_bracketed hleft hright, toList_prettyMembers, Layout.write]

theorem toList_prettyItems (level : Nat) : (vs : List JsonValue) →
    (prettyItems level vs).map String.toList = Layout.indented.writeItems level vs
  | [] => rfl
  | v :: vs => by
    rw [prettyItems, List.map_cons, toList_pretty level v, toList_prettyItems level vs,
      Layout.writeItems]

theorem toList_prettyMembers (level : Nat) : (ms : List (Option String × JsonValue)) →
    (prettyMembers level ms).map String.toList = Layout.indented.writeMembers level ms
  | [] => rfl
  | (key, v) :: ms => by
    have hcolon : (": " : String).toList = ':' :: Layout.indented.gap := rfl
    rw [prettyMembers, List.map_cons, String.toList_append, String.toList_append,
      toList_quotedText, hcolon, toList_pretty level v, toList_prettyMembers level ms,
      Layout.writeMembers]

end

/-! ## 3. Values -/

theorem skipSpace_append {blanks : List Char} (h : ∀ c ∈ blanks, isSpace c = true)
    (s : List Char) : skipSpace (blanks ++ s) = skipSpace s := List.dropWhile_append_of_pos h

/-- A character that is not blank is not skipped. -/
theorem skipSpace_cons {c : Char} (h : isSpace c = false) (s : List Char) :
    skipSpace (c :: s) = c :: s :=
  List.dropWhile_cons_of_neg (by rw [h]; exact Bool.false_ne_true)

variable {l : Layout} {v : JsonValue}

/-- A value starts with a character that is no blank and closes no bracket. -/
theorem exists_write_eq_cons (hv : v.IsTextual) (l : Layout) (level : Nat) :
    ∃ c s, l.write level v = c :: s ∧ isSpace c = false ∧ c ≠ ']' := by
  cases hv with
  | null => exact ⟨_, _, rfl, by decide, by decide⟩
  | bool b => cases b <;> exact ⟨_, _, rfl, by decide, by decide⟩
  | string s => exact ⟨'"', quotedTail s, by rw [Layout.write]; rfl, by decide, by decide⟩
  | array _ => exact ⟨'[', _, by rw [Layout.write], by decide, by decide⟩
  | object _ _ => exact ⟨'{', _, by rw [Layout.write], by decide, by decide⟩

/-- The text of a value is read as the value, whatever follows it.  The fuel is what `parse?` gives
to a text of that length. -/
def ReadsBack (l : Layout) (v : JsonValue) : Prop :=
  ∀ level fuel rest, 2 * (l.write level v).length ≤ fuel →
    value? fuel (l.write level v ++ rest) = some (v, rest)

section

variable {close : Char}

/-- After an item, what is not blank is read on. -/
theorem skipSpace_rest_nil (hclose : isSpace close = false) (level : Nat) (s : List Char) :
    skipSpace (l.rest level close [] ++ s) = close :: s := by
  rw [Layout.rest, List.append_assoc, skipSpace_append (l.line_isSpace level),
    List.singleton_append, skipSpace_cons hclose]

theorem skipSpace_rest_cons (level : Nat) (item : List Char) (more : List (List Char))
    (s : List Char) :
    skipSpace (l.rest level close (item :: more) ++ s) =
      ',' :: (l.line (level + 1) ++ (item ++ (l.rest level close more ++ s))) := by
  rw [Layout.rest, List.append_assoc, List.append_assoc, List.cons_append,
    skipSpace_cons (by decide)]

theorem length_rest_cons (l : Layout) (close : Char) (level : Nat) (item : List Char)
    (more : List (List Char)) :
    item.length + (l.rest level close more).length + 1 ≤
      (l.rest level close (item :: more)).length := by
  rw [Layout.rest, List.length_append, List.length_append, List.length_cons]
  omega

end

section

variable {fuel : Nat} {s r r' rest : List Char} {vs : List JsonValue}

/-- A closing bracket behind an item ends the items. -/
theorem items?_of_close (hv : value? fuel s = some (v, r)) (hr : skipSpace r = ']' :: r') :
    items? (fuel + 1) s = some ([v], r') := by
  rw [items?, hv]
  simp only [Option.bind_eq_bind, Option.bind_some, hr]

/-- A comma behind an item goes on with the others. -/
theorem items?_of_comma (hv : value? fuel s = some (v, r)) (hr : skipSpace r = ',' :: r')
    (hmore : items? fuel (skipSpace r') = some (vs, rest)) :
    items? (fuel + 1) s = some (v :: vs, rest) := by
  rw [items?, hv]
  simp only [Option.bind_eq_bind, Option.bind_some, hr, hmore]

variable {key : Option String} {t : List Char} {ms : List (Option String × JsonValue)}

theorem members?_of_close (hkey : string? s = some (key, t)) (hcolon : colon? t = some rest)
    (hv : value? fuel rest = some (v, r)) (hr : skipSpace r = '}' :: r') :
    members? (fuel + 1) ('"' :: s) = some ([(key, v)], r') := by
  rw [members?, hkey]
  simp only [Option.bind_eq_bind, Option.bind_some, hcolon, hv, hr]

theorem members?_of_comma (hkey : string? s = some (key, t)) (hcolon : colon? t = some rest)
    (hv : value? fuel rest = some (v, r)) (hr : skipSpace r = ',' :: r') {last : List Char}
    (hmore : members? fuel (skipSpace r') = some (ms, last)) :
    members? (fuel + 1) ('"' :: s) = some ((key, v) :: ms, last) := by
  rw [members?, hkey]
  simp only [Option.bind_eq_bind, Option.bind_some, hcolon, hv, hr, hmore]

end

/-- The blanks before a value are skipped, and nothing of the value is. -/
theorem skipSpace_line_write (hv : v.IsTextual) (level level' : Nat) (s : List Char) :
    skipSpace (l.line level' ++ (l.write level v ++ s)) = l.write level v ++ s := by
  obtain ⟨c, text, htext, hblank, -⟩ := exists_write_eq_cons hv l level
  rw [skipSpace_append (l.line_isSpace _), htext, List.cons_append, skipSpace_cons hblank]

/-- A colon is read with the blanks behind it, and nothing of the value that follows. -/
theorem colon?_gap_write (hv : v.IsTextual) (level : Nat) (s : List Char) :
    colon? (':' :: (l.gap ++ (l.write level v ++ s))) = some (l.write level v ++ s) := by
  obtain ⟨c, text, htext, hblank, -⟩ := exists_write_eq_cons hv l level
  have hvalue : skipSpace (l.gap ++ (l.write level v ++ s)) = l.write level v ++ s := by
    rw [skipSpace_append l.gap_isSpace, htext, List.cons_append, skipSpace_cons hblank]
  rw [colon?, skipSpace_cons (by decide)]
  exact congrArg some hvalue

/-- **The items of an array are read back** when each of them is. -/
theorem items?_write {vs : List JsonValue} (hv : ReadsBack l v)
    (hvs : ∀ w ∈ vs, ReadsBack l w ∧ w.IsTextual) (level fuel : Nat) (s : List Char)
    (hfuel : 2 * ((l.write (level + 1) v).length +
      (l.rest level ']' (l.writeItems (level + 1) vs)).length) ≤ fuel) :
    items? (fuel + 1) (l.write (level + 1) v ++
      (l.rest level ']' (l.writeItems (level + 1) vs) ++ s)) = some (v :: vs, s) := by
  have hvalue := hv (level + 1) fuel (l.rest level ']' (l.writeItems (level + 1) vs) ++ s)
    (by omega)
  induction vs generalizing v fuel with
  | nil => exact items?_of_close hvalue (skipSpace_rest_nil (by decide) level s)
  | cons w vs ih =>
    obtain ⟨⟨hw, htextual⟩, hrest⟩ := List.forall_mem_cons.mp hvs
    have hlength := length_rest_cons l ']' level (l.write (level + 1) w)
      (l.writeItems (level + 1) vs)
    rw [Layout.writeItems] at hfuel hvalue
    obtain ⟨fuel, rfl⟩ : ∃ n, fuel = n + 1 := ⟨fuel - 1, by omega⟩
    refine items?_of_comma hvalue (skipSpace_rest_cons level _ _ s) ?_
    rw [skipSpace_line_write htextual]
    exact ih hw hrest fuel (by omega) (hw _ _ _ (by omega))

/-- **The members of an object are read back** when the value of each of them is. -/
theorem members?_write (key : String) {ms : List (Option String × JsonValue)}
    (hv : ReadsBack l v) (htextual : v.IsTextual)
    (hms : ∀ m ∈ ms, m.1.isSome = true ∧ ReadsBack l m.2 ∧ m.2.IsTextual) (level fuel : Nat)
    (s : List Char)
    (hfuel : 2 * ((l.write (level + 1) v).length +
      (l.rest level '}' (l.writeMembers (level + 1) ms)).length) ≤ fuel) :
    members? (fuel + 1) ('"' :: (quotedTail key ++ (':' :: (l.gap ++ (l.write (level + 1) v ++
      (l.rest level '}' (l.writeMembers (level + 1) ms) ++ s)))))) =
        some ((some key, v) :: ms, s) := by
  induction ms generalizing key v fuel with
  | nil =>
    exact members?_of_close (string?_quotedTail key _) (colon?_gap_write htextual _ _)
      (hv _ _ _ (by omega)) (skipSpace_rest_nil (by decide) level s)
  | cons m ms ih =>
    obtain ⟨other, w⟩ := m
    obtain ⟨⟨hkey, (hw : ReadsBack l w), htextual'⟩, hrest⟩ := List.forall_mem_cons.mp hms
    obtain ⟨other, rfl⟩ := Option.isSome_iff_exists.mp hkey
    rw [Layout.writeMembers, Option.getD_some] at hfuel ⊢
    have hlength := length_rest_cons l '}' level
      ('"' :: quotedTail other ++ ':' :: l.gap ++ l.write (level + 1) w)
      (l.writeMembers (level + 1) ms)
    rw [List.length_append] at hlength
    obtain ⟨fuel, rfl⟩ : ∃ n, fuel = n + 1 := ⟨fuel - 1, by omega⟩
    refine members?_of_comma (string?_quotedTail key _) (colon?_gap_write htextual _ _)
      (hv _ _ _ (by omega)) (skipSpace_rest_cons level _ _ s) ?_
    rw [skipSpace_append (l.line_isSpace _)]
    simp only [List.append_assoc, List.cons_append]
    rw [skipSpace_cons (by decide)]
    exact ih other hw htextual' hrest fuel (by omega)

theorem value?_of_string {fuel : Nat} {s r : List Char} {text : Option String}
    (h : string? s = some (text, r)) : value? (fuel + 1) ('"' :: s) = some (.string text, r) := by
  rw [value?, h]
  rfl

theorem value?_of_items {fuel : Nat} {c : Char} {s r rest : List Char} {vs : List JsonValue}
    (hr : skipSpace r = c :: s) (hc : c ≠ ']') (h : items? fuel (c :: s) = some (vs, rest)) :
    value? (fuel + 1) ('[' :: r) = some (.array vs, rest) := by
  rw [value?, hr]
  split
  · next heq => exact absurd (List.cons.inj heq).1 hc
  · rw [h]
    rfl

theorem value?_of_members {fuel : Nat} {s r rest : List Char}
    {ms : List (Option String × JsonValue)} (hr : skipSpace r = '"' :: s)
    (h : members? fuel ('"' :: s) = some (ms, rest)) :
    value? (fuel + 1) ('{' :: r) = some (.object ms, rest) := by
  rw [value?, hr]
  split
  · next heq => exact absurd (List.cons.inj heq).1 (by decide)
  · rw [h]
    rfl

/-- A value has a text, and so some fuel. -/
theorem exists_fuel (hv : v.IsTextual) {level fuel : Nat}
    (h : 2 * (l.write level v).length ≤ fuel) : ∃ n, fuel = n + 2 := by
  obtain ⟨c, text, htext, -⟩ := exists_write_eq_cons hv l level
  rw [htext, List.length_cons] at h
  exact ⟨fuel - 2, by omega⟩

/-- An array is read back when its items are. -/
theorem readsBack_array {vs : List JsonValue} (htextual : ∀ v ∈ vs, v.IsTextual)
    (hvs : ∀ v ∈ vs, ReadsBack l v) : ReadsBack l (.array vs) := by
  intro level fuel rest hfuel
  obtain ⟨fuel, rfl⟩ := exists_fuel (.array htextual) hfuel
  rw [Layout.write] at hfuel ⊢
  cases vs with
  | nil =>
    rw [Layout.writeItems]
    rfl
  | cons v vs =>
    obtain ⟨hv, hothers⟩ := List.forall_mem_cons.mp hvs
    obtain ⟨hvTextual, hothersTextual⟩ := List.forall_mem_cons.mp htextual
    rw [Layout.writeItems, Layout.items] at hfuel ⊢
    simp only [List.length_cons, List.length_append] at hfuel
    have hitems := items?_write hv (fun w hw => ⟨hothers w hw, hothersTextual w hw⟩) level fuel
      rest (by omega)
    have hskip := skipSpace_line_write (l := l) hvTextual (level + 1) (level + 1)
      (l.rest level ']' (l.writeItems (level + 1) vs) ++ rest)
    -- no item is taken for the closing bracket
    obtain ⟨c, text, htext, -, hbracket⟩ := exists_write_eq_cons hvTextual l (level + 1)
    rw [htext, List.cons_append] at hskip hitems
    rw [htext, List.cons_append, List.append_assoc, List.append_assoc]
    exact value?_of_items hskip hbracket hitems

/-- An object is read back when the values of its members are. -/
theorem readsBack_object {ms : List (Option String × JsonValue)}
    (keys : ∀ m ∈ ms, m.1.isSome = true) (htextual : ∀ m ∈ ms, m.2.IsTextual)
    (hms : ∀ m ∈ ms, ReadsBack l m.2) : ReadsBack l (.object ms) := by
  intro level fuel rest hfuel
  obtain ⟨fuel, rfl⟩ := exists_fuel (.object keys htextual) hfuel
  rw [Layout.write] at hfuel ⊢
  cases ms with
  | nil =>
    rw [Layout.writeMembers]
    rfl
  | cons m ms =>
    obtain ⟨key, v⟩ := m
    obtain ⟨hkey, hotherKeys⟩ := List.forall_mem_cons.mp keys
    obtain ⟨key, rfl⟩ := Option.isSome_iff_exists.mp hkey
    obtain ⟨(hv : ReadsBack l v), hothers⟩ := List.forall_mem_cons.mp hms
    obtain ⟨(hvTextual : v.IsTextual), hothersTextual⟩ := List.forall_mem_cons.mp htextual
    rw [Layout.writeMembers, Option.getD_some, Layout.items] at hfuel ⊢
    simp only [List.length_cons, List.length_append] at hfuel
    have hmembers := members?_write key hv hvTextual
      (fun w hw => ⟨hotherKeys w hw, hothers w hw, hothersTextual w hw⟩) level fuel rest (by omega)
    simp only [List.cons_append, List.append_assoc]
    refine value?_of_members ?_ hmembers
    rw [skipSpace_append (l.line_isSpace _), skipSpace_cons (by decide)]

/-- **What is written is read back**, in every layout and whatever follows. -/
theorem readsBack (hv : v.IsTextual) (l : Layout) : ReadsBack l v := by
  induction hv with
  | null =>
    intro level fuel rest hfuel
    obtain ⟨fuel, rfl⟩ := exists_fuel .null hfuel
    rw [Layout.write]
    rfl
  | bool b =>
    intro level fuel rest hfuel
    obtain ⟨fuel, rfl⟩ := exists_fuel (.bool b) hfuel
    cases b <;>
    · rw [Layout.write]
      rfl
  | string s =>
    intro level fuel rest hfuel
    obtain ⟨fuel, rfl⟩ := exists_fuel (.string s) hfuel
    rw [Layout.write, Option.getD_some, List.cons_append]
    exact value?_of_string (string?_quotedTail s rest)
  | array each ih => exact readsBack_array each ih
  | object keys each ih => exact readsBack_object keys each ih

/-- **The text of a value is read as the value**, in every layout. -/
theorem parse?_write (hv : v.IsTextual) (l : Layout) :
    parse? (String.ofList (l.write 0 v)) = some v := by
  obtain ⟨c, text, htext, hblank, -⟩ := exists_write_eq_cons hv l 0
  have hskip : skipSpace (l.write 0 v) = l.write 0 v := by rw [htext, skipSpace_cons hblank]
  have hread := readsBack hv l 0 (2 * (l.write 0 v).length + 2) [] (by omega)
  rw [List.append_nil] at hread
  rw [parse?, String.toList_ofList, hskip, hread]
  rfl

/-- The indented form of a value is read as the value. -/
theorem parse?_pretty (hv : v.IsTextual) : parse? (pretty 0 v) = some v := by
  rw [← String.ofList_toList (s := pretty 0 v), toList_pretty, parse?_write hv]

end GoResolver.JsonValue

/-! ## 5. Libraries -/

namespace GoResolver.JsonLibrary

/-- The library that writes in a layout. -/
def inLayout (l : JsonValue.Layout) : JsonLibrary where
  parse? := JsonValue.parse?
  print v := String.ofList (l.write 0 v)

theorem readsBack_inLayout (l : JsonValue.Layout) : (inLayout l).ReadsBack :=
  fun _ hv => JsonValue.parse?_write hv l

theorem readsBack_standard : standard.ReadsBack := fun _ hv => JsonValue.parse?_pretty hv

end GoResolver.JsonLibrary
