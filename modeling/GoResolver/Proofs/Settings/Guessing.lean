import GoResolver.Proofs.Settings.PlainTexts
import GoResolver.Proofs.Settings.Variables
import GoResolver.Proofs.Text.Numbers

/-!
# Plain texts as values

What the text of a variable denotes is found by reading it as a value.  A plain text has no
brackets, quotes or separators in it, so it is read as a truth value or as a bare one
(`valueOf_of_isPlain`), and a bare one is a number exactly when it looks like one: `float?` takes
fractions and nothing else (`isSome_float?_iff`), and `whole?` takes whole numbers and nothing else
(`whole?_eq_some_iff`).
-/

namespace GoResolver.Variable

variable {s : List Char}

/-! ## 1. Characters -/

/-- Plain characters are ASCII. -/
theorem toNat_lt_of_isPlain {c : Char} (h : isPlain c = true) : c.toNat < 128 := by
  -- capitals, small letters and digits end before the last of ASCII
  have hbelow : ∀ {last : UInt32}, c.val ≤ last → last.toNat < 128 → c.toNat < 128 :=
    fun hc hlast => Nat.lt_of_le_of_lt (UInt32.le_iff_toNat_le.mp hc) hlast
  rw [isPlain, Bool.or_eq_true, beq_iff_eq] at h
  rcases h with h | rfl
  · have hkinds : ((c.isUpper || c.isLower) || c.isDigit) = true := h
    rw [Bool.or_eq_true, Bool.or_eq_true] at hkinds
    rcases hkinds with (hupper | hlower) | hdigit
    · have hrange : c.val ≥ 'A'.val ∧ c.val ≤ 'Z'.val := of_decide_eq_true hupper
      exact hbelow hrange.2 (by decide)
    · have hlast : c.val ≤ 'z'.val := of_decide_eq_true (Bool.and_eq_true_iff.mp hlower).2
      exact hbelow hlast (by decide)
    · have hlast : c.val ≤ '9'.val := of_decide_eq_true (Bool.and_eq_true_iff.mp hdigit).2
      exact hbelow hlast (by decide)
  · decide

/-- No plain character has a meaning of its own in the language of values. -/
theorem of_isPlain {c : Char} (h : isPlain c = true) :
    isSpace c = false ∧ isSeparator c = false ∧ Text.isBlank c = false ∧
      c ∉ ['-', '+', '\x7b', '[', '"', '\''] :=
  of_ascii (P := fun c => isPlain c = true → isSpace c = false ∧ isSeparator c = false ∧
    Text.isBlank c = false ∧ c ∉ ['-', '+', '\x7b', '[', '"', '\'']) (by decide +kernel)
    (toNat_lt_of_isPlain h) h

/-! ## 2. Numbers -/

theorem unsign_of_plain (h : ∀ c ∈ s, isPlain c = true) : unsign s = (false, s) := by
  unfold unsign
  split
  · exact absurd (h '-' List.mem_cons_self) (by decide)
  · exact absurd (h '+' List.mem_cons_self) (by decide)
  · rfl

theorem isSome_natural?_iff : (Text.natural? s).isSome = true ↔
    s ≠ [] ∧ ∀ d ∈ s, Text.isDigit d = true := by
  rw [Text.natural?, Option.isSome_ite, List.all_eq_true]

theorem isSome_exponent?_iff (h : ∀ c ∈ s, isPlain c = true) :
    (exponent? s).isSome = true ↔ IsExponent s := by
  cases s with
  | nil => exact ⟨fun _ => .absent, fun _ => rfl⟩
  | cons c s =>
    have hrest : unsign s = (false, s) := unsign_of_plain (List.forall_mem_cons.mp h).2
    have hexponent : (exponent? (c :: s)).isSome = true ↔
        (c = 'e' ∨ c = 'E') ∧ (Text.natural? s).isSome = true := by
      rw [exponent?, hrest]
      split
      · next he =>
        rw [and_iff_right he]
        cases Text.natural? s <;> exact Iff.rfl
      · next he => exact ⟨fun h => absurd h Bool.false_ne_true, fun h => absurd h.1 he⟩
    rw [hexponent, isSome_natural?_iff]
    constructor
    · rintro ⟨he, hne, hdigits⟩
      exact .present he hne hdigits
    · rintro (_ | ⟨he, hne, hdigits⟩)
      exact ⟨he, hne, hdigits⟩

/-- A text is digits, and something behind them that does not go on with a digit. -/
theorem exists_digits_append (s : List Char) :
    ∃ digits rest, s = digits ++ rest ∧ (∀ d ∈ digits, Text.isDigit d = true) ∧
      ∀ c ∈ rest.head?, Text.isDigit c = false := by
  refine ⟨_, _, List.takeWhile_append_dropWhile.symm, fun d => List.mem_takeWhile_imp,
    fun c hc => ?_⟩
  have hstop := List.head?_dropWhile_not Text.isDigit s
  rw [Option.mem_def.mp hc] at hstop
  simpa using hstop

/-- Around a point, digits on one side are enough, but nothing other than an exponent may follow. -/
theorem isSome_float?_append {whole part exponent : List Char}
    (h : ∀ c ∈ whole ++ '.' :: (part ++ exponent), isPlain c = true)
    (hwhole : ∀ d ∈ whole, Text.isDigit d = true) (hpart : ∀ d ∈ part, Text.isDigit d = true)
    (hstops : ∀ c ∈ exponent.head?, Text.isDigit c = false) :
    (float? (whole ++ '.' :: (part ++ exponent))).isSome = true ↔
      (whole ≠ [] ∨ part ≠ []) ∧ IsExponent exponent := by
  have hpoint : ∀ c ∈ ('.' :: (part ++ exponent)).head?, Text.isDigit c = false := by
    intro c hc
    obtain rfl := Option.some_inj.mp hc
    rfl
  obtain ⟨htake, hdrop⟩ := Text.takeWhile_append_of_stops hwhole hpoint
  obtain ⟨htake', hdrop'⟩ := Text.takeWhile_append_of_stops hpart hstops
  have hrest : ∀ c ∈ exponent, isPlain c = true := fun c hc =>
    h c (List.mem_append_right _ (List.mem_cons_of_mem _ (List.mem_append_right _ hc)))
  have hempty : whole.isEmpty = true ∧ part.isEmpty = true ↔ ¬ (whole ≠ [] ∨ part ≠ []) := by
    rw [List.isEmpty_iff, List.isEmpty_iff, not_or, not_ne_iff, not_ne_iff]
  rw [float?, unsign_of_plain h]
  simp only [htake, hdrop, htake', hdrop']
  by_cases hsome : whole ≠ [] ∨ part ≠ []
  · rw [if_neg (hempty.not.mpr (not_not.mpr hsome)), Option.isSome_map,
      isSome_exponent?_iff hrest, and_iff_right hsome]
  · rw [if_pos (hempty.mpr hsome)]
    exact ⟨fun h => absurd h Bool.false_ne_true, fun h => absurd h.1 hsome⟩

/-- Digits around a point are taken for a floating-point number. -/
theorem isSome_float?_iff (h : ∀ c ∈ s, isPlain c = true) :
    (float? s).isSome = true ↔ IsFraction s := by
  constructor
  · intro hfloat
    obtain ⟨whole, rest, rfl, hwhole, hrest⟩ := exists_digits_append s
    obtain ⟨r, rfl⟩ : ∃ r, rest = '.' :: r := by
      rw [float?, unsign_of_plain h] at hfloat
      dsimp only at hfloat
      rw [(Text.takeWhile_append_of_stops hwhole hrest).2] at hfloat
      split at hfloat
      · exact ⟨_, rfl⟩
      · cases hfloat
    obtain ⟨part, exponent, rfl, hpart, hstops⟩ := exists_digits_append r
    obtain ⟨hsome, hexponent⟩ := (isSome_float?_append h hwhole hpart hstops).mp hfloat
    exact .intro hwhole hpart hsome hexponent
  · rintro ⟨hwhole, hpart, hsome, hexponent⟩
    exact (isSome_float?_append h hwhole hpart hexponent.stops).mpr ⟨hsome, hexponent⟩

theorem whole?_eq_some_iff (h : ∀ c ∈ s, isPlain c = true) {v : Setting} :
    whole? s = some v ↔ IsWhole s ∧ v = .unsigned (Text.value 10 s) := by
  have hplus : Text.dropPlus s = s := by
    unfold Text.dropPlus
    split
    · exact absurd (h '+' List.mem_cons_self) (by decide)
    · rfl
  unfold whole?
  split
  · exact absurd (h '-' List.mem_cons_self) (by decide)
  · rw [hplus, Option.map_eq_some_iff]
    constructor
    · rintro ⟨n, hn, rfl⟩
      obtain ⟨hnatural, hfits⟩ := Option.filter_eq_some_iff.mp hn
      have hnumeral := Text.natural?_eq_some_iff.mp hnatural
      rw [← hnumeral.value_eq] at hfits ⊢
      exact ⟨⟨hnumeral.all_isDigit.1, hnumeral.all_isDigit.2, of_decide_eq_true hfits⟩, rfl⟩
    · rintro ⟨⟨hne, hdigits, hfits⟩, rfl⟩
      have hnumeral := Text.isNumeral_value hne hdigits
      exact ⟨Text.value 10 s, Option.filter_eq_some_iff.mpr
        ⟨Text.natural?_eq_some_iff.mpr hnumeral, decide_eq_true hfits⟩, rfl⟩

/-- A bare whole number denotes itself. -/
theorem bare_of_isWhole (h : IsWhole s) : bare s = .unsigned (Text.value 10 s) := by
  have hs := (isPlain_of_number (.inl h)).2
  have hfloat : float? s = none := by
    rw [← Option.not_isSome_iff_eq_none, isSome_float?_iff hs]
    exact h.not_isFraction
  rw [bare, hfloat, (whole?_eq_some_iff hs).mpr ⟨h, rfl⟩]
  rfl

/-- A bare fraction denotes a floating-point number. -/
theorem bare_of_isFraction (h : IsFraction s) : ∃ x, bare s = .float x := by
  obtain ⟨x, hx⟩ := Option.isSome_iff_exists.mp
    ((isSome_float?_iff (isPlain_of_number (.inr h)).2).mpr h)
  exact ⟨x, by rw [bare, hx]; rfl⟩

/-- Any other bare text denotes itself. -/
theorem bare_eq_string (hs : ∀ c ∈ s, isPlain c = true) (h : ¬ (IsWhole s ∨ IsFraction s)) :
    bare s = .string (String.ofList s) := by
  rw [not_or] at h
  have hwhole : whole? s = none :=
    Option.eq_none_iff_forall_ne_some.mpr fun v hv => h.1 ((whole?_eq_some_iff hs).mp hv).1
  rw [← isSome_float?_iff hs, Option.not_isSome_iff_eq_none] at h
  rw [bare, h.2, hwhole]
  rfl

/-! ## 3. Values -/

/-- A plain text that does not start with a truth value is bare. -/
theorem coreWith?_of_isPlain (h : IsPlain s) (inner : Option Reader) :
    (∃ (b : Bool) (r : List Char), s = (toString b).toList ++ r ∧
      coreWith? inner s = some (.boolean b, r)) ∨
    (∀ b : Bool, s ≠ (toString b).toList) ∧ coreWith? inner s = some (bare s, []) := by
  have hnot : ∀ c ∈ ['-', '+', '\x7b', '[', '"', '\''], ∀ r, s ≠ c :: r := by
    rintro c hc r rfl
    exact (of_isPlain (h.2 c List.mem_cons_self)).2.2.2 hc
  rw [coreWith?.eq_def]
  split
  · next r => exact .inl ⟨true, r, rfl, rfl⟩
  · next r => exact .inl ⟨false, r, rfl, rfl⟩
  · next r => exact absurd rfl (hnot '\x7b' (by decide) r)
  · next r => exact absurd rfl (hnot '[' (by decide) r)
  · next r => exact absurd rfl (hnot '"' (by decide) r)
  · next r => exact absurd rfl (hnot '\'' (by decide) r)
  · next htrue hfalse _ _ _ _ =>
    refine .inr ⟨?_, ?_⟩
    · rintro (_ | _) rfl
      · exact hfalse [] rfl
      · exact htrue [] rfl
    · have hkept : ∀ c ∈ s, (!isSeparator c) = true := by
        intro c hc
        rw [(of_isPlain (h.2 c hc)).2.1]
        rfl
      rw [List.takeWhile_eq_self_iff.mpr hkept, List.dropWhile_eq_nil_iff.mpr hkept,
        Text.trim_of_forall_not_blank fun c hc => (of_isPlain (h.2 c hc)).2.2.1]

theorem exists_value?_eq (room : Nat) : ∃ inner, value? room = valueWith? inner := by
  cases room with
  | zero => exact ⟨none, rfl⟩
  | succ room => exact ⟨some (value? room), rfl⟩

/-- **A plain text denotes a truth value, or what it denotes as a bare text.** -/
theorem valueOf_of_isPlain {text : String} (h : IsPlain text.toList) :
    (∃ b : Bool, text.toList = (toString b).toList ∧ valueOf text = .boolean b) ∨
    (∀ b : Bool, text.toList ≠ (toString b).toList) ∧ valueOf text = bare text.toList := by
  obtain ⟨inner, hinner⟩ := exists_value?_eq text.toList.length
  have hskip : ∀ r, (∀ c ∈ r, isPlain c = true) → skipSpace r = r := fun r hr =>
    Text.dropWhile_of_forall fun c hc => (of_isPlain (hr c hc)).1
  rw [valueOf, hinner, valueWith?, hskip _ h.2]
  rcases coreWith?_of_isPlain h inner with ⟨b, r, hs, hcore⟩ | ⟨hnot, hcore⟩
  · have hr : skipSpace r = r := hskip r fun c hc => h.2 c (hs ▸ List.mem_append_right _ hc)
    rw [hcore, Option.map_some, hr]
    cases r with
    | nil => exact .inl ⟨b, by rw [hs, List.append_nil], rfl⟩
    | cons c r =>
      -- something follows the truth value, and then it is not one
      have hbare : bare text.toList = .string text := by
        rw [bare_eq_string h.2 (hs ▸ not_number_of_truth b (c :: r)), String.ofList_toList]
      refine .inr ⟨fun b' hb' => ?_, hbare.symm⟩
      rw [hs] at hb'
      cases b <;> cases b' <;> cases hb'
  · rw [hcore, Option.map_some]
    exact .inr ⟨hnot, rfl⟩

end GoResolver.Variable
