import GoResolver.Settings.Layer
import GoResolver.Text.Number

/-!
# Plain texts

The text of a variable says nothing about what the setting is for, so whoever reads it has to guess.
This module describes the guesses for texts of letters, digits and points (`IsPlain`) without
reading them: `true` and `false` are truth values, digits are a number if it has at most 64 bits,
digits around a point are a floating-point number, perhaps with an exponent behind them, and all
other plain texts stand for themselves (`IsGuessed`).
-/

namespace GoResolver.Variable

/-- The ASCII letters and digits, and the point. -/
def isPlain (c : Char) : Bool := c.isAlphanum || c == '.'

/-- Whether a text is made of letters, digits and points, and of at least one of them. -/
def IsPlain (s : List Char) : Prop := s ≠ [] ∧ ∀ c ∈ s, isPlain c = true

instance (s : List Char) : Decidable (IsPlain s) :=
  decidable_of_iff (s ≠ [] ∧ s.all isPlain = true) (by rw [IsPlain, List.all_eq_true])

/-- What may stand behind a number with a point: nothing, or an `e` and a number. -/
inductive IsExponent : List Char → Prop
  | absent : IsExponent []
  | present {e : Char} {digits : List Char} (he : e = 'e' ∨ e = 'E') (hsome : digits ≠ [])
    (hdigits : ∀ d ∈ digits, Text.isDigit d = true) : IsExponent (e :: digits)

/-- Whether a plain text is taken for a floating-point number: digits around a point, on one side of
it or on both, and perhaps an exponent. -/
inductive IsFraction : List Char → Prop
  | intro {whole part exponent : List Char} (hwhole : ∀ d ∈ whole, Text.isDigit d = true)
    (hpart : ∀ d ∈ part, Text.isDigit d = true) (hsome : whole ≠ [] ∨ part ≠ [])
    (hexponent : IsExponent exponent) : IsFraction (whole ++ '.' :: (part ++ exponent))

/-- Whether a plain text is taken for a whole number: digits of a number of 64 bits. -/
def IsWhole (s : List Char) : Prop :=
  s ≠ [] ∧ (∀ d ∈ s, Text.isDigit d = true) ∧ Text.value 10 s < Text.word64Limit

instance (s : List Char) : Decidable (IsWhole s) :=
  decidable_of_iff (s ≠ [] ∧ s.all Text.isDigit = true ∧ Text.value 10 s < Text.word64Limit)
    (by rw [IsWhole, List.all_eq_true])

/-- Whether a plain text is taken for something else than a text. -/
def IsGuessed (s : List Char) : Prop :=
  (∃ b : Bool, s = (toString b).toList) ∨ IsWhole s ∨ IsFraction s

variable {s : List Char}

/-- An exponent does not go on the digits before it. -/
theorem IsExponent.stops (h : IsExponent s) : ∀ c ∈ s.head?, Text.isDigit c = false := by
  cases h with
  | absent =>
    intro c hc
    cases hc
  | present he =>
    intro c hc
    obtain rfl := Option.some_inj.mp hc
    rcases he with rfl | rfl <;> rfl

/-- What is taken for a number starts with a digit or a point. -/
theorem head_of_number (h : IsWhole s ∨ IsFraction s) :
    ∃ c ∈ s.head?, Text.isDigit c = true ∨ c = '.' := by
  rcases h with ⟨hsome, hdigits, -⟩ | ⟨hwhole, -, -, -⟩
  · obtain ⟨c, r, rfl⟩ := List.exists_cons_of_ne_nil hsome
    exact ⟨c, rfl, .inl (hdigits c List.mem_cons_self)⟩
  · next whole part exponent =>
    cases whole with
    | nil => exact ⟨'.', rfl, .inr rfl⟩
    | cons c whole => exact ⟨c, rfl, .inl (hwhole c List.mem_cons_self)⟩

/-- So it is not taken for a truth value too, and neither is any longer text that starts with one.
-/
theorem not_number_of_truth (b : Bool) (rest : List Char) :
    ¬ (IsWhole ((toString b).toList ++ rest) ∨ IsFraction ((toString b).toList ++ rest)) := by
  intro h
  obtain ⟨c, hc, hkind⟩ := head_of_number h
  cases b <;> cases hc <;> rcases hkind with hkind | hkind <;> cases hkind

/-- There is a point in what is taken for a floating-point number, and none in a whole number. -/
theorem IsWhole.not_isFraction (h : IsWhole s) : ¬ IsFraction s := by
  rintro ⟨-, -, -, -⟩
  have hpoint : Text.isDigit '.' = true :=
    h.2.1 '.' (List.mem_append_right _ List.mem_cons_self)
  cases hpoint

theorem isPlain_of_isDigit {c : Char} (h : Text.isDigit c = true) : isPlain c = true := by
  have hdigit : c.isDigit = true := h
  rw [isPlain, Char.isAlphanum, hdigit, Bool.or_true, Bool.true_or]

/-- What is taken for a number is plain. -/
theorem isPlain_of_number (h : IsWhole s ∨ IsFraction s) : IsPlain s := by
  rcases h with ⟨hsome, hdigits, -⟩ | ⟨hwhole, hpart, -, hexponent⟩
  · exact ⟨hsome, fun c hc => isPlain_of_isDigit (hdigits c hc)⟩
  · refine ⟨by simp, fun c hc => ?_⟩
    rcases List.mem_append.mp hc with hc | hc
    · exact isPlain_of_isDigit (hwhole c hc)
    rcases List.mem_cons.mp hc with rfl | hc
    · rfl
    rcases List.mem_append.mp hc with hc | hc
    · exact isPlain_of_isDigit (hpart c hc)
    cases hexponent with
    | absent => cases hc
    | present he _ hdigits =>
      rcases List.mem_cons.mp hc with rfl | hc
      · rcases he with rfl | rfl <;> rfl
      · exact isPlain_of_isDigit (hdigits c hc)

end GoResolver.Variable
