import GoResolver.Text.Number
import Mathlib.Data.List.Induction

/-!
# Numbers and their numerals

A number has one decimal text.  A reader takes more than that: zeros may stand in front of it, and
where 32 bits are read, a plus sign before these.

* `value_digits`, `digits_cases`: the digits of a number denote it, and no zero stands in front of
  them.
* `isNumeral_value`: any other run of digits is the text of its value behind zeros.  The induction
  is on the last digit, because that is where the digits of a number grow; whether there is anything
  but zeros before it makes the two cases.
* `word32?_eq_some_iff`: so these are the texts that are read as a number of 32 bits.
-/

namespace GoResolver.Text

/-! ## 1. Digits -/

theorem isDigit_iff {c : Char} : isDigit c = true ↔ 48 ≤ c.toNat ∧ c.toNat ≤ 57 := by
  rw [isDigit, Bool.and_eq_true, decide_eq_true_eq, decide_eq_true_eq]
  exact Iff.rfl

theorem digit?_of_isDigit {c : Char} (h : isDigit c = true) :
    digit? c = some (c.toNat - '0'.toNat) := by
  rw [isDigit, Bool.and_eq_true, decide_eq_true_eq, decide_eq_true_eq] at h
  rw [digit?, if_pos h]

theorem isDigitOf_ten {c : Char} (h : isDigit c = true) : isDigitOf 10 c = true := by
  rw [isDigitOf, digit?_of_isDigit h]
  rw [isDigit_iff] at h
  have hzero : '0'.toNat = 48 := rfl
  rw [decide_eq_true_eq, hzero]
  omega

/-- A digit is the text of its value. -/
theorem digits_of_isDigit {c : Char} (h : isDigit c = true) :
    digits 10 (c.toNat - '0'.toNat) = [c] := by
  rw [isDigit_iff] at h
  have hzero : '0'.toNat = 48 := rfl
  have hlt : c.toNat - '0'.toNat < 10 := by
    rw [hzero]
    omega
  have hchar : Nat.digitChar (c.toNat - '0'.toNat) = c := by
    rw [← Char.toNat_inj, Nat.toNat_digitChar_of_lt_ten hlt, hzero]
    omega
  rw [digits, Nat.toDigits_of_lt_base hlt, hchar]

/-- **Digits denote what they denote in the positional system.** -/
theorem value_eq_ofDigitChars {ds : List Char} (hds : ∀ d ∈ ds, isDigit d = true) :
    value 10 ds = Nat.ofDigitChars 10 ds 0 := by
  have hfold : ∀ acc, valueFrom 10 acc ds = Nat.ofDigitChars 10 ds acc := by
    induction ds with
    | nil => exact fun acc => rfl
    | cons d ds ih =>
      intro acc
      obtain ⟨hd, hds⟩ := List.forall_mem_cons.mp hds
      have hstep : valueFrom 10 acc (d :: ds) =
          valueFrom 10 (acc * 10 + (digit? d).getD 0) ds := rfl
      rw [hstep, ih hds, digit?_of_isDigit hd, Option.getD_some, Nat.mul_comm,
        Nat.ofDigitChars_cons]
  exact hfold 0

/-! ## 2. The digits of a number -/

theorem isDigit_of_mem_digits {n : Nat} {c : Char} (h : c ∈ digits 10 n) : isDigit c = true := by
  have hdigit : c.isDigit = true := Nat.isDigit_of_mem_toDigits (by decide) (by decide) h
  simp only [Char.isDigit, Bool.and_eq_true, decide_eq_true_eq] at hdigit
  simp only [isDigit, Bool.and_eq_true, decide_eq_true_eq]
  exact hdigit

/-- The digits of a number denote it. -/
theorem value_digits (n : Nat) : value 10 (digits 10 n) = n := by
  rw [value_eq_ofDigitChars fun _ hd => isDigit_of_mem_digits hd]
  exact Nat.ofDigitChars_ten_toDigits

/-- No zero stands in front of the digits of a number. -/
theorem digits_cases (n : Nat) :
    digits 10 n = ['0'] ∨ ∃ c ds, digits 10 n = c :: ds ∧ c ≠ '0' := by
  have hpositive : ∀ m, 0 < m → ∃ c ds, Nat.toDigits 10 m = c :: ds ∧ c ≠ '0' := by
    intro m
    induction m using Nat.strongRecOn with
    | ind m ih =>
      intro hm
      by_cases hsmall : m < 10
      · refine ⟨Nat.digitChar m, [], Nat.toDigits_of_lt_base hsmall, ?_⟩
        rw [ne_eq, Nat.digitChar_eq_zero]
        omega
      · obtain ⟨c, ds, hdigits, hc⟩ := ih (m / 10) (by omega) (by omega)
        refine ⟨c, ds ++ [Nat.digitChar (m % 10)], ?_, hc⟩
        rw [Nat.toDigits_of_base_le (by decide) (by omega), hdigits, List.cons_append]
  rcases Nat.eq_zero_or_pos n with rfl | hn
  · exact .inl (Nat.toDigits_zero 10)
  · exact .inr (hpositive n hn)

/-! ## 3. Numerals -/

/-- Whether a text is a numeral: the digits of a number, with zeros in front of them or none. -/
def IsNumeral (s : List Char) (n : Nat) : Prop :=
  ∃ zeros, s = List.replicate zeros '0' ++ digits 10 n

theorem isNumeral_digits (n : Nat) : IsNumeral (digits 10 n) n := ⟨0, rfl⟩

/-- A numeral has digits only, and at least one. -/
theorem IsNumeral.all_isDigit {s : List Char} {n : Nat} (h : IsNumeral s n) :
    s ≠ [] ∧ ∀ c ∈ s, isDigit c = true := by
  obtain ⟨zeros, rfl⟩ := h
  refine ⟨List.append_ne_nil_of_right_ne_nil _ Nat.toDigits_ne_nil, fun c hc => ?_⟩
  rcases List.mem_append.mp hc with hc | hc
  · rw [List.eq_of_mem_replicate hc]
    rfl
  · exact isDigit_of_mem_digits hc

/-- Zeros in front count nothing. -/
theorem IsNumeral.value_eq {s : List Char} {n : Nat} (h : IsNumeral s n) : value 10 s = n := by
  obtain ⟨zeros, rfl⟩ := h
  induction zeros with
  | zero => exact value_digits n
  | succ zeros ih =>
    rw [List.replicate_succ, List.cons_append]
    exact ih

/-- **Every run of digits is a numeral of its value.** -/
theorem isNumeral_value {ds : List Char} (hne : ds ≠ []) (hds : ∀ d ∈ ds, isDigit d = true) :
    IsNumeral ds (value 10 ds) := by
  rw [value_eq_ofDigitChars hds]
  induction ds using List.reverseRecOn with
  | nil => exact absurd rfl hne
  | append_singleton front d ih =>
    rw [List.forall_mem_append, List.forall_mem_singleton] at hds
    obtain ⟨hfront, hd⟩ := hds
    have hlast := digits_of_isDigit hd
    have hvalue : Nat.ofDigitChars 10 (front ++ [d]) 0 =
        10 * Nat.ofDigitChars 10 front 0 + (d.toNat - '0'.toNat) := by
      rw [Nat.ofDigitChars_append, Nat.ofDigitChars_cons]
      rfl
    rw [hvalue]
    by_cases hnil : front = []
    · subst hnil
      refine ⟨0, ?_⟩
      have hnone : Nat.ofDigitChars 10 [] 0 = 0 := rfl
      rw [hnone, Nat.mul_zero, Nat.zero_add, hlast]
      rfl
    obtain ⟨zeros, hzeros⟩ := ih hnil hfront
    rcases Nat.eq_zero_or_pos (Nat.ofDigitChars 10 front 0) with hzero | hpos
    · -- nothing but zeros stands before the last digit
      refine ⟨zeros + 1, ?_⟩
      have hdigits : digits 10 0 = ['0'] := rfl
      rw [hzero, hdigits] at hzeros
      rw [hzero, Nat.mul_zero, Nat.zero_add, hlast, List.replicate_succ', ← hzeros]
    · refine ⟨zeros, ?_⟩
      have hlt : d.toNat - '0'.toNat < 10 := by
        rw [isDigit_iff] at hd
        have hzero : '0'.toNat = 48 := rfl
        omega
      have hgrow := Nat.toDigits_append_toDigits (b := 10) (by decide) hpos hlt
      rw [digits] at hlast
      rw [digits, ← hgrow, hlast, ← List.append_assoc]
      exact congrArg (· ++ [d]) hzeros

/-- A text is read as a number when it is a numeral of the number. -/
theorem natural?_eq_some_iff {s : List Char} {n : Nat} : natural? s = some n ↔ IsNumeral s n := by
  rw [natural?, Option.ite_none_right_eq_some, List.all_eq_true, Option.some_inj]
  constructor
  · rintro ⟨⟨hne, hds⟩, rfl⟩
    exact isNumeral_value hne hds
  · intro h
    exact ⟨h.all_isDigit, h.value_eq⟩

/-- A numeral does not start with a sign. -/
theorem IsNumeral.dropPlus_eq {s : List Char} {n : Nat} (h : IsNumeral s n) : dropPlus s = s := by
  unfold dropPlus
  split
  · next r =>
    have hplus : isDigit '+' = true := h.all_isDigit.2 '+' List.mem_cons_self
    cases hplus
  · rfl

/-- **The texts that are read as a number of 32 bits** are the numerals of the number, alone or
behind a plus sign. -/
theorem word32?_eq_some_iff {s : List Char} {n : Nat} :
    word32? s = some n ↔
      n < word32Limit ∧ ∃ plus r, (plus = [] ∨ plus = ['+']) ∧ s = plus ++ r ∧ IsNumeral r n := by
  rw [word32?, Option.filter_eq_some_iff, natural?_eq_some_iff, decide_eq_true_eq, and_comm]
  refine and_congr_right fun _ => ⟨fun h => ?_, ?_⟩
  · by_cases hplus : ∃ r, s = '+' :: r
    · obtain ⟨r, rfl⟩ := hplus
      exact ⟨['+'], r, .inr rfl, rfl, h⟩
    · have hnone : dropPlus s = s := by
        unfold dropPlus
        split
        · next r => exact absurd ⟨r, rfl⟩ hplus
        · rfl
      rw [hnone] at h
      exact ⟨[], s, .inl rfl, rfl, h⟩
  · rintro ⟨plus, r, rfl | rfl, rfl, hr⟩
    · rwa [hr.dropPlus_eq]
    · exact hr

end GoResolver.Text
