/-!
# Blank characters, trimming, words and lines

Blank means the Unicode property White_Space: the ASCII blanks, the next-line and no-break
characters, and the spaces of the general-punctuation block.  Everything here works on lists of
characters and is a composition of `takeWhile` and `dropWhile`, so what a function keeps is always a
contiguous piece of its input.

`words` cuts at runs of blanks and never yields an empty word.  `lines` cuts at line feeds; a
carriage return right before a line feed belongs to the line's end, and a text that ends in a line
feed has no empty line after it.
-/

namespace GoResolver.Text

/-- The Unicode property White_Space. -/
def isBlank (c : Char) : Bool :=
  let n := c.toNat
  (9 ≤ n && n ≤ 13) || n == 0x20 || n == 0x85 || n == 0xa0 || n == 0x1680 ||
    (0x2000 ≤ n && n ≤ 0x200a) || n == 0x2028 || n == 0x2029 || n == 0x202f || n == 0x205f ||
    n == 0x3000

/-! ## 1. Trimming -/

/-- The text from its first character that is not blank. -/
def trimStart (s : List Char) : List Char := s.dropWhile isBlank

/-- The text up to its last character that is not blank. -/
def trimEnd (s : List Char) : List Char := (s.reverse.dropWhile isBlank).reverse

/-- The text between its first and its last character that are not blank. -/
def trim (s : List Char) : List Char := trimEnd (trimStart s)

@[simp] theorem trimStart_nil : trimStart [] = [] := rfl

@[simp] theorem trimStart_cons_of_blank {c : Char} (s : List Char) (h : isBlank c = true) :
    trimStart (c :: s) = trimStart s := by
  simp [trimStart, h]

@[simp] theorem trimStart_cons_of_not_blank {c : Char} (s : List Char) (h : isBlank c = false) :
    trimStart (c :: s) = c :: s := by
  simp [trimStart, h]

/-! ## 2. Words -/

theorem length_dropWhile_le {α : Type} (p : α → Bool) (s : List α) :
    (s.dropWhile p).length ≤ s.length :=
  (List.dropWhile_sublist p).length_le

/-- The maximal runs of characters that are not blank, in order. -/
def words : List Char → List (List Char)
  | [] => []
  | c :: s =>
    if isBlank c then words s
    else (c :: s.takeWhile (!isBlank ·)) :: words (s.dropWhile (!isBlank ·))
termination_by s => s.length
decreasing_by
  · simp
  · have := length_dropWhile_le (!isBlank ·) s
    simp only [List.length_cons]
    omega

@[simp] theorem words_nil : words [] = [] := by rw [words]

/-! ## 3. Lines -/

/-- The text without one carriage return at its end. -/
def dropFinalReturn (s : List Char) : List Char :=
  if s.getLast? = some '\r' then s.dropLast else s

/-- The lines of a text.  `pending` holds the characters of the line being read, last one first. -/
def linesFrom (pending : List Char) : List Char → List (List Char)
  | [] => if pending.isEmpty then [] else [pending.reverse]
  | c :: s =>
    if c = '\n' then dropFinalReturn pending.reverse :: linesFrom [] s
    else linesFrom (c :: pending) s

/-- The lines of a text, without the line feeds that end them. -/
def lines (s : List Char) : List (List Char) := linesFrom [] s

@[simp] theorem lines_nil : lines [] = [] := rfl

end GoResolver.Text
