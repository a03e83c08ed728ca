import GraphQuery.Text.Ranges

/-!
# Blanks

Blank characters, texts without blanks at their ends, and the words and lines of a
text. Main statement: trimming a text takes blanks away and nothing else.
-/

namespace GraphQuery.Text

/-! ## The class -/

/-- The code points with the Unicode property White_Space. -/
def blankRanges : Ranges := [
  (9, 13), (32, 32), (133, 133), (160, 160), (5760, 5760), (8192, 8202), (8232, 8233), (8239, 8239),
  (8287, 8287), (12288, 12288)]

def isBlank (c : Char) : Bool := blankRanges.holds c

theorem isBlank_space : isBlank ' ' = true := by decide

theorem isBlank_eq_false_of_isDigit {c : Char} (digit : c.isDigit = true) : isBlank c = false := by
  have low : 48 ≤ c.toNat ∧ c.toNat ≤ 57 := by
    simpa [Char.isDigit, UInt32.le_iff_toNat_le] using digit
  rw [Bool.eq_false_iff, isBlank, Ne, Ranges.holds_iff]
  rintro ⟨r, member, above, below⟩
  have apart : ∀ r ∈ blankRanges, 57 < r.1 ∨ r.2 < 48 := by decide
  have := apart r member
  omega

/-! ## Ends of a text -/

/-- The text from its first character that is not blank. -/
def trimStart (cs : List Char) : List Char := cs.dropWhile isBlank

/-- The text up to its last character that is not blank. -/
def trimEnd (cs : List Char) : List Char := (trimStart cs.reverse).reverse

/-- The text without the blanks at both ends. -/
def trim (cs : List Char) : List Char := trimEnd (trimStart cs)

theorem trimStart_cons_of_blank {c : Char} (cs : List Char) (h : isBlank c = true) :
    trimStart (c :: cs) = trimStart cs := by
  simp [trimStart, h]

theorem trimStart_cons_of_not_blank {c : Char} (cs : List Char) (h : isBlank c = false) :
    trimStart (c :: cs) = c :: cs := by
  simp [trimStart, h]

theorem mem_of_mem_trimStart {c : Char} {cs : List Char} (h : c ∈ trimStart cs) : c ∈ cs :=
  (List.dropWhile_sublist _).subset h

theorem mem_of_mem_trim {c : Char} {cs : List Char} (h : c ∈ trim cs) : c ∈ cs := by
  have := mem_of_mem_trimStart (List.mem_reverse.1 h)
  exact mem_of_mem_trimStart (List.mem_reverse.1 this)

section Count

variable {c : Char} (filled : isBlank c = false) (cs : List Char)

include filled

/-- Trimming keeps each character that is no blank as often as it stands in the text. -/
theorem count_trimStart : (trimStart cs).count c = cs.count c := by
  have blanks : (cs.takeWhile isBlank).count c = 0 := by
    refine List.count_eq_zero.2 fun member => ?_
    have blank := List.all_eq_true.1 List.all_takeWhile _ member
    rw [filled] at blank
    cases blank
  have parts : cs.takeWhile isBlank ++ trimStart cs = cs := List.takeWhile_append_dropWhile
  have count : (cs.takeWhile isBlank ++ trimStart cs).count c = _ := List.count_append
  rw [parts, blanks] at count
  omega

theorem count_trim : (trim cs).count c = cs.count c := by
  rw [trim, trimEnd, List.count_reverse, count_trimStart filled, List.count_reverse, count_trimStart filled]

end Count

/-! ## Words and lines -/

/-- The longest pieces without blanks, in order. -/
def words (cs : List Char) : List (List Char) := (cs.splitOnP isBlank).filter (!·.isEmpty)

/-- The pieces between line feeds. -/
def lines (cs : List Char) : List (List Char) := cs.splitOn '\n'

/-- A text on one line, with its words one space apart. -/
def onOneLine (s : String) : String := String.ofList ([' '].intercalate (words s.toList))

end GraphQuery.Text
