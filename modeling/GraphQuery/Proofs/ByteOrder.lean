import Mathlib.Data.List.Lex
import Mathlib.Data.Char

/-!
# The order of texts

Texts are compared character by character. A character that takes more bytes has a
greater first byte, and bytes of characters that take equally many are the digits of
their code points. Main statement: the order of texts is the order of their UTF-8 bytes.
-/

namespace GraphQuery.Text

/-- The UTF-8 bytes of a text. -/
def utf8 (s : String) : List UInt8 := s.toUTF8.data.toList

theorem utf8_eq_flatMap (s : String) : utf8 s = s.toList.flatMap String.utf8EncodeChar := by
  have encoded : s.toUTF8 = s.toList.utf8Encode := String.utf8Encode_toList.symm
  rw [utf8, encoded, List.utf8Encode, List.data_toByteArray]

/-- The bytes of a character decide before anything that follows them. -/
theorem utf8EncodeChar_append_lt {c d : Char} (lt : c < d) (xs ys : List UInt8) :
    String.utf8EncodeChar c ++ xs < String.utf8EncodeChar d ++ ys := by
  have points : c.val.toNat < d.val.toNat := lt
  have top : d.val.toNat < 1114112 := by
    rcases d.valid with low | high
    · exact Nat.lt_trans low (by decide)
    · exact high.2
  unfold String.utf8EncodeChar
  dsimp only
  generalize c.val.toNat = m at points
  generalize d.val.toNat = n at points top
  -- One case for each two lengths. No byte overflows, so what is left compares digits.
  split_ifs <;>
    simp only [List.cons_append, List.nil_append, List.cons_lt_cons_iff, UInt8.lt_iff_toNat_lt,
      ← UInt8.toNat_inj, UInt8.toNat_ofNat', Nat.reducePow] <;>
    simp (disch := omega) only [Nat.mod_eq_of_lt] <;>
    omega

theorem flatMap_utf8EncodeChar_lt {xs ys : List Char} (lt : xs < ys) :
    xs.flatMap String.utf8EncodeChar < ys.flatMap String.utf8EncodeChar := by
  induction xs generalizing ys with
  | nil =>
    cases ys with
    | nil => exact absurd lt (List.lt_irrefl [])
    | cons d ys =>
      cases bytes : (d :: ys).flatMap String.utf8EncodeChar with
      | nil => simp at bytes
      | cons b bs => exact List.nil_lt_cons b bs
  | cons c xs ih =>
    cases ys with
    | nil => exact absurd lt (List.not_lt_nil _)
    | cons d ys =>
      rw [List.flatMap_cons, List.flatMap_cons]
      rcases List.cons_lt_cons_iff.1 lt with first | ⟨rfl, rest⟩
      · exact utf8EncodeChar_append_lt first _ _
      · exact List.append_left_lt (ih rest)

theorem utf8_lt_iff {s t : String} : utf8 s < utf8 t ↔ s < t := by
  have keeps {s t : String} (lt : s < t) : utf8 s < utf8 t := by
    rw [utf8_eq_flatMap, utf8_eq_flatMap]
    exact flatMap_utf8EncodeChar_lt (String.lt_iff.1 lt)
  refine ⟨fun lt => ?_, keeps⟩
  rcases Std.lt_trichotomy (a := s) (b := t) with less | rfl | greater
  · exact less
  · exact absurd lt (List.lt_irrefl _)
  · exact absurd (List.lt_trans lt (keeps greater)) (List.lt_irrefl _)

/-- The order of bytes differs from the one of UTF-16 units, in which U+10000 stands before U+FF61. -/
example : utf8 "\uFF61" < utf8 (String.singleton (Char.ofNat 0x10000)) := by decide

end GraphQuery.Text
