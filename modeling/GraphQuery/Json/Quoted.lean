/-!
# Quoted text

The JSON form of a text: between double quotes, with a backslash before quotes and
backslashes, a letter for the common control characters, and four hexadecimal digits
for the others. Main statement: a character without a letter of its own is no quote and
no backslash, so none of these stands alone inside.
-/

namespace GraphQuery.Json

/-- The characters with an escape of their own, each with the letter after the backslash. -/
def shortEscapes : List (Char × Char) := [
  ('"', '"'), ('\\', '\\'), ('\x08', 'b'), ('\x0c', 'f'), ('\n', 'n'), ('\r', 'r'), ('\t', 't')]

/-- Four hexadecimal digits of a small number. -/
def hex4 (n : Nat) : List Char :=
  let digits := Nat.toDigits 16 n
  List.replicate (4 - digits.length) '0' ++ digits

/-- A character as it stands inside a quoted text. -/
def escape (c : Char) : List Char :=
  match shortEscapes.lookup c with
  | some e => ['\\', e]
  | none => if c.toNat < 32 then '\\' :: 'u' :: hex4 c.toNat else [c]

/-- The quoted form of a text. -/
def quotedChars (cs : List Char) : List Char := '"' :: cs.flatMap escape ++ ['"']

def quoted (s : String) : String := String.ofList (quotedChars s.toList)

theorem ne_of_lookup_shortEscapes {c : Char} (h : shortEscapes.lookup c = none) : c ≠ '"' ∧ c ≠ '\\' := by
  constructor <;> rintro rfl <;> exact absurd h (by decide)

end GraphQuery.Json
