import GraphQuery.Json.Reader
import Mathlib.Data.List.Basic

/-!
# Reading quoted texts

What a reader of documents makes of quoted texts. The reader goes through the bytes of a
document, so a character of the text comes back as the bytes it is written with, one by
one, or as the unit of its escape. Main statement: every text is read back from its
quoted form.
-/

namespace GraphQuery.Json

/-! ## Bytes as characters -/

/-- The value that a text stands for. -/
def ofChars? (cs : List Char) : Option Json := ofBytes? (cs.flatMap String.utf8EncodeChar)

/-- A byte as the reader sees it. -/
def ofByte (b : UInt8) : Char := Char.ofNat b.toNat

/-- A text as the reader sees it: for each byte the character of the same number. -/
def readable (cs : List Char) : List Char := (cs.flatMap String.utf8EncodeChar).map ofByte

theorem readable_append (cs ds : List Char) : readable (cs ++ ds) = readable cs ++ readable ds := by
  simp [readable]

theorem readable_singleton (c : Char) : readable [c] = (String.utf8EncodeChar c).map ofByte := by
  simp [readable]

theorem toNat_ofByte (b : UInt8) : (ofByte b).toNat = b.toNat := by
  have valid : b.toNat.isValidChar := .inl (Nat.lt_trans b.toNat_lt (by decide))
  rw [ofByte, Char.ofNat, dif_pos valid]
  rfl

theorem toUInt8_ofByte (b : UInt8) : (ofByte b).toUInt8 = b := by
  show UInt8.ofNat (ofByte b).toNat = b
  rw [toNat_ofByte, UInt8.ofNat_toNat]

theorem utf8EncodeChar_ascii {c : Char} (ascii : c.toNat < 128) : String.utf8EncodeChar c = [UInt8.ofNat c.toNat] := by
  unfold String.utf8EncodeChar
  exact if_pos (Nat.le_of_lt_succ ascii)

theorem ofByte_ascii {c : Char} (ascii : c.toNat < 128) : ofByte (UInt8.ofNat c.toNat) = c := by
  rw [ofByte, UInt8.toNat_ofNat', Nat.mod_eq_of_lt (Nat.lt_trans ascii (by decide)), Char.ofNat_toNat]

theorem readable_ascii {cs : List Char} (ascii : ∀ c ∈ cs, c.toNat < 128) : readable cs = cs := by
  induction cs with
  | nil => rfl
  | cons c cs ih =>
    have first := ascii c (by simp)
    rw [← List.singleton_append, readable_append, ih fun d member => ascii d (by simp [member]), readable_singleton,
      utf8EncodeChar_ascii first, List.map_singleton, ofByte_ascii first]

theorem readable_quote : readable ['"'] = ['"'] := readable_ascii (by simp)

/-- A byte of a character is the character itself, or none that stands for a character alone. -/
theorem ofByte_of_mem_utf8EncodeChar {c : Char} {b : UInt8} (member : b ∈ String.utf8EncodeChar c) :
    ofByte b = c ∨ 128 ≤ (ofByte b).toNat := by
  by_cases ascii : c.toNat < 128
  · rw [utf8EncodeChar_ascii ascii, List.mem_singleton] at member
    rw [member]
    exact .inl (ofByte_ascii ascii)
  · right
    rw [toNat_ofByte]
    unfold String.utf8EncodeChar at member
    dsimp only at member
    rw [if_neg (show ¬ c.val.toNat ≤ 127 from fun small => ascii (Nat.lt_succ_of_le small))] at member
    split at member
    · simp only [List.mem_cons, List.not_mem_nil, or_false] at member
      rcases member with rfl | rfl <;> rw [UInt8.toNat_ofNat'] <;> omega
    · split at member
      · simp only [List.mem_cons, List.not_mem_nil, or_false] at member
        rcases member with rfl | rfl | rfl <;> rw [UInt8.toNat_ofNat'] <;> omega
      · simp only [List.mem_cons, List.not_mem_nil, or_false] at member
        rcases member with rfl | rfl | rfl | rfl <;> rw [UInt8.toNat_ofNat'] <;> omega

theorem fromUTF8?_flatMap (cs : List Char) :
    String.fromUTF8? (cs.flatMap String.utf8EncodeChar).toByteArray = some (String.ofList cs) := by
  have encoded : (cs.flatMap String.utf8EncodeChar).toByteArray = (String.ofList cs).toByteArray :=
    String.toByteArray_ofList.symm
  rw [encoded, String.fromUTF8?, dif_pos (String.ofList cs).isValidUTF8]
  rfl

/-! ## Pieces of quoted texts -/

/-- What a reader finds before the rest of a quoted text, and the bytes that it stands for. -/
structure ReadsAs (cs : List Char) (bs : List UInt8) (found : List Piece) : Prop where
  pieces : ∀ rest, pieces? (cs ++ rest) = (pieces? rest).map fun (ps, rest) => (found ++ ps, rest)
  bytes : ∀ ps, bytes? (found ++ ps) = (bytes? ps).map (bs ++ ·)

namespace ReadsAs

theorem nil : ReadsAs [] [] [] := ⟨fun rest => by simp, fun ps => by simp⟩

theorem append {cs ds : List Char} {bs as : List UInt8} {found more : List Piece} (first : ReadsAs cs bs found)
    (second : ReadsAs ds as more) : ReadsAs (cs ++ ds) (bs ++ as) (found ++ more) where
  pieces rest := by
    rw [List.append_assoc, first.pieces, second.pieces, Option.map_map]
    simp [Function.comp_def]
  bytes ps := by
    rw [List.append_assoc, first.bytes, second.bytes, Option.map_map]
    simp [Function.comp_def]

/-- A byte that neither ends the text nor escapes anything stands for itself. -/
theorem octet {b : UInt8} (noQuote : ofByte b ≠ '"') (noEscape : ofByte b ≠ '\\') (shown : ¬ (ofByte b).toNat < 32) :
    ReadsAs [ofByte b] [b] [.octet b] where
  pieces rest := by
    rw [List.singleton_append, pieces?.eq_def]
    dsimp only
    rw [if_neg noQuote, if_neg noEscape, if_neg shown, toUInt8_ofByte]
    rfl
  bytes ps := rfl

theorem octets {bs : List UInt8} (plain : ∀ b ∈ bs, ofByte b ≠ '"' ∧ ofByte b ≠ '\\' ∧ ¬ (ofByte b).toNat < 32) :
    ∃ found, ReadsAs (bs.map ofByte) bs found := by
  induction bs with
  | nil => exact ⟨[], nil⟩
  | cons b bs ih =>
    obtain ⟨noQuote, noEscape, shown⟩ := plain b (by simp)
    obtain ⟨found, rest⟩ := ih fun a member => plain a (by simp [member])
    exact ⟨_, (octet noQuote noEscape shown).append rest⟩

theorem short {e : Char} {b : UInt8} (letter : e ≠ 'u') (escapes : escaped? e = some b) :
    ReadsAs ['\\', e] [b] [.octet b] where
  pieces rest := by
    show pieces? ('\\' :: e :: rest) = _
    rw [pieces?.eq_def]
    dsimp only
    rw [if_neg (by decide), if_pos rfl, if_neg letter, escapes]
    cases pieces? rest <;> rfl
  bytes ps := rfl

theorem unit {a b c d : Char} {n : Nat} (hex : hexUnit? a b c d = some n) (small : n < 32) :
    ReadsAs ['\\', 'u', a, b, c, d] (String.utf8EncodeChar (Char.ofNat n)) [.unit n] where
  pieces rest := by
    show pieces? ('\\' :: 'u' :: a :: b :: c :: d :: rest) = _
    rw [pieces?.eq_def]
    dsimp only
    rw [if_neg (by decide), if_pos rfl, if_pos rfl, hex]
    cases pieces? rest <;> rfl
  bytes ps := by
    have noPair : isHighUnit n = false ∧ isLowUnit n = false := by
      constructor <;> simp [isHighUnit, isLowUnit] <;> omega
    rw [List.singleton_append, bytes?.eq_def]
    dsimp only
    rw [noPair.1, noPair.2]
    rfl

end ReadsAs

/-! ## Escaped characters -/

theorem readsAs_shortEscape {c e : Char} (listed : (c, e) ∈ shortEscapes) :
    ∃ found, ReadsAs (readable ['\\', e]) (String.utf8EncodeChar c) found := by
  have known : ∀ p ∈ shortEscapes, p.2 ≠ 'u' ∧ p.2.toNat < 128 ∧
      (escaped? p.2).map ([·]) = some (String.utf8EncodeChar p.1) := by decide
  obtain ⟨letter, ascii, escapes⟩ := known _ listed
  obtain ⟨b, found, same⟩ := Option.map_eq_some_iff.1 escapes
  rw [readable_ascii (by simp [ascii]), ← same]
  exact ⟨_, .short letter found⟩

/-- The number of a unit that is written with four digits. -/
def ofHex4? : List Char → Option Nat
  | [a, b, c, d] => hexUnit? a b c d
  | _ => none

theorem readsAs_hex4 {n : Nat} (small : n < 32) :
    ∃ found, ReadsAs (readable ('\\' :: 'u' :: hex4 n)) (String.utf8EncodeChar (Char.ofNat n)) found := by
  have digits : ∀ n ∈ List.range 32, (hex4 n).length = 4 ∧ (hex4 n).all (·.toNat < 128) := by decide +kernel
  have values : ∀ n ∈ List.range 32, ofHex4? (hex4 n) = some n := by decide +kernel
  obtain ⟨length, ascii⟩ := digits n (List.mem_range.2 small)
  obtain ⟨a, b, c, d, same⟩ := List.length_eq_four.1 length
  have hex := values n (List.mem_range.2 small)
  rw [same] at hex ascii ⊢
  rw [readable_ascii (by simpa [List.all_eq_true] using ascii)]
  exact ⟨_, .unit hex small⟩

/-- A character is read back from its escape. -/
theorem readsAs_escape (c : Char) : ∃ found, ReadsAs (readable (escape c)) (String.utf8EncodeChar c) found := by
  unfold escape
  cases listed : shortEscapes.lookup c with
  | some e =>
    obtain ⟨before, after, same, _⟩ := List.lookup_eq_some_iff.1 listed
    exact readsAs_shortEscape (by rw [same]; simp)
  | none =>
    obtain ⟨noQuote, noEscape⟩ := ne_of_lookup_shortEscapes listed
    dsimp only
    split
    · next control =>
      have read := readsAs_hex4 control
      rw [Char.ofNat_toNat] at read
      exact read
    · next shown =>
      rw [readable_singleton]
      refine ReadsAs.octets fun b member => ?_
      rcases ofByte_of_mem_utf8EncodeChar member with same | high
      · rw [same]
        exact ⟨noQuote, noEscape, shown⟩
      · have apart {q : Char} (ascii : q.toNat < 128) : ofByte b ≠ q := by
          rintro rfl
          omega
        exact ⟨apart (by decide), apart (by decide), by omega⟩

/-- After the character that is escaped by a backslash, an escape has neither a quote nor a backslash. -/
theorem escape_eq_self_or (c : Char) : (escape c = [c] ∧ c ≠ '"' ∧ c ≠ '\\') ∨
    ∃ d r, escape c = '\\' :: d :: r ∧ '"' ∉ r ∧ '\\' ∉ r := by
  have digits : ∀ n ∈ List.range 32, '"' ∉ hex4 n ∧ '\\' ∉ hex4 n := by decide +kernel
  unfold escape
  cases listed : shortEscapes.lookup c with
  | some e => exact .inr ⟨e, [], rfl, List.not_mem_nil, List.not_mem_nil⟩
  | none =>
    dsimp only
    split
    · next control => exact .inr ⟨'u', hex4 c.toNat, rfl, digits _ (List.mem_range.2 control)⟩
    · exact .inl ⟨rfl, ne_of_lookup_shortEscapes listed⟩

theorem readsAs_flatMap_escape (cs : List Char) :
    ∃ found, ReadsAs (readable (cs.flatMap escape)) (cs.flatMap String.utf8EncodeChar) found := by
  induction cs with
  | nil => exact ⟨[], .nil⟩
  | cons c cs ih =>
    obtain ⟨first, read⟩ := readsAs_escape c
    obtain ⟨rest, later⟩ := ih
    rw [List.flatMap_cons, List.flatMap_cons, readable_append]
    exact ⟨_, read.append later⟩

/-! ## Quoted texts -/

theorem pieces?_quotedChars (cs : List Char) :
    ∃ found, pieces? (readable (cs.flatMap escape ++ ['"'])) = some (found, []) ∧
      textOf? found = some (String.ofList cs) := by
  obtain ⟨found, read⟩ := readsAs_flatMap_escape cs
  have bytes : bytes? found = some (cs.flatMap String.utf8EncodeChar) := by
    have all := read.bytes []
    simpa [bytes?] using all
  refine ⟨found, ?_, ?_⟩
  · rw [readable_append, readable_quote, read.pieces]
    simp [pieces?]
  · rw [textOf?, bytes]
    exact fromUTF8?_flatMap cs

theorem tree?_quote (fuel : Nat) (cs : List Char) :
    tree? (fuel + 1) ('"' :: cs) = (pieces? cs).map fun (ps, rest) => (.string (textOf? ps), rest) := rfl

theorem readable_quotedChars (cs : List Char) :
    readable (quotedChars cs) = '"' :: readable (cs.flatMap escape ++ ['"']) := by
  show readable (['"'] ++ (cs.flatMap escape ++ ['"'])) = _
  rw [readable_append, readable_quote]
  rfl

/-- Every text is read back from its quoted form. -/
theorem ofChars?_quotedChars (cs : List Char) : ofChars? (quotedChars cs) = some (.string (String.ofList cs)) := by
  obtain ⟨found, read, text⟩ := pieces?_quotedChars cs
  have tree : Tree.ofBytes? ((quotedChars cs).flatMap String.utf8EncodeChar) = some (.string (String.ofList cs)) := by
    unfold Tree.ofBytes?
    have chars : ((quotedChars cs).flatMap String.utf8EncodeChar).map (fun b => Char.ofNat b.toNat) =
        '"' :: readable (cs.flatMap escape ++ ['"']) := readable_quotedChars cs
    rw [chars, tree?_quote, read, Option.map_some]
    dsimp only
    rw [text]
    rfl
  rw [ofChars?, ofBytes?, tree]
  rfl

end GraphQuery.Json
