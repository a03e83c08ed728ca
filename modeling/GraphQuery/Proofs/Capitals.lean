import GraphQuery.Text.Alphanumeric
import GraphQuery.Text.Case

/-!
# Upper cases of word characters

What the upper case of a letter, a digit or an underscore consists of. Main statement: of word
characters again, but for 26 letters whose upper case has a combining mark.
-/

namespace GraphQuery.Text

/-! ## Numbers of letters and digits -/

/-- Whether all numbers between two lie in one of the ranges. -/
def Ranges.covers (rs : Ranges) (first last : Nat) : Bool := rs.any fun r => r.1.ble first && last.ble r.2

theorem Ranges.covers_iff {rs : Ranges} {first last : Nat} :
    rs.covers first last = true ↔ ∃ r ∈ rs, r.1 ≤ first ∧ last ≤ r.2 := by
  simp only [covers, List.any_eq_true, Bool.and_eq_true, Nat.ble_eq]

/-- A code point that is no surrogate is the number of its character. -/
theorem toNat_ofNat {n : Nat} (valid : n.isValidChar) : (Char.ofNat n).toNat = n := by
  rw [Char.ofNat, dif_pos valid]
  rfl

/-- No letter or digit is a surrogate. -/
theorem alphanumericRanges_below_or_above :
    (alphanumericRanges.all fun r => r.2.blt 0xD800 || Nat.blt 0xDFFF r.1 && r.2.blt 0x110000) = true := by
  decide +kernel

theorem isAlphanumeric_ofNat {first last n : Nat} (covered : alphanumericRanges.covers first last = true)
    (above : first ≤ n) (below : n ≤ last) : isAlphanumeric (Char.ofNat n) = true := by
  obtain ⟨r, member, lower, upper⟩ := Ranges.covers_iff.1 covered
  have valid : n.isValidChar := by
    have apart := List.all_eq_true.1 alphanumericRanges_below_or_above r member
    simp only [Bool.or_eq_true, Bool.and_eq_true, Nat.blt_eq] at apart
    unfold Nat.isValidChar
    omega
  rw [isAlphanumeric, Ranges.holds_iff, toNat_ofNat valid]
  exact ⟨r, member, by omega, by omega⟩

theorem isWordChar_ofNat {n : Nat} (covered : alphanumericRanges.covers n n = true) :
    isWordChar (Char.ofNat n) = true := by
  rw [isWordChar, isAlphanumeric_ofNat covered (Nat.le_refl n) (Nat.le_refl n), Bool.true_or]

/-! ## Upper cases of one character -/

/-- Whether a run makes letters and digits of all its code points. A run that leaves out code
    points may leap over gaps between the ranges. -/
def CaseRun.hitsAlphanumeric (r : CaseRun) : Bool :=
  alphanumericRanges.covers r.target (r.target + (r.last - r.first)) ||
    (List.range (r.last - r.first + 1)).all fun i =>
      i % r.step != 0 || alphanumericRanges.covers (r.target + i) (r.target + i)

theorem upperRuns_hitAlphanumeric : upperRuns.all CaseRun.hitsAlphanumeric = true := by decide +kernel

theorem isWordChar_image {r : CaseRun} (member : r ∈ upperRuns) {n m : Nat} (found : r.image? n = some m) :
    isWordChar (Char.ofNat m) = true := by
  unfold CaseRun.image? at found
  split at found
  · rename_i inside
    obtain ⟨above, below, steps⟩ := inside
    have image : r.target + (n - r.first) = m := Option.some.inj found
    have hits := List.all_eq_true.1 upperRuns_hitAlphanumeric r member
    rcases Bool.or_eq_true _ _ |>.mp hits with whole | single
    · rw [isWordChar, isAlphanumeric_ofNat whole (by omega) (by omega), Bool.true_or]
    · have covered := List.all_eq_true.1 single (n - r.first) (List.mem_range.2 (by omega))
      rw [steps, image] at covered
      exact isWordChar_ofNat (by simpa using covered)
  · cases found

/-! ## Upper cases of several characters -/

/-- The code points of the combining marks that upper cases end with. -/
def splitMarks : List Nat := [768, 769, 776, 778, 780, 787, 817, 834]

/-- The code points of the letters whose upper case has a combining mark. -/
def splitLetters : List Nat := [
  496, 912, 944, 7830, 7831, 7832, 7833, 8016, 8018, 8020, 8022, 8118, 8119, 8134, 8135, 8146, 8147, 8150,
  8151, 8162, 8163, 8164, 8166, 8167, 8182, 8183]

theorem toNat_splitMark {m : Nat} (mark : m ∈ splitMarks) : (Char.ofNat m).toNat = m := by
  have below : ∀ m ∈ splitMarks, m < 0xD800 := by decide
  exact toNat_ofNat (.inl (below m mark))

theorem isWordChar_splitMark {m : Nat} (mark : m ∈ splitMarks) : isWordChar (Char.ofNat m) = false := by
  have apart : (splitMarks.all fun m => !isWordChar (Char.ofNat m)) = true := by decide +kernel
  simpa using List.all_eq_true.1 apart m mark

theorem mark_or_word {n : Nat} {image : List Nat} (entry : (n, image) ∈ upperLong) {m : Nat} (member : m ∈ image) :
    m ∈ splitMarks ∨ isWordChar (Char.ofNat m) = true := by
  have covered : (upperLong.all fun e => e.2.all fun m =>
      splitMarks.contains m || alphanumericRanges.covers m m) = true := by decide +kernel
  rcases Bool.or_eq_true _ _ |>.mp (List.all_eq_true.1 (List.all_eq_true.1 covered _ entry) m member) with mark | word
  · exact .inl (List.contains_iff_mem.1 mark)
  · exact .inr (isWordChar_ofNat word)

/-- The letters whose upper case has a combining mark are those listed. -/
theorem upperLong_splits :
    (upperLong.all fun e => splitLetters.contains e.1 == e.2.any splitMarks.contains) = true := by decide +kernel

theorem splitLetters_subset_upperLong :
    (splitLetters.all fun n => (upperLong.lookup n).isSome) = true := by decide +kernel

/-! ## Upper cases -/

/-- A character of an upper case: a letter, a digit, an underscore or one of the marks. -/
def IsUpperPart (c : Char) : Prop := isWordChar c = true ∨ c.toNat ∈ splitMarks

/-- The upper case of a character: several by the table, or one that is the character itself or a
    word character. -/
theorem uppercase_cases (c : Char) :
    (∃ image, (c.toNat, image) ∈ upperLong ∧ uppercase c = image.map Char.ofNat) ∨
    (upperLong.lookup c.toNat = none ∧ ∃ d, uppercase c = [d] ∧ (d = c ∨ isWordChar d = true)) := by
  unfold uppercase mapCase
  cases long : upperLong.lookup c.toNat with
  | some image =>
    obtain ⟨before, after, table, -⟩ := List.lookup_eq_some_iff.1 long
    exact .inl ⟨image, table ▸ List.mem_append_right before List.mem_cons_self, rfl⟩
  | none =>
    refine .inr ⟨rfl, _, rfl, ?_⟩
    cases short : upperRuns.findSome? (·.image? c.toNat) with
    | none => exact .inl rfl
    | some m =>
      obtain ⟨r, member, found⟩ := List.exists_of_findSome?_eq_some short
      exact .inr (isWordChar_image member found)

theorem isUpperPart_of_mem_uppercase {c d : Char} (word : isWordChar c = true) (member : d ∈ uppercase c) :
    IsUpperPart d := by
  rcases uppercase_cases c with ⟨image, entry, upper⟩ | ⟨-, e, upper, same⟩
  · rw [upper] at member
    obtain ⟨m, inside, rfl⟩ := List.mem_map.1 member
    rcases mark_or_word entry inside with mark | letter
    · exact .inr ((toNat_splitMark mark).symm ▸ mark)
    · exact .inl letter
  · rw [upper, List.mem_singleton] at member
    rcases same with rfl | letter
    · exact .inl (member ▸ word)
    · exact .inl (member ▸ letter)

/-- The upper case of a word character is made of word characters, but for the listed letters. -/
theorem forall_mem_uppercase_iff {c : Char} (word : isWordChar c = true) :
    (∀ d ∈ uppercase c, isWordChar d = true) ↔ c.toNat ∉ splitLetters := by
  rcases uppercase_cases c with ⟨image, entry, upper⟩ | ⟨absent, d, upper, same⟩
  · have splits := List.all_eq_true.1 upperLong_splits _ entry
    rw [beq_iff_eq] at splits
    rw [upper, List.forall_mem_map, ← List.contains_iff_mem, splits, List.any_eq_true]
    constructor
    · rintro words ⟨m, inside, mark⟩
      rw [List.contains_iff_mem] at mark
      exact Bool.false_ne_true (isWordChar_splitMark mark ▸ words m inside)
    · intro none m inside
      rcases mark_or_word entry inside with mark | letter
      · exact absurd ⟨m, inside, List.contains_iff_mem.2 mark⟩ none
      · exact letter
  · have upperWord : isWordChar d = true := by
      rcases same with rfl | letter
      · exact word
      · exact letter
    have unlisted : c.toNat ∉ splitLetters := by
      intro listed
      have found := List.all_eq_true.1 splitLetters_subset_upperLong _ listed
      rw [absent] at found
      cases found
    rw [upper, List.forall_mem_singleton]
    exact ⟨fun _ => unlisted, fun _ => upperWord⟩

end GraphQuery.Text
