/-!
# Cutting a text at a mark

The first place where a mark stands in a text, and what stands before and after it.
Characters of the text are compared with the mark through a folding, so that a mark
can be found in any letter case. Main statement: a cut loses nothing but the mark.
-/

namespace GraphQuery.Text

/-- What follows `mark` when the text starts with it. -/
def after? (fold : Char → Char) : (mark text : List Char) → Option (List Char)
  | [], cs => some cs
  | _ :: _, [] => none
  | m :: ms, c :: cs => if m = fold c then after? fold ms cs else none

/-- The texts before and after the first `mark`. -/
def cutFolded? (fold : Char → Char) (mark : List Char) : List Char → Option (List Char × List Char)
  | [] => (after? fold mark []).map ([], ·)
  | c :: cs =>
    match after? fold mark (c :: cs) with
    | some rest => some ([], rest)
    | none => (cutFolded? fold mark cs).map fun (before, rest) => (c :: before, rest)

/-- The texts before and after the first `mark`, letter case told apart. -/
def cut? (mark : List Char) (cs : List Char) : Option (List Char × List Char) := cutFolded? id mark cs

theorem eq_append_of_after? {fold : Char → Char} {mark text rest : List Char}
    (h : after? fold mark text = some rest) : ∃ found, text = found ++ rest ∧ found.map fold = mark := by
  induction mark generalizing text with
  | nil => exact ⟨[], by simpa [after?] using h, rfl⟩
  | cons m ms ih =>
    cases text with
    | nil => simp [after?] at h
    | cons c cs =>
      simp only [after?] at h
      split at h
      · obtain ⟨found, rfl, hm⟩ := ih h
        exact ⟨c :: found, rfl, by simp_all⟩
      · simp at h

/-- A cut loses nothing but the mark. -/
theorem eq_append_of_cutFolded? {fold : Char → Char} {mark text before rest : List Char}
    (h : cutFolded? fold mark text = some (before, rest)) :
    ∃ found, text = before ++ found ++ rest ∧ found.map fold = mark := by
  induction text generalizing before with
  | nil =>
    obtain ⟨r, hr, he⟩ := Option.map_eq_some_iff.1 h
    obtain ⟨found, hf, hm⟩ := eq_append_of_after? hr
    exact ⟨found, by simp_all, hm⟩
  | cons c cs ih =>
    simp only [cutFolded?] at h
    split at h
    · next r hr =>
      obtain ⟨found, hf, hm⟩ := eq_append_of_after? hr
      exact ⟨found, by simp_all, hm⟩
    · obtain ⟨⟨b, r⟩, hr, he⟩ := Option.map_eq_some_iff.1 h
      simp only [Prod.mk.injEq] at he
      obtain ⟨rfl, rfl⟩ := he
      obtain ⟨found, rfl, hm⟩ := ih hr
      exact ⟨found, by simp, hm⟩

theorem eq_append_of_cut? {mark text before rest : List Char} (h : cut? mark text = some (before, rest)) :
    text = before ++ mark ++ rest := by
  obtain ⟨found, rfl, hm⟩ := eq_append_of_cutFolded? h
  simp_all

end GraphQuery.Text
