import GraphQuery.Proofs.Vanishing

/-!
# Cut and trimmed texts

Where a text is cut, and what trimming takes away. Main statements: a text is cut at the first
place of the mark, and trimming takes blanks away at both ends and nothing else.
-/

namespace GraphQuery.Text

open Predicate (trim_eq_nil_iff)

/-! ## Places in a text -/

/-- Of two places in a text, one comes before the other, or they are the same. -/
theorem append_cons_cases {xs ys as bs : List Char} {c d : Char} (h : xs ++ c :: as = ys ++ d :: bs) :
    (∃ gap, ys = xs ++ c :: gap ∧ as = gap ++ d :: bs) ∨ (xs = ys ∧ c = d ∧ as = bs) ∨
      ∃ gap, xs = ys ++ d :: gap ∧ bs = gap ++ c :: as := by
  rcases List.append_eq_append_iff.1 h with ⟨gap, same, after⟩ | ⟨gap, same, after⟩
  · rcases List.cons_eq_append_iff.1 after with ⟨rfl, tail⟩ | ⟨gap, rfl, tail⟩
    · cases tail
      right; left
      exact ⟨by rw [same, List.append_nil], rfl, rfl⟩
    · left
      exact ⟨gap, same, tail⟩
  · rcases List.cons_eq_append_iff.1 after with ⟨rfl, tail⟩ | ⟨gap, rfl, tail⟩
    · cases tail
      right; left
      exact ⟨by rw [same, List.append_nil], rfl, rfl⟩
    · right; right
      exact ⟨gap, same, tail⟩

/-- Two texts with the same first mark have the same parts. -/
theorem append_cons_inj {xs ys as bs : List Char} {c : Char} (hx : c ∉ xs) (hy : c ∉ ys)
    (h : xs ++ c :: as = ys ++ c :: bs) : xs = ys ∧ as = bs := by
  rcases append_cons_cases h with ⟨gap, rfl, _⟩ | ⟨same, _, rest⟩ | ⟨gap, rfl, _⟩
  · exact absurd (by simp) hy
  · exact ⟨same, rest⟩
  · exact absurd (by simp) hx

/-! ## Cuts -/

/-- A text is cut at the first place of a character. -/
theorem cut?_eq_some_iff {c : Char} {cs before rest : List Char} :
    cut? [c] cs = some (before, rest) ↔ cs = before ++ c :: rest ∧ c ∉ before := by
  induction cs generalizing before with
  | nil => simp [cut?, cutFolded?, after?]
  | cons d cs ih =>
    by_cases here : c = d
    · subst here
      have first : cut? [c] (c :: cs) = some ([], cs) := by simp [cut?, cutFolded?, after?]
      rw [first]
      constructor
      · rintro ⟨⟩
        simp
      · rintro ⟨same, apart⟩
        cases before with
        | nil => simp_all
        | cons e before => simp_all
    · have later : cut? [c] (d :: cs) = (cut? [c] cs).map fun parts => (d :: parts.1, parts.2) := by
        simp [cut?, cutFolded?, after?, here]
      rw [later, Option.map_eq_some_iff]
      constructor
      · rintro ⟨⟨before', rest'⟩, found, same⟩
        cases same
        obtain ⟨rfl, apart⟩ := ih.1 found
        simp [here, apart]
      · rintro ⟨same, apart⟩
        cases before with
        | nil => simp_all
        | cons e before =>
          obtain ⟨rfl, rfl⟩ : d = e ∧ cs = before ++ c :: rest := by simpa using same
          refine ⟨(before, rest), ih.2 ⟨rfl, fun inside => apart (by simp [inside])⟩, rfl⟩

theorem cut?_eq_none_iff {c : Char} {cs : List Char} : cut? [c] cs = none ↔ c ∉ cs := by
  constructor
  · intro none member
    obtain ⟨before, rest, same, apart⟩ := List.eq_append_cons_of_mem member
    rw [cut?_eq_some_iff.2 ⟨same, apart⟩] at none
    cases none
  · intro apart
    cases found : cut? [c] cs with
    | none => rfl
    | some parts =>
      have same := (cut?_eq_some_iff.1 found).1
      exact absurd (by rw [same]; simp) apart

/-- A mark that stands in a text is found, at its own place or before it. -/
theorem exists_cutFolded? {fold : Char → Char} {mark : List Char} (before : List Char) {found : List Char}
    (folded : found.map fold = mark) (rest : List Char) :
    ∃ first after, cutFolded? fold mark (before ++ found ++ rest) = some (first, after) ∧ first <+: before := by
  have here : after? fold mark (found ++ rest) = some rest := by
    subst folded
    induction found with
    | nil => rfl
    | cons c found ih => simpa [after?] using ih
  induction before with
  | nil =>
    rw [List.nil_append]
    cases text : found ++ rest with
    | nil =>
      rw [text] at here
      exact ⟨[], rest, by rw [cutFolded?, here]; rfl, List.nil_prefix⟩
    | cons c cs =>
      rw [text] at here
      exact ⟨[], rest, by rw [cutFolded?, here], List.nil_prefix⟩
  | cons c before ih =>
    obtain ⟨first, after, cut, start⟩ := ih
    rw [List.cons_append, List.cons_append, cutFolded?, cut]
    cases after? fold mark (c :: (before ++ found ++ rest)) with
    | none => exact ⟨c :: first, after, rfl, List.cons_prefix_cons.2 ⟨rfl, start⟩⟩
    | some after => exact ⟨[], after, rfl, List.nil_prefix⟩

/-! ## Trimmed texts -/

theorem trimStart_eq_self_iff {cs : List Char} : trimStart cs = cs ↔ ∀ c ∈ cs.head?, isBlank c = false := by
  cases cs with
  | nil => simp [trimStart]
  | cons c cs =>
    by_cases blank : isBlank c = true
    · have shorter : trimStart cs ≠ c :: cs := by
        intro same
        have length := (List.dropWhile_sublist isBlank (l := cs)).length_le
        rw [← trimStart, same, List.length_cons] at length
        omega
      simp [trimStart_cons_of_blank cs blank, blank, shorter]
    · have filled : isBlank c = false := by simpa using blank
      simp [trimStart_cons_of_not_blank cs filled, filled]

theorem trimEnd_eq_self_iff {cs : List Char} : trimEnd cs = cs ↔ ∀ c ∈ cs.getLast?, isBlank c = false := by
  rw [trimEnd, ← List.reverse_inj, List.reverse_reverse, trimStart_eq_self_iff, List.head?_reverse]

/-- A text is trimmed if it neither starts nor ends with a blank. -/
theorem trim_eq_self_iff {cs : List Char} :
    trim cs = cs ↔ (∀ c ∈ cs.head?, isBlank c = false) ∧ ∀ c ∈ cs.getLast?, isBlank c = false := by
  rw [← trimStart_eq_self_iff, ← trimEnd_eq_self_iff]
  constructor
  · intro trimmed
    have start : trimStart cs = cs := by rw [← trimmed, trimStart_trim, trimmed]
    exact ⟨start, by rw [trim, start] at trimmed; exact trimmed⟩
  · rintro ⟨start, finish⟩
    rw [trim, start, finish]

/-- Trimming takes blanks away at both ends, and nothing else. -/
theorem exists_blanks_around (cs : List Char) :
    ∃ left right, cs = left ++ trim cs ++ right ∧ (∀ c ∈ left, isBlank c = true) ∧ ∀ c ∈ right, isBlank c = true := by
  have blanks (ds : List Char) : ∀ c ∈ ds.takeWhile isBlank, isBlank c = true := fun c member =>
    List.all_eq_true.1 List.all_takeWhile c member
  have start : cs.takeWhile isBlank ++ trimStart cs = cs := List.takeWhile_append_dropWhile
  have back (ds : List Char) : trimEnd ds ++ (ds.reverse.takeWhile isBlank).reverse = ds := by
    rw [trimEnd, ← List.reverse_append, trimStart, List.takeWhile_append_dropWhile, List.reverse_reverse]
  refine ⟨cs.takeWhile isBlank, ((trimStart cs).reverse.takeWhile isBlank).reverse, ?_, blanks cs, ?_⟩
  · rw [List.append_assoc, trim, back, start]
  · intro c member
    exact blanks _ c (List.mem_reverse.1 member)

theorem trimStart_append {xs : List Char} (filled : trim xs ≠ []) (ys : List Char) :
    trimStart (xs ++ ys) = trimStart xs ++ ys := by
  have some : trimStart xs ≠ [] := by
    rwa [trimStart, Ne, List.dropWhile_eq_nil_iff, ← trim_eq_nil_iff]
  rw [trimStart, List.dropWhile_append, ← trimStart, if_neg (by simpa using some)]

theorem trimEnd_append {ys : List Char} (filled : trim ys ≠ []) (xs : List Char) :
    trimEnd (xs ++ ys) = xs ++ trimEnd ys := by
  have back : trim ys.reverse ≠ [] := by
    rw [Ne, trim_eq_nil_iff] at filled ⊢
    simpa using filled
  rw [trimEnd, List.reverse_append, trimStart_append back, List.reverse_append, List.reverse_reverse, ← trimEnd]

/-- What stands before a blank in a trimmed text is not blank. -/
theorem trim_before_ne_nil {before after : List Char} {c : Char} (blank : isBlank c = true)
    (trimmed : trim (before ++ c :: after) = before ++ c :: after) : trim before ≠ [] := by
  intro empty
  rw [trim_eq_nil_iff] at empty
  have head := (trim_eq_self_iff.1 trimmed).1
  cases before with
  | nil => simp [blank] at head
  | cons d before => simp [empty d] at head

theorem trim_after_ne_nil {before after : List Char} {c : Char} (blank : isBlank c = true)
    (trimmed : trim (before ++ c :: after) = before ++ c :: after) : trim after ≠ [] := by
  intro empty
  rw [trim_eq_nil_iff] at empty
  have last := (trim_eq_self_iff.1 trimmed).2
  rcases List.eq_nil_or_concat after with rfl | ⟨after, d, rfl⟩
  · simp [blank] at last
  · have final : (before ++ c :: after.concat d).getLast? = some d := by
      rw [List.concat_eq_append, ← List.cons_append, ← List.append_assoc, List.getLast?_concat]
    have filled := last d final
    rw [empty d (by simp)] at filled
    cases filled

theorem mem_trim_iff {c : Char} (filled : isBlank c = false) (cs : List Char) : c ∈ trim cs ↔ c ∈ cs := by
  rw [← List.count_pos_iff, count_trim filled, List.count_pos_iff]

theorem isPrefix_trim {cs : List Char} (start : ∀ c ∈ cs.head?, isBlank c = false) : trim cs <+: cs := by
  obtain ⟨left, right, around, blanks, _⟩ := exists_blanks_around cs
  cases left with
  | nil => exact ⟨right, around.symm⟩
  | cons c left =>
    have filled : isBlank c = false := by
      apply start
      rw [around]
      simp
    rw [blanks c (by simp)] at filled
    cases filled

theorem isSuffix_trim {cs : List Char} (finish : ∀ c ∈ cs.getLast?, isBlank c = false) : trim cs <:+ cs := by
  obtain ⟨left, right, around, _, blanks⟩ := exists_blanks_around cs
  rcases List.eq_nil_or_concat right with rfl | ⟨right, c, rfl⟩
  · rw [List.append_nil] at around
    exact ⟨left, around.symm⟩
  · have filled : isBlank c = false := by
      apply finish
      rw [around]
      simp
    rw [blanks c (by simp)] at filled
    cases filled

theorem trimStart_blanks_append {left : List Char} (blanks : ∀ c ∈ left, isBlank c = true) (cs : List Char) :
    trimStart (left ++ cs) = trimStart cs := by
  rw [trimStart, List.dropWhile_append_of_pos blanks, trimStart]

theorem trim_blanks_append {left : List Char} (blanks : ∀ c ∈ left, isBlank c = true) (cs : List Char) :
    trim (left ++ cs) = trim cs := by
  rw [trim, trimStart_blanks_append blanks, trim]

theorem trim_append_blanks {right : List Char} (blanks : ∀ c ∈ right, isBlank c = true) (cs : List Char) :
    trim (cs ++ right) = trim cs := by
  by_cases empty : trim cs = []
  · rw [empty, trim_eq_nil_iff]
    intro c member
    rcases List.mem_append.1 member with inside | last
    · exact (trim_eq_nil_iff cs).1 empty c inside
    · exact blanks c last
  · have back : ∀ c ∈ right.reverse, isBlank c = true := fun c member => blanks c (List.mem_reverse.1 member)
    rw [trim, trimStart_append empty, trimEnd, List.reverse_append, trimStart_blanks_append back, trim, trimEnd]

end GraphQuery.Text
