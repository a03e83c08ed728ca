import GraphQuery.Proofs.Escaping
import GraphQuery.Proofs.Numbering

/-!
# New names

A block whose name is taken gets a new one in its place. Main statements: the block is
then written under its new name, wherever it is nested, and new names made at different
places in a list are different.
-/

namespace GraphQuery

/-! ## Trimmed texts -/

namespace Text

/-- A text that ends with a character that is no blank keeps its end. -/
theorem trimEnd_concat (cs : List Char) {c : Char} (filled : isBlank c = false) :
    trimEnd (cs ++ [c]) = cs ++ [c] := by
  rw [trimEnd, List.reverse_append, List.reverse_singleton, List.singleton_append,
    trimStart_cons_of_not_blank _ filled, List.reverse_cons, List.reverse_reverse]

theorem trimStart_eq_nil_or (cs : List Char) :
    trimStart cs = [] ∨ ∃ c rest, trimStart cs = c :: rest ∧ isBlank c = false := by
  cases found : trimStart cs with
  | nil => exact .inl rfl
  | cons c rest =>
    have head := List.head?_dropWhile_not isBlank cs
    rw [← trimStart, found] at head
    exact .inr ⟨c, rest, rfl, head⟩

theorem trimStart_trimStart (cs : List Char) : trimStart (trimStart cs) = trimStart cs := by
  rcases trimStart_eq_nil_or cs with empty | ⟨c, rest, found, filled⟩
  · rw [empty]
    rfl
  · rw [found, trimStart_cons_of_not_blank _ filled]

/-- A trimmed text does not start with a blank. -/
theorem trimStart_trim (cs : List Char) : trimStart (trim cs) = trim cs := by
  rcases trimStart_eq_nil_or cs with empty | ⟨c, rest, found, filled⟩
  · rw [trim, empty]
    rfl
  · have kept : ∃ more, trim cs = c :: more := by
      rw [trim, found, trimEnd, List.reverse_cons, trimStart, List.dropWhile_append]
      split
      · exact ⟨[], by simp [filled]⟩
      · exact ⟨_, List.reverse_concat⟩
    obtain ⟨more, kept⟩ := kept
    rw [kept, trimStart_cons_of_not_blank _ filled]

theorem trim_trim (cs : List Char) : trim (trim cs) = trim cs := by
  rw [trim, trimStart_trim, trim, trimEnd, trimEnd, List.reverse_reverse, trimStart_trimStart]

end Text

/-! ## Paths -/

namespace Path

open Text

theorem cutLast?_tail {c : Char} {cs : List Char} (free : cutLast? (c :: cs) = none) : cutLast? cs = none := by
  cases cs with
  | nil => rfl
  | cons d cs =>
    rw [cutLast?] at free
    split at free
    · cases free
    · next last => exact last

theorem cutLast?_ne_none (before rest : List Char) : cutLast? (before ++ '-' :: '>' :: rest) ≠ none := by
  induction before with
  | nil =>
    rw [List.nil_append, cutLast?]
    split <;> simp
  | cons c before ih => exact fun none => ih (cutLast?_tail none)

/-- The last arrow is an arrow after which there is none. -/
theorem of_cutLast?_eq_some {cs before rest : List Char} (found : cutLast? cs = some (before, rest)) :
    cs = before ++ '-' :: '>' :: rest ∧ cutLast? rest = none := by
  fun_induction cutLast? cs generalizing before rest with
  | case1 => cases found
  | case2 => cases found
  | case3 c d cs inner rest' last ih =>
    cases found
    obtain ⟨same, free⟩ := ih last
    exact ⟨by rw [same]; rfl, free⟩
  | case4 c d cs last here ih =>
    obtain ⟨rfl, rfl⟩ := here
    cases found
    exact ⟨rfl, cutLast?_tail last⟩
  | case5 => cases found

theorem cutLast?_eq_none_iff {cs : List Char} :
    cutLast? cs = none ↔ ∀ before rest, cs ≠ before ++ '-' :: '>' :: rest := by
  constructor
  · rintro none before rest rfl
    exact cutLast?_ne_none before rest none
  · intro free
    cases found : cutLast? cs with
    | none => rfl
    | some parts => exact absurd (of_cutLast?_eq_some found).1 (free parts.1 parts.2)

theorem cutLast?_append_arrow (before : List Char) {rest : List Char} (free : cutLast? rest = none) :
    cutLast? (before ++ '-' :: '>' :: rest) = some (before, rest) := by
  have after : cutLast? ('>' :: rest) = none := by
    cases rest with
    | nil => rfl
    | cons d rest => simp [cutLast?, free]
  induction before with
  | nil => simp [cutLast?, after]
  | cons c before ih =>
    cases before with
    | nil => simp_all [cutLast?]
    | cons d before => simp_all [cutLast?]

theorem cutLast?_of_part {part cs : List Char} (inside : part <:+: cs) (free : cutLast? cs = none) :
    cutLast? part = none := by
  rw [cutLast?_eq_none_iff] at free ⊢
  rintro before rest rfl
  obtain ⟨left, right, same⟩ := inside
  exact free (left ++ before) (rest ++ right) (by rw [← same]; simp)

theorem cutLast?_append {cs ds : List Char} (free : cutLast? cs = none) (apart : '>' ∉ ds) :
    cutLast? (cs ++ ds) = none := by
  rw [cutLast?_eq_none_iff] at free ⊢
  intro before rest same
  rcases List.append_eq_append_iff.1 same with ⟨gap, rfl, after⟩ | ⟨gap, rfl, after⟩
  · rw [after] at apart
    exact apart (by simp)
  · -- The arrow would stand in the first text, or its head in the second.
    match gap with
    | [] => exact apart (by rw [← List.nil_append ds, ← after]; simp)
    | [c] =>
      rw [List.singleton_append, List.cons.injEq] at after
      exact apart (by rw [← after.2]; simp)
    | c :: d :: gap =>
      rw [List.cons_append, List.cons_append, List.cons.injEq, List.cons.injEq] at after
      obtain ⟨rfl, rfl, _⟩ := after
      exact free before gap rfl

theorem infix_trim (cs : List Char) : trim cs <:+: cs := by
  have ends (cs : List Char) : trimEnd cs <+: cs := by
    rw [trimEnd, ← List.reverse_suffix, List.reverse_reverse]
    exact List.dropWhile_suffix _
  exact (ends _).isInfix.trans (List.dropWhile_suffix _).isInfix

/-- A name without arrows and without blanks at its ends. -/
def IsName (name : String) : Prop := cutLast? name.toList = none ∧ trim name.toList = name.toList

theorem isName_lastName (path : String) : IsName (lastName path) := by
  have trimmed {cs : List Char} (free : cutLast? cs = none) : IsName (String.ofList (trim cs)) := by
    rw [IsName, String.toList_ofList]
    exact ⟨cutLast?_of_part (infix_trim cs) free, trim_trim cs⟩
  unfold lastName
  split
  · next found => exact trimmed (of_cutLast?_eq_some found).2
  · next free => exact trimmed free

/-- The last name of a path is not changed by what is put around the path. -/
theorem lastName_append_arrow (around path : String) : lastName (around ++ "->" ++ path) = lastName path := by
  have chars : (around ++ "->" ++ path).toList = around.toList ++ '-' :: '>' :: path.toList := by
    simp
  rw [lastName, lastName, chars]
  cases found : cutLast? path.toList with
  | none => rw [cutLast?_append_arrow _ found]
  | some parts =>
    obtain ⟨before, rest⟩ := parts
    obtain ⟨same, free⟩ := of_cutLast?_eq_some found
    have deeper := cutLast?_append_arrow (around.toList ++ '-' :: '>' :: before) free
    rw [List.append_assoc, List.cons_append, List.cons_append, ← same] at deeper
    rw [deeper]

theorem lastName_of_isName {name : String} (named : IsName name) : lastName name = name := by
  rw [lastName, named.1]
  dsimp only
  rw [named.2, String.ofList_toList]

end Path

/-! ## Fresh names -/

namespace Request

open GraphQuery.Path Text Predicate

/-- Digits of a number, with at least one of them. -/
theorem exists_digits (index : Nat) :
    ∃ digits last, (toString index).toList = digits ++ [last] ∧ last.isDigit = true := by
  have filled : (toString index).toList ≠ [] := by
    rw [Nat.toString_eq_repr, Nat.toList_repr]
    exact Nat.toDigits_ne_nil
  refine ⟨_, _, (List.dropLast_concat_getLast filled).symm, ?_⟩
  exact isDigit_of_mem_toString (List.getLast_mem filled)

theorem toList_freshName (name : String) (index : Nat) :
    (freshName name index).toList = name.toList ++ '_' :: (toString index).toList := by
  simp [freshName]

theorem isName_freshName {name : String} (named : IsName name) (index : Nat) : IsName (freshName name index) := by
  obtain ⟨digits, last, spelled, digit⟩ := exists_digits index
  obtain ⟨free, trimmed⟩ := named
  unfold IsName
  rw [toList_freshName]
  constructor
  · refine cutLast?_append free fun member => ?_
    rcases List.mem_cons.1 member with same | inside
    · cases same
    · cases isDigit_of_mem_toString inside
  · have starts : trimStart (name.toList ++ '_' :: (toString index).toList) =
        name.toList ++ '_' :: (toString index).toList := by
      have own := trimStart_trim name.toList
      rw [trimmed] at own
      rcases trimStart_eq_nil_or name.toList with empty | ⟨c, rest, found, filled⟩
      · rw [own] at empty
        rw [empty]
        exact trimStart_cons_of_not_blank _ (by decide)
      · rw [own] at found
        rw [found]
        exact trimStart_cons_of_not_blank _ filled
    rw [trim, starts, spelled, ← List.cons_append, ← List.append_assoc,
      trimEnd_concat _ (isBlank_eq_false_of_isDigit digit)]

/-- Fresh names made at different places are different. -/
theorem index_eq_of_freshName {name other : String} {i j : Nat} (same : freshName name i = freshName other j) :
    i = j := by
  -- The number is what stands after the last underscore.
  have number (name : String) (index : Nat) :
      (freshName name index).toList.reverse.takeWhile (· != '_') = (toString index).toList.reverse := by
    have digits : ∀ c ∈ (toString index).toList.reverse, (c != '_') = true := by
      intro c member
      rw [bne_iff_ne]
      rintro rfl
      cases isDigit_of_mem_toString (List.mem_reverse.1 member)
    rw [toList_freshName, List.reverse_append, List.reverse_cons, List.append_assoc, List.takeWhile_append_of_pos digits]
    simp
  refine toString_injective ?_
  rw [← String.toList_inj, ← List.reverse_inj, ← number name i, ← number other j, same]

/-- The written form of a fresh name is not the name it was made from: it has one more underscore. -/
theorem escape_freshName_ne (name : String) (index : Nat) : escape (freshName name index) ≠ name := by
  intro same
  have count := underscores_escape (freshName name index)
  rw [same, toList_freshName, underscores_append] at count
  simp [underscores] at count

end Request

/-- A renamed block is written under the last name of its new one. -/
theorem Builder.blockName_name (q : Builder) (n : String) : (q.name n).blockName = Path.lastName n := by
  show Path.lastName (if (Path.parent q.base).isEmpty then n else Path.parent q.base ++ "->" ++ n) = Path.lastName n
  split
  · rfl
  · exact Path.lastName_append_arrow _ n

/-- A block that is renamed after its place has the fresh name. -/
theorem Builder.blockName_freshName (q : Builder) (index : Nat) :
    (q.name (Request.freshName q.blockName index)).blockName = Request.freshName q.blockName index :=
  (q.blockName_name _).trans (Path.lastName_of_isName (Request.isName_freshName (Path.isName_lastName _) index))

end GraphQuery
