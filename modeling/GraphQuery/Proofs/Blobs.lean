import GraphQuery.Proofs.Bindings
import GraphQuery.Selection

/-!
# Lines of a text of predicates

How a text is split into predicates: line by line, and a line word by word unless it has a
bracket, a colon or a binding. Main statement: the predicates of two texts on lines of their
own are those of the first text and then those of the second.
-/

namespace GraphQuery

namespace Text

/-! ## Words -/

/-- A blank ends a word, and belongs to none. -/
theorem words_append_cons {c : Char} (blank : isBlank c = true) (xs ys : List Char) :
    words (xs ++ c :: ys) = words xs ++ words ys := by
  rw [words, List.splitOnP_append_cons xs ys blank, List.filter_append, words, words]

theorem words_append_blanks {right : List Char} (blanks : ∀ c ∈ right, isBlank c = true) (cs : List Char) :
    words (cs ++ right) = words cs := by
  induction right generalizing cs with
  | nil => rw [List.append_nil]
  | cons c right ih =>
    rw [List.forall_mem_cons] at blanks
    have rest : words right = [] := ih blanks.2 []
    rw [words_append_cons blanks.1, rest, List.append_nil]

theorem words_blanks_append {left : List Char} (blanks : ∀ c ∈ left, isBlank c = true) (cs : List Char) :
    words (left ++ cs) = words cs := by
  induction left with
  | nil => rfl
  | cons c left ih =>
    rw [List.forall_mem_cons] at blanks
    have first := words_append_cons blanks.1 [] (left ++ cs)
    rw [List.cons_append]
    exact first.trans (ih blanks.2)

theorem words_trim (cs : List Char) : words (trim cs) = words cs := by
  obtain ⟨left, right, around, before, after⟩ := exists_blanks_around cs
  conv_rhs => rw [around, words_append_blanks after, words_blanks_append before]

end Text

namespace Predicate

open Text

/-! ## Compound lines -/

theorem isSome_binding?_trim (cs : List Char) : (binding? (trim cs)).isSome = true ↔ BindsVariable cs := by
  rw [← binds_trim_iff, Option.isSome_iff_ne_none, Ne, binding?_eq_none_iff (trim_trim cs), not_not]

instance (cs : List Char) : Decidable (BindsVariable cs) := decidable_of_iff _ (isSome_binding?_trim cs)

/-- A line that is one predicate, even if it has blanks inside. -/
def Compound (line : List Char) : Prop := '(' ∈ line ∨ ':' ∈ line ∨ BindsVariable line

theorem isCompound_trim_iff (line : List Char) : isCompound (trim line) = true ↔ Compound line := by
  have bracket : '(' ∈ trim line ↔ '(' ∈ line := mem_trim_iff (by decide) line
  have colon : ':' ∈ trim line ↔ ':' ∈ line := mem_trim_iff (by decide) line
  rw [isCompound, Bool.or_eq_true, Bool.or_eq_true, List.contains_iff_mem, List.contains_iff_mem, bracket, colon,
    isSome_binding?_trim, or_assoc, Compound]

theorem linePieces_of_not_compound {line : List Char} (simple : ¬ Compound line) : linePieces line = words line := by
  rw [← isCompound_trim_iff] at simple
  by_cases empty : trim line = []
  · have none : words line = [] := by
      rw [← words_trim, empty]
      rfl
    simp [linePieces, empty, none]
  · simp [linePieces, empty, simple, words_trim]

theorem linePieces_of_compound {line : List Char} (compound : Compound line) : linePieces line = [trim line] := by
  have whole := (isCompound_trim_iff line).2 compound
  have filled : trim line ≠ [] := by
    intro empty
    rw [empty] at whole
    cases whole
  simp [linePieces, filled, whole]

/-! ## Lines -/

/-- Blanks at the ends of a predicate are not written. -/
theorem predicateChars_trim (cs : List Char) : predicateChars (trim cs) = predicateChars cs := by
  have kept {blanks : List Char} (h : ∀ c ∈ blanks, isBlank c = true) : ∀ c ∈ clean blanks, isBlank c = true :=
    fun c member => h c (List.mem_filter.1 member).1
  -- Blanks at the ends stay where they are when characters are dropped, and are trimmed with the rest.
  obtain ⟨left, right, around, before, after⟩ := exists_blanks_around cs
  have same : trim (clean cs) = trim (clean (trim cs)) := by
    conv_lhs => rw [around, clean_append, clean_append]
    rw [trim_append_blanks (kept after), trim_blanks_append (kept before)]
  rw [predicateChars, predicateChars, same]

theorem blobChars_append_newline (as bs : List Char) :
    blobChars (as ++ '\n' :: bs) = blobChars as ++ blobChars bs := by
  have split : lines (as ++ '\n' :: bs) = lines as ++ lines bs := List.splitOn_append_cons_self as bs
  rw [blobChars, split, List.flatMap_append, List.map_append, List.filter_append, blobChars, blobChars]

/-- A text on one line. -/
theorem blobChars_line {line : List Char} (single : '\n' ∉ line) :
    blobChars line = ((linePieces line).map predicateChars).filter (!·.isEmpty) := by
  have alone : lines line = [line] := List.splitOn_eq_singleton single
  rw [blobChars, alone, List.flatMap_singleton]

/-! ## Texts -/

theorem ofBlob_append_newline (a b : String) : ofBlob (a ++ "\n" ++ b) = ofBlob a ++ ofBlob b := by
  have chars : (a ++ "\n" ++ b).toList = a.toList ++ '\n' :: b.toList := by simp
  rw [ofBlob, chars, blobChars_append_newline, List.map_append, ofBlob, ofBlob]

/-- The predicates of a line are written one by one, and those of which nothing is left are left out. -/
theorem ofBlob_line {line : String} (single : '\n' ∉ line.toList) :
    ofBlob line = ((linePieces line.toList).map fun piece => escape (String.ofList piece)).filter (· ≠ "") := by
  have written : ((linePieces line.toList).map fun piece => escape (String.ofList piece)) =
      ((linePieces line.toList).map predicateChars).map String.ofList := by
    simp [escape, Function.comp_def]
  have filled : (fun predicate : String => decide (predicate ≠ "")) ∘ String.ofList = fun cs => !cs.isEmpty := by
    funext cs
    cases cs <;> simp
  rw [written, List.filter_map, filled, ofBlob, blobChars_line single]

/-- A line with a bracket, a colon or a binding is one predicate. -/
theorem ofBlob_compound_line {line : String} (single : '\n' ∉ line.toList) (compound : Compound line.toList) :
    ofBlob line = [escape line].filter (· ≠ "") := by
  have same : escape (String.ofList (trim line.toList)) = escape line := by
    rw [escape, String.toList_ofList, predicateChars_trim, escape]
  rw [ofBlob_line single, linePieces_of_compound compound, List.map_singleton, same]

theorem not_mem_ofBlob (blob : String) : "" ∉ ofBlob blob := by
  intro member
  obtain ⟨p, written, empty⟩ := List.mem_map.1 member
  exact ne_nil_of_mem_blobChars written (by simpa using empty)

/-- The lines of a text of predicates are read one by one: each on its own, in order, so that the predicates of two
    texts can be asked for together or one after the other. No predicate is empty, and a line without brackets,
    colons and bindings is read word by word. -/
theorem ofBlob_by_lines (a b : String) :
    ofBlob (a ++ "\n" ++ b) = ofBlob a ++ ofBlob b ∧
    (∀ s : Selection, s.fields (a ++ "\n" ++ b) = (s.fields a).fields b) ∧
    (∀ blob, "" ∉ ofBlob blob) ∧
    ∀ line : String, '\n' ∉ line.toList → '(' ∉ line.toList → ':' ∉ line.toList → ¬ BindsVariable line.toList →
      ofBlob line = ((words line.toList).map fun word => escape (String.ofList word)).filter (· ≠ "") := by
  refine ⟨ofBlob_append_newline a b, fun s => ?_, not_mem_ofBlob, fun line single bracket colon free => ?_⟩
  · simp [Selection.fields, ofBlob_append_newline]
  · have simple : ¬ Compound line.toList := by
      rintro (inside | inside | binds)
      · exact bracket inside
      · exact colon inside
      · exact free binds
    rw [ofBlob_line single, linePieces_of_not_compound simple]

/-- A binding on a line that ends with a carriage return, and a line of words, one of which is not written. -/
theorem ofBlob_by_lines_starring : ofBlob ("n as count(starring)\r" ++ "\n" ++ " uid |\tnäme name@en\r") =
    ["n as count(starring)", "uid", "<näme>", "name@en"] := by
  obtain ⟨joined, _, _, words⟩ := ofBlob_by_lines "n as count(starring)\r" " uid |\tnäme name@en\r"
  have line : ofBlob " uid |\tnäme name@en\r" = ["uid", "<näme>", "name@en"] := by
    rw [words _ (by decide) (by decide) (by decide) (by decide +kernel)]
    decide +kernel
  have binding : ofBlob "n as count(starring)\r" = ["n as count(starring)"] := by
    rw [ofBlob_compound_line (by decide) (.inl (by decide))]
    decide +kernel
  rw [joined, binding, line]
  rfl

end Predicate

end GraphQuery
