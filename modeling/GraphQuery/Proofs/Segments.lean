import GraphQuery.Block
import GraphQuery.Proofs.Joining

/-!
# Segments of paths

A path is cut from the left into its segments, from the right for the path around it, and
put together with arrows again. Main statement: all these views of a path agree, for every
text, also where a segment has one of the two characters of the arrow at its ends.
-/

namespace GraphQuery.Path

open Text

/-! ## Cutting from the left -/

/-- No arrow is found across the end of a text and an arrow after it, so the two are cut apart. -/
theorem splitArrows_append_arrow (cs ds : List Char) :
    splitArrows (cs ++ '-' :: '>' :: ds) = splitArrows cs ++ splitArrows ds := by
  fun_induction splitArrows cs with
  | case1 => simp [splitArrows]
  | case2 c => simp [splitArrows]
  | case3 c d cs here ih =>
    obtain ⟨rfl, rfl⟩ := here
    simp [splitArrows, ih]
  | case4 c d cs elsewhere ih =>
    simp only [List.cons_append] at ih ⊢
    rw [splitArrows, if_neg elsewhere, ih]
    obtain ⟨s, ss, split⟩ := List.exists_cons_of_ne_nil (splitArrows_ne_nil (d :: cs))
    simp [split]

theorem splitArrows_of_free {cs : List Char} (free : cutLast? cs = none) : splitArrows cs = [cs] := by
  fun_induction splitArrows cs with
  | case1 => rfl
  | case2 => rfl
  | case3 c d cs here ih =>
    obtain ⟨rfl, rfl⟩ := here
    exact absurd free (cutLast?_ne_none [] cs)
  | case4 c d cs elsewhere ih =>
    rw [ih (cutLast?_tail free)]
    rfl

theorem segments_append_arrow (around rest : String) :
    segments (around ++ "->" ++ rest) = segments around ++ segments rest := by
  have chars : (around ++ "->" ++ rest).toList = around.toList ++ '-' :: '>' :: rest.toList := by simp
  rw [segments, chars, splitArrows_append_arrow, List.map_append]
  rfl

theorem segments_of_free {name : String} (free : cutLast? name.toList = none) : segments name = [name] := by
  rw [segments, splitArrows_of_free free]
  simp

/-- Names without arrows are the segments of the path that they make. -/
theorem segments_ofSegments {parts : List String} (filled : parts ≠ []) (single : ∀ s ∈ parts, Single s) :
    segments (ofSegments parts) = parts := by
  induction parts with
  | nil => exact absurd rfl filled
  | cons s parts ih =>
    have first : segments s = [s] := segments_of_free (single s (by simp)).free
    cases parts with
    | nil => rwa [ofSegments, String.intercalate_singleton]
    | cons t parts =>
      have rest := ih (by simp) fun u member => single u (List.mem_cons_of_mem s member)
      rw [ofSegments, String.intercalate_cons_cons, segments_append_arrow, first, ← ofSegments, rest]
      rfl

/-! ## Cutting from the right -/

/-- The segments of a path end with a segment that has no arrow, and make the path around it without it. -/
theorem segments_eq_concat (path : String) :
    ∃ around last, segments path = around ++ [last] ∧ parent path = ofSegments around ∧
      lastName path = String.ofList (trim last.toList) := by
  rcases parent_cases path with ⟨free, top⟩ | ⟨rest, same, free⟩
  · refine ⟨[], path, segments_of_free free, top, ?_⟩
    rw [lastName, free]
  · refine ⟨segments (parent path), rest, ?_, (ofSegments_segments _).symm, ?_⟩
    · conv_lhs => rw [same]
      rw [segments_append_arrow, segments_of_free free]
    · rw [same, lastName_append_arrow, lastName, free]

/-! ## All views -/

/-- A path is its segments with arrows between them. The path around it has all segments but the last, which,
    without blanks at its ends, is the name of a block with this path. Names without arrows are found again in
    the path that they make. Joining is associative, with the empty path on either side changing nothing, and
    the path around a joined path is joined from the path around its inner part. -/
theorem views_agree (path : String) :
    (ofSegments (segments path) = path ∧
      parent path = ofSegments (segments path).dropLast ∧
      ∀ b : Block, b.path = path → some b.name = (segments path).getLast?.map fun s => String.ofList (trim s.toList)) ∧
    (∀ parts : List String, parts ≠ [] → (∀ s ∈ parts, Single s) → segments (ofSegments parts) = parts) ∧
    (∀ base inner, join (join base path) inner = join base (join path inner)) ∧
    (join path "" = path ∧ join "" path = path) ∧
    (path ≠ "" → ¬ arrow <+: path.toList → ∀ base, parent (join base path) = join base (parent path)) := by
  obtain ⟨around, last, split, outer, name⟩ := segments_eq_concat path
  refine ⟨⟨ofSegments_segments path, ?_, ?_⟩, ?_, ?_, ⟨join_empty path, empty_join path⟩, ?_⟩
  · rw [split, List.dropLast_concat, outer]
  · rintro b rfl
    rw [split, List.getLast?_concat, Option.map_some, ← name]
    rfl
  · intro parts filled single
    exact segments_ofSegments filled single
  · intro base inner
    exact join_assoc base path inner
  · intro filled starts base
    exact parent_join base ⟨filled, starts⟩

/-- A path with an empty segment, blanks, and the characters of an arrow at the ends of its segments. -/
def straddling : String := "a-->>b-> -c ->->>"

/-- The segments of that path and names that end and start as an arrow does are found again, and the path around
    it is the same inside a block. -/
theorem views_agree_straddling :
    segments straddling = ["a-", ">b", " -c ", "", ">"] ∧
    parent straddling = "a-->>b-> -c ->" ∧ parent straddling = ofSegments (segments straddling).dropLast ∧
    ({ path := "a->> b " } : Block).name = "> b" ∧
    segments (ofSegments ["-", ">", "x->"]) ≠ ["-", ">", "x->"] ∧ segments (ofSegments ["-", ">", ""]) = ["-", ">", ""] ∧
    parent (join "-" straddling) = join "-" (parent straddling) := by
  obtain ⟨⟨_, outer, _⟩, again, _, _, inside⟩ := views_agree straddling
  have single : ∀ s ∈ ["-", ">", ""], Single s := by decide
  exact ⟨by decide +kernel, by decide +kernel, outer, by decide +kernel, by decide +kernel,
    again _ (by simp) single, inside (by decide) (by decide) "-"⟩

end GraphQuery.Path
