import GraphQuery.Text.Blank
import GraphQuery.Text.Cut

/-!
# Paths of nested blocks

A path names a nested block by the names of the blocks around it and its own, with an
arrow between each two. Main statement: the segments of a path, put together again,
are the path.
-/

namespace GraphQuery.Path

open Text

/-- The mark between two segments. -/
def arrow : List Char := ['-', '>']

/-! ## Segments -/

/-- The pieces of a text between arrows. -/
def splitArrows : List Char → List (List Char)
  | [] => [[]]
  | [c] => [[c]]
  | c :: d :: cs =>
    if c = '-' ∧ d = '>' then [] :: splitArrows cs
    else (splitArrows (d :: cs)).modifyHead (c :: ·)

theorem splitArrows_ne_nil (cs : List Char) : splitArrows cs ≠ [] := by
  fun_induction splitArrows cs with
  | case1 => simp
  | case2 => simp
  | case3 => simp
  | case4 c d cs _ ih =>
    obtain ⟨s, ss, h⟩ := List.exists_cons_of_ne_nil ih
    simp [h]

def segments (path : String) : List String := (splitArrows path.toList).map String.ofList

def ofSegments (parts : List String) : String := String.intercalate "->" parts

theorem intercalate_splitArrows (cs : List Char) : arrow.intercalate (splitArrows cs) = cs := by
  fun_induction splitArrows cs with
  | case1 => simp [List.intercalate, List.intersperse]
  | case2 => simp [List.intercalate, List.intersperse]
  | case3 c d cs h ih =>
    obtain ⟨s, ss, hs⟩ := List.exists_cons_of_ne_nil (splitArrows_ne_nil cs)
    rw [hs] at ih ⊢
    simp_all [List.intercalate, List.intersperse, arrow]
  | case4 c d cs _ ih =>
    obtain ⟨s, ss, hs⟩ := List.exists_cons_of_ne_nil (splitArrows_ne_nil (d :: cs))
    rw [hs] at ih ⊢
    cases ss <;> simp_all [List.intercalate, List.intersperse]

/-- The segments of a path, put together again, are the path. -/
theorem ofSegments_segments (path : String) : ofSegments (segments path) = path := by
  rw [← String.toList_inj, ofSegments, segments, String.toList_intercalate, List.map_map]
  have : String.toList ∘ String.ofList = id := by
    funext cs
    simp
  rw [this, List.map_id]
  exact intercalate_splitArrows path.toList

/-! ## The last arrow -/

/-- What stands before and after the last arrow of a text. -/
def cutLast? : List Char → Option (List Char × List Char)
  | [] => none
  | [_] => none
  | c :: d :: cs =>
    match cutLast? (d :: cs) with
    | some (before, rest) => some (c :: before, rest)
    | none => if c = '-' ∧ d = '>' then some ([], cs) else none

/-- The path of the block around a block, empty at the top. -/
def parent (path : String) : String :=
  match cutLast? path.toList with
  | some (before, _) => String.ofList before
  | none => ""

/-- The name of a block inside the block around it. -/
def lastName (path : String) : String :=
  match cutLast? path.toList with
  | some (_, rest) => String.ofList (trim rest)
  | none => String.ofList (trim path.toList)

/-! ## Joining -/

/-- One path inside another; an empty path stands for no block. -/
def join (base path : String) : String :=
  if base.isEmpty then path
  else if path.isEmpty then base
  else base ++ "->" ++ path

/-- A path seen from the block at `base`; a path that is not inside it stays as it is. -/
def relativeTo (base path : String) : String :=
  if base.isEmpty then path
  else if path = base then ""
  else match (after? id base.toList path.toList).bind (after? id arrow) with
    | some rest => String.ofList rest
    | none => path

theorem join_empty (base : String) : join base "" = base := by
  by_cases h : base = "" <;> simp [join, h]

theorem empty_join (path : String) : join "" path = path := by simp [join]

end GraphQuery.Path
