import GraphQuery.Proofs.Renaming

/-!
# Joined paths

How the path around a block, and a path seen from a block, go along when a path is put
inside another one. Main statements: joining is associative, the path around a joined path
is joined from the path around its inner part, and a path is longer than the path around it.
-/

namespace GraphQuery.Path

/-! ## Joining -/

theorem join_of_ne {base path : String} (hb : base ≠ "") (hp : path ≠ "") : join base path = base ++ "->" ++ path := by
  simp [join, hb, hp]

theorem join_eq_empty_iff {base path : String} : join base path = "" ↔ base = "" ∧ path = "" := by
  by_cases hb : base = ""
  · simp [hb, empty_join]
  · by_cases hp : path = ""
    · simp [hb, hp, join_empty]
    · simp [join_of_ne hb hp, hb]

theorem join_assoc (base path inner : String) : join (join base path) inner = join base (join path inner) := by
  by_cases hb : base = ""
  · rw [hb, empty_join, empty_join]
  by_cases hp : path = ""
  · rw [hp, join_empty, empty_join]
  by_cases hi : inner = ""
  · rw [hi, join_empty, join_empty]
  have outer : join base path ≠ "" := fun empty => hb (join_eq_empty_iff.1 empty).1
  have within : join path inner ≠ "" := fun empty => hp (join_eq_empty_iff.1 empty).1
  rw [join_of_ne outer hi, join_of_ne hb within, join_of_ne hb hp, join_of_ne hp hi]
  simp only [String.append_assoc]

/-- A path gets longer by the path that is put inside it, and by an arrow if there is one on each side. -/
theorem length_join (base path : String) :
    (join base path).length = base.length + (if base = "" ∨ path = "" then 0 else 2) + path.length := by
  by_cases hb : base = ""
  · simp [hb, empty_join]
  · by_cases hp : path = ""
    · simp [hp, join_empty]
    · have arrow : "->".length = 2 := by decide
      simp [join_of_ne hb hp, hb, hp, String.length_append, arrow]

/-! ## The path around a path -/

/-- A path that does not start with an arrow, and is not empty. -/
def Anchored (path : String) : Prop := path ≠ "" ∧ ¬ arrow <+: path.toList

theorem parent_of_free {path : String} (free : cutLast? path.toList = none) : parent path = "" := by
  simp [parent, free]

theorem parent_append_arrow (around : String) {rest : String} (free : cutLast? rest.toList = none) :
    parent (around ++ "->" ++ rest) = around := by
  have chars : (around ++ "->" ++ rest).toList = around.toList ++ '-' :: '>' :: rest.toList := by simp
  simp [parent, chars, cutLast?_append_arrow _ free]

/-- A path either is a name at the top or ends with a name after the path around it. -/
theorem parent_cases (path : String) :
    (cutLast? path.toList = none ∧ parent path = "") ∨
      ∃ rest, path = parent path ++ "->" ++ rest ∧ cutLast? rest.toList = none := by
  cases found : cutLast? path.toList with
  | none => exact .inl ⟨rfl, parent_of_free found⟩
  | some parts =>
    obtain ⟨before, rest⟩ := parts
    obtain ⟨same, free⟩ := of_cutLast?_eq_some found
    have around : parent path = String.ofList before := by simp [parent, found]
    refine .inr ⟨String.ofList rest, ?_, by simpa using free⟩
    rw [around, ← String.toList_inj, same]
    simp

theorem length_parent_lt {path : String} (filled : path ≠ "") : (parent path).length < path.length := by
  rcases parent_cases path with ⟨_, top⟩ | ⟨rest, same, _⟩
  · rw [top]
    have : path.length ≠ 0 := fun none => filled (String.length_eq_zero_iff.1 none)
    simpa using Nat.pos_of_ne_zero this
  · have lengths := congrArg String.length same
    have arrow : "->".length = 2 := by decide
    simp only [String.length_append, arrow] at lengths
    omega

/-- The path around a path inside a block is inside that block too. -/
theorem parent_join (base : String) {path : String} (anchored : Anchored path) :
    parent (join base path) = join base (parent path) := by
  obtain ⟨filled, starts⟩ := anchored
  by_cases hb : base = ""
  · rw [hb, empty_join, empty_join]
  rw [join_of_ne hb filled]
  rcases parent_cases path with ⟨free, top⟩ | ⟨rest, same, free⟩
  · rw [top, join_empty, parent_append_arrow base free]
  · have deep : parent path ≠ "" := by
      intro top
      rw [top] at same
      exact starts ⟨rest.toList, by rw [same]; simp [arrow]⟩
    rw [join_of_ne hb deep]
    generalize parent path = around at same
    rw [same, ← String.append_assoc, ← String.append_assoc, parent_append_arrow _ free]

/-! ## Anchored paths -/

theorem Anchored.append_arrow {around : String} (anchored : Anchored around) (rest : String) :
    Anchored (around ++ "->" ++ rest) := by
  obtain ⟨filled, starts⟩ := anchored
  refine ⟨by simp, ?_⟩
  have chars : (around ++ "->" ++ rest).toList = around.toList ++ '-' :: '>' :: rest.toList := by simp
  rw [chars]
  -- Only the first two characters count, and the second is not the mark's when the first stands alone.
  match found : around.toList with
  | [] => exact absurd (String.toList_eq_nil_iff.1 found) filled
  | [c] => simp [arrow]
  | c :: d :: cs => simpa [found, arrow] using starts

theorem Anchored.join {base path : String} (outer : base = "" ∨ Anchored base) (inner : Anchored path) :
    Anchored (join base path) := by
  rcases outer with rfl | outer
  · rwa [empty_join]
  · rw [join_of_ne outer.1 inner.1]
    exact outer.append_arrow path

theorem Anchored.parent {path : String} (anchored : Anchored path) :
    Path.parent path = "" ∨ Anchored (Path.parent path) := by
  rcases parent_cases path with ⟨_, top⟩ | ⟨rest, same, _⟩
  · exact .inl top
  · by_cases top : Path.parent path = ""
    · exact .inl top
    · refine .inr ⟨top, fun starts => anchored.2 (starts.trans ⟨('-' :: '>' :: rest.toList), ?_⟩)⟩
      conv_rhs => rw [same]
      simp

/-- A name without an arrow. -/
def Single (name : String) : Prop := ¬ arrow <:+: name.toList

instance (name : String) : Decidable (Single name) := inferInstanceAs (Decidable ¬ arrow <:+: name.toList)

theorem Single.free {name : String} (single : Single name) : cutLast? name.toList = none := by
  rw [cutLast?_eq_none_iff]
  intro before rest same
  exact single ⟨before, rest, by rw [same]; simp [arrow]⟩

theorem Single.anchored {name : String} (single : Single name) (filled : name ≠ "") : Anchored name :=
  ⟨filled, fun starts => single starts.isInfix⟩

/-- A path without empty segments. -/
def Filled (path : String) : Prop := ∀ s ∈ segments path, s ≠ ""

instance (path : String) : Decidable (Filled path) := inferInstanceAs (Decidable (∀ s ∈ segments path, s ≠ ""))

theorem Filled.anchored {path : String} (h : Filled path) : Anchored path := by
  have first : (splitArrows path.toList).head? ≠ some [] := by
    intro empty
    exact h "" (List.mem_map.2 ⟨[], List.mem_of_head? empty, rfl⟩) rfl
  constructor
  · rintro rfl
    exact first rfl
  · rintro ⟨rest, same⟩
    rw [← same] at first
    exact first (by simp [arrow, splitArrows])

/-! ## Paths seen from a block -/

theorem after?_append (mark rest : List Char) : Text.after? id mark (mark ++ rest) = some rest := by
  induction mark with
  | nil => rfl
  | cons m ms ih => simpa [Text.after?] using ih

theorem relativeTo_append_arrow {base : String} (hb : base ≠ "") (rest : String) :
    relativeTo base (base ++ "->" ++ rest) = rest := by
  have longer : base ++ "->" ++ rest ≠ base := by
    intro same
    have lengths := congrArg String.length same
    have arrow : "->".length = 2 := by decide
    simp only [String.length_append, arrow] at lengths
    omega
  have chars : (base ++ "->" ++ rest).toList = base.toList ++ (arrow ++ rest.toList) := by simp [arrow]
  simp [relativeTo, hb, longer, chars, after?_append]

/-! ## Paths inside a block -/

/-- A key that is the path of a block or starts with it. -/
def Within (base key : String) : Prop := base = "" ∨ key = base ∨ ∃ rest, key = base ++ "->" ++ rest

/-- A key that goes on after the path of a block. -/
def Below (base key : String) : Prop := base = "" ∨ ∃ rest, rest ≠ "" ∧ key = base ++ "->" ++ rest

theorem below_join (base : String) {path : String} (filled : path ≠ "") : Below base (join base path) := by
  by_cases hb : base = ""
  · exact .inl hb
  · exact .inr ⟨path, filled, join_of_ne hb filled⟩

theorem within_join (base path : String) : Within base (join base path) := by
  by_cases hb : base = ""
  · exact .inl hb
  · by_cases hp : path = ""
    · exact .inr (.inl (by rw [hp, join_empty]))
    · exact .inr (.inr ⟨path, join_of_ne hb hp⟩)

theorem within_parent_join (base : String) {path : String} (filled : path ≠ "") :
    Within base (parent (join base path)) := by
  by_cases hb : base = ""
  · exact .inl hb
  rw [join_of_ne hb filled]
  rcases parent_cases path with ⟨free, _⟩ | ⟨rest, same, free⟩
  · exact .inr (.inl (parent_append_arrow base free))
  · refine .inr (.inr ⟨parent path, ?_⟩)
    generalize parent path = around at same
    rw [same, ← String.append_assoc, ← String.append_assoc, parent_append_arrow _ free]

theorem Within.of_join {base path key : String} (within : Within (join base path) key) (filled : path ≠ "") :
    Within base key := by
  by_cases hb : base = ""
  · exact .inl hb
  rw [join_of_ne hb filled] at within
  rcases within with empty | rfl | ⟨rest, rfl⟩
  · simp at empty
  · exact .inr (.inr ⟨path, rfl⟩)
  · exact .inr (.inr ⟨path ++ "->" ++ rest, by simp only [String.append_assoc]⟩)

theorem Below.of_join {base path key : String} (below : Below (join base path) key) (filled : path ≠ "") :
    Below base key := by
  by_cases hb : base = ""
  · exact .inl hb
  rw [join_of_ne hb filled] at below
  rcases below with empty | ⟨rest, _, rfl⟩
  · simp at empty
  · exact .inr ⟨path ++ "->" ++ rest, by simp, by simp only [String.append_assoc]⟩

theorem length_relativeTo_lt {base key inner : String} (within : Within base key) (below : Below base inner)
    (longer : key.length < inner.length) : (relativeTo base key).length < (relativeTo base inner).length := by
  by_cases hb : base = ""
  · simpa [hb, relativeTo] using longer
  obtain ⟨rest, filled, rfl⟩ := below.resolve_left hb
  rw [relativeTo_append_arrow hb]
  rcases within.resolve_left hb with rfl | ⟨other, rfl⟩
  · have none : relativeTo key key = "" := by simp [relativeTo, hb]
    have : rest.length ≠ 0 := fun empty => filled (String.length_eq_zero_iff.1 empty)
    rw [none]
    simpa using Nat.pos_of_ne_zero this
  · rw [relativeTo_append_arrow hb]
    simp only [String.length_append] at longer
    omega

theorem length_join_lt {base path inner : String} (hb : base ≠ "") (longer : path.length < inner.length) :
    (join base path).length < (join base inner).length := by
  have filled : inner ≠ "" := by
    rintro rfl
    simp at longer
  simp only [length_join, hb, filled, false_or, if_false]
  split <;> omega

end GraphQuery.Path
