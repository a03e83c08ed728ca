import GraphQuery.BlockTree
import GraphQuery.Proofs.Rendering

/-!
# Regrouping

Joined fragments do not show how they were grouped. Main statement: members may be joined
group by group with the same separator, and a group without text and slots leaves no
separator behind. So the body of a block is joined from its selection and the blocks nested
in it in one go.
-/

namespace GraphQuery

namespace Fragment

/-! ## Joining two -/

/-- Two fragments with a separator between them, which only stands where there is something on each side. -/
def between (sep : String) (f g : Fragment) : Fragment :=
  if f.isEmpty then g else if g.isEmpty then f else f ++ text sep ++ g

variable {sep : String} {f g : Fragment}

theorem between_of_isEmpty (blank : f.isEmpty = true) : between sep f g = g := by simp [between, blank]

theorem between_of_isEmpty_right (blank : g.isEmpty = true) : between sep f g = f := by
  by_cases none : f.isEmpty = true
  · rw [between_of_isEmpty none, eq_empty_of_isEmpty none, eq_empty_of_isEmpty blank]
  · simp [between, none, blank]

theorem between_of_filled (hf : f.isEmpty = false) (hg : g.isEmpty = false) :
    between sep f g = f ++ text sep ++ g := by
  simp [between, hf, hg]

theorem isEmpty_between : (between sep f g).isEmpty = (f.isEmpty && g.isEmpty) := by
  cases hf : f.isEmpty with
  | true => rw [between_of_isEmpty hf, Bool.true_and]
  | false =>
    cases hg : g.isEmpty with
    | true => rw [between_of_isEmpty_right hg, hf, Bool.false_and]
    | false =>
      rw [between_of_filled hf hg, isEmpty_append, isEmpty_append, hf, hg]
      rfl

theorem between_assoc (sep : String) (f g h : Fragment) :
    between sep (between sep f g) h = between sep f (between sep g h) := by
  cases hf : f.isEmpty with
  | true => rw [between_of_isEmpty hf, between_of_isEmpty hf]
  | false =>
    cases hg : g.isEmpty with
    | true => rw [between_of_isEmpty_right hg, between_of_isEmpty hg]
    | false =>
      cases hh : h.isEmpty with
      | true => rw [between_of_isEmpty_right hh, between_of_isEmpty_right hh]
      | false =>
        have left : (between sep f g).isEmpty = false := by rw [isEmpty_between, hf, Bool.false_and]
        have right : (between sep g h).isEmpty = false := by rw [isEmpty_between, hg, Bool.false_and]
        rw [between_of_filled left hh, between_of_filled hf right, between_of_filled hf hg, between_of_filled hg hh]
        simp only [append_assoc]

/-! ## Joining groups -/

theorem not_isEmpty_separated (sep : String) (filled : f.isEmpty = false) (fs : List Fragment) :
    (separated sep (f :: fs)).isEmpty = false := by
  cases fs with
  | nil => exact filled
  | cons g fs =>
    rw [separated, isEmpty_append, isEmpty_append, filled]
    rfl

theorem join_cons (sep : String) (f : Fragment) (fs : List Fragment) :
    join sep (f :: fs) = between sep f (join sep fs) := by
  cases hf : f.isEmpty with
  | true => rw [between_of_isEmpty hf, join, List.filter_cons_of_neg (by simp [hf]), join]
  | false =>
    rw [join, List.filter_cons_of_pos (by simp [hf])]
    cases kept : fs.filter (!·.isEmpty) with
    | nil => rw [join, kept, between_of_isEmpty_right rfl, separated]
    | cons g gs =>
      have inside : g ∈ fs.filter (!·.isEmpty) := kept ▸ List.mem_cons_self
      have hg : g.isEmpty = false := by simpa using (List.mem_filter.1 inside).2
      have filled : (join sep fs).isEmpty = false := by
        rw [join, kept]
        exact not_isEmpty_separated sep hg gs
      rw [between_of_filled hf filled, join, kept, separated]

theorem isEmpty_join (sep : String) (fs : List Fragment) : (join sep fs).isEmpty = fs.all (·.isEmpty) := by
  induction fs with
  | nil => rfl
  | cons f fs ih => rw [join_cons, isEmpty_between, ih, List.all_cons]

theorem join_append (sep : String) (fs gs : List Fragment) :
    join sep (fs ++ gs) = between sep (join sep fs) (join sep gs) := by
  induction fs with
  | nil => exact (between_of_isEmpty rfl).symm
  | cons f fs ih => rw [List.cons_append, join_cons, ih, join_cons, between_assoc]

theorem join_pair (sep : String) (f g : Fragment) : join sep [f, g] = between sep f g := by
  have alone : join sep [g] = g := by
    rw [join_cons]
    exact between_of_isEmpty_right rfl
  rw [join_cons, alone]

end Fragment

/-- The selection of a body is joined with the nested blocks as if it were the first of them. -/
theorem bodyFragment_eq_join (selection : Fragment) (nested : List Fragment) :
    bodyFragment selection nested = .join " " (selection :: nested) := by
  rw [bodyFragment, Fragment.join_pair, Fragment.join_cons]

end GraphQuery
