import GraphQuery.Fragment
import Mathlib.Algebra.GroupWithZero.Nat

/-!
# Rendering fragments

How a fragment put together from parts is rendered, and when it is empty. Main statement:
rendering fragments with a separator between each two numbers the slots of a fragment
from the number of all slots before it.
-/

namespace GraphQuery.Fragment

theorem renderSlots_append (write : Nat → Value → String) (start : Nat) (xs ys : List (String × Value)) :
    renderSlots write start (xs ++ ys) = renderSlots write start xs ++ renderSlots write (start + xs.length) ys := by
  induction xs generalizing start with
  | nil => simp [renderSlots]
  | cons x xs ih =>
    have shift : start + 1 + xs.length = start + (x :: xs).length := by
      rw [List.length_cons]
      omega
    rw [List.cons_append, renderSlots, renderSlots, ih, shift]
    simp [String.append_assoc]

theorem renderSlots_shift (write : Nat → Value → String) (start : Nat) (xs : List (String × Value)) :
    renderSlots write start xs = renderSlots (fun i => write (start + i)) 0 xs := by
  -- The start is split in two, so that the induction may move one part into the other.
  suffices split : ∀ a b, renderSlots write (a + b) xs = renderSlots (fun i => write (a + i)) b xs by
    simpa using split start 0
  induction xs with
  | nil => exact fun a b => rfl
  | cons x xs ih =>
    intro a b
    rw [renderSlots, renderSlots, Nat.add_assoc, ih]

/-- Slots of a fragment after another are numbered after those of the other. -/
theorem render_append (write : Nat → Value → String) (f g : Fragment) :
    (f ++ g).render write = f.render write ++ g.render fun i => write (f.argCount + i) := by
  obtain ⟨fs, ft⟩ := f
  obtain ⟨gs, gt⟩ := g
  cases gs with
  | nil => simp [render, append_eq, append, renderSlots, String.append_assoc]
  | cons s gs =>
    simp only [render, append_eq, append, argCount]
    rw [renderSlots_append, renderSlots_shift write (0 + fs.length)]
    simp [renderSlots, String.append_assoc]

theorem argCount_append (f g : Fragment) : (f ++ g).argCount = f.argCount + g.argCount := by
  rw [argCount_eq_length_args, args_append, List.length_append, ← argCount_eq_length_args,
    ← argCount_eq_length_args]

theorem render_text (write : Nat → Value → String) (s : String) : (text s).render write = s := by
  simp [render, text, renderSlots]

theorem eq_empty_of_isEmpty {f : Fragment} (h : f.isEmpty = true) : f = ∅ := by
  obtain ⟨slots, tail⟩ := f
  simp only [isEmpty, Bool.and_eq_true, List.isEmpty_iff, String.isEmpty_iff] at h
  obtain ⟨rfl, rfl⟩ := h
  rfl

theorem isEmpty_append (f g : Fragment) : (f ++ g).isEmpty = (f.isEmpty && g.isEmpty) := by
  obtain ⟨fs, ft⟩ := f
  obtain ⟨gs, gt⟩ := g
  cases gs with
  | nil =>
    rw [Bool.eq_iff_iff]
    simp [isEmpty, append_eq, append, String.isEmpty_iff, and_assoc]
  | cons s gs => simp [isEmpty, append_eq, append]

theorem text_append (s t : String) : text (s ++ t) = text s ++ text t := rfl

theorem join_eq_separated {sep : String} {fs : List Fragment} (filled : ∀ f ∈ fs, f.isEmpty = false) :
    join sep fs = separated sep fs := by
  have kept : fs.filter (!·.isEmpty) = fs := by
    refine List.filter_eq_self.2 fun f member => ?_
    rw [filled f member]
    rfl
  rw [join, kept]

/-- The number of slots of the first fragments of a list. -/
def slotsBefore (fs : List Fragment) (k : Nat) : Nat := ((fs.take k).map argCount).sum

theorem render_separated (write : Nat → Value → String) (sep : String) (fs : List Fragment) :
    (separated sep fs).render write =
      String.intercalate sep (fs.mapIdx fun k f => f.render fun i => write (slotsBefore fs k + i)) := by
  induction fs generalizing write with
  | nil => simp [separated, render, renderSlots, EmptyCollection.emptyCollection, empty]
  | cons f fs ih =>
    have head : slotsBefore (f :: fs) 0 = 0 := rfl
    cases fs with
    | nil => simp [separated, head]
    | cons g fs =>
      have next (k : Nat) : slotsBefore (f :: g :: fs) (k + 1) = f.argCount + slotsBefore (g :: fs) k := by
        simp [slotsBefore]
      have alone : (f ++ text sep).argCount = f.argCount := by
        rw [argCount_append]
        rfl
      rw [separated, render_append, render_append, render_text, alone, ih, List.mapIdx_cons, List.mapIdx_cons,
        List.mapIdx_cons, String.intercalate_cons_cons]
      simp only [head, next, Nat.zero_add, Nat.add_assoc]

end GraphQuery.Fragment
