import GraphQuery.Value

/-!
# Fragments of a query

A piece of query text with slots for values. A fragment holds the text before each
slot and the text after the last one, so it has one form whatever the order in which
it was put together, and text that happens to look like a slot is never one. Main
statements: appending is associative with the empty fragment as unit, and the values
of a fragment put together are those of its parts in order.
-/

namespace GraphQuery

/-- Query text with slots: the slots, each with the text before it, and the text after them. -/
structure Fragment where
  slots : List (String × Value) := []
  tail : String := ""

namespace Fragment

/-! ## Building -/

/-- The fragment without text and slots. -/
def empty : Fragment := {}

instance : Inhabited Fragment := ⟨empty⟩

instance : EmptyCollection Fragment := ⟨empty⟩

/-- Text alone. -/
def text (s : String) : Fragment := { tail := s }

/-- One slot alone. -/
def slot (v : Value) : Fragment := { slots := [("", v)] }

/-- One fragment after another. -/
def append (f g : Fragment) : Fragment :=
  match g.slots with
  | [] => { f with tail := f.tail ++ g.tail }
  | (s, v) :: slots => ⟨f.slots ++ (f.tail ++ s, v) :: slots, g.tail⟩

instance : Append Fragment := ⟨append⟩

/-- Whether there is neither text nor a slot. -/
def isEmpty (f : Fragment) : Bool := f.slots.isEmpty && f.tail.isEmpty

/-- Fragments with a separator between each two. -/
def separated (sep : String) : List Fragment → Fragment
  | [] => ∅
  | [f] => f
  | f :: g :: fs => f ++ text sep ++ separated sep (g :: fs)

/-- The fragments that are not empty, with a separator between each two. -/
def join (sep : String) (fs : List Fragment) : Fragment := separated sep (fs.filter (!·.isEmpty))

/-- A fragment between two texts; an empty fragment stays empty. -/
def wrap (before after : String) (f : Fragment) : Fragment :=
  if f.isEmpty then f else text before ++ f ++ text after

/-! ## Reading -/

/-- The values in the order of their slots. -/
def args (f : Fragment) : List Value := f.slots.map (·.2)

/-- The number of slots. -/
def argCount (f : Fragment) : Nat := f.slots.length

/-- The text of slots numbered from `start`. -/
def renderSlots (write : Nat → Value → String) : (start : Nat) → List (String × Value) → String
  | _, [] => ""
  | n, (s, v) :: slots => s ++ write n v ++ renderSlots write (n + 1) slots

/-- The text with each slot written from its number and its value. -/
def render (write : Nat → Value → String) (f : Fragment) : String :=
  renderSlots write 0 f.slots ++ f.tail

/-- The mark that stands for a slot when a fragment is shown. -/
def slotMark : String := "??"

/-- The text with a mark for each slot. -/
def display (f : Fragment) : String := f.render fun _ _ => slotMark

/-- The text with each value as a literal. -/
def inlined (f : Fragment) : String := f.render fun _ v => v.literal

/-- Equality of texts and, slot by slot, of values. -/
def same (f g : Fragment) : Bool := f.slots == g.slots && f.tail == g.tail

instance : BEq Fragment := ⟨same⟩

/-! ## Laws -/

theorem append_eq (f g : Fragment) : f ++ g = f.append g := rfl

theorem append_empty (f : Fragment) : f ++ (∅ : Fragment) = f := by
  cases f; simp [append_eq, append, EmptyCollection.emptyCollection, empty]

theorem empty_append (f : Fragment) : (∅ : Fragment) ++ f = f := by
  obtain ⟨slots, tail⟩ := f
  cases slots <;> simp [append_eq, append, EmptyCollection.emptyCollection, empty]

theorem append_assoc (f g h : Fragment) : f ++ g ++ h = f ++ (g ++ h) := by
  obtain ⟨fs, ft⟩ := f
  obtain ⟨gs, gt⟩ := g
  obtain ⟨hs, ht⟩ := h
  cases gs <;> cases hs <;> simp [append_eq, append, String.append_assoc]

theorem args_append (f g : Fragment) : (f ++ g).args = f.args ++ g.args := by
  obtain ⟨fs, ft⟩ := f
  obtain ⟨gs, gt⟩ := g
  cases gs <;> simp [append_eq, append, args]

theorem args_text (s : String) : (text s).args = [] := rfl

theorem args_slot (v : Value) : (slot v).args = [v] := rfl

theorem argCount_eq_length_args (f : Fragment) : f.argCount = f.args.length := by
  simp [argCount, args]

theorem args_eq_nil_of_isEmpty {f : Fragment} (h : f.isEmpty = true) : f.args = [] := by
  simp_all [isEmpty, args]

theorem args_wrap (before after : String) (f : Fragment) : (f.wrap before after).args = f.args := by
  unfold wrap
  split
  · rfl
  · simp [args_append, args_text]

theorem args_separated (sep : String) (fs : List Fragment) : (separated sep fs).args = fs.flatMap args := by
  induction fs with
  | nil => rfl
  | cons f fs ih =>
    cases fs with
    | nil => simp [separated]
    | cons g fs => simp [separated, args_append, args_text, ih]

theorem args_join (sep : String) (fs : List Fragment) : (join sep fs).args = fs.flatMap args := by
  rw [join, args_separated]
  induction fs with
  | nil => rfl
  | cons f fs ih =>
    by_cases h : f.isEmpty
    · simp [h, ih, args_eq_nil_of_isEmpty h]
    · simp [h, ih]

end Fragment

end GraphQuery
