import GraphQuery.Proofs.Rendering
import Mathlib.Data.List.Induction

/-!
# Fragments as lists of pieces

A fragment can be put down piece by piece: texts and slots in one list, where text that
follows text goes on with it. Main statements: the pieces of a fragment that is put together
are those that are put down for its parts one after another, a fragment is read off its
pieces, and no list that belongs to a fragment has an empty text or two texts next to each
other.
-/

namespace GraphQuery.Fragment

/-! ## Pieces -/

/-- A piece of a fragment: text, or a slot with its value. -/
inductive Piece where
  | text (s : String)
  | slot (v : Value)

namespace Piece

def isText : Piece → Bool
  | .text _ => true
  | .slot _ => false

def value? : Piece → Option Value
  | .text _ => none
  | .slot v => some v

end Piece

/-- Pieces in the order in which they are written. -/
abbrev Pieces := List Piece

namespace Pieces

/-! ## Building -/

/-- Pieces with text after them. Text goes on with the text before it, and no text leaves no piece. -/
def addText (ps : Pieces) (s : String) : Pieces :=
  if s.isEmpty then ps
  else
    match ps.getLast? with
    | some (.text t) => ps.dropLast ++ [.text (t ++ s)]
    | _ => ps ++ [.text s]

/-- Pieces with a slot after them. -/
def addSlot (ps : Pieces) (v : Value) : Pieces := ps ++ [.slot v]

/-- Pieces with one more after them. -/
def add (ps : Pieces) : Piece → Pieces
  | .text s => ps.addText s
  | .slot v => ps.addSlot v

/-- Pieces with others after them, one by one. -/
def append (ps qs : Pieces) : Pieces := qs.foldl add ps

/-- The pieces of a text. -/
def ofText (s : String) : Pieces := addText [] s

/-- Joined pieces with one more member. The mark tells whether it is the first, before which no separator stands. -/
def addMember (sep : String) (joined : Pieces × Bool) (ps : Pieces) : Pieces × Bool :=
  let before := if joined.2 then joined.1 else joined.1.addText sep
  (before.append ps, false)

/-- The members that are not empty, with a separator between each two. -/
def join (sep : String) (members : List Pieces) : Pieces :=
  ((members.filter (!·.isEmpty)).foldl (addMember sep) ([], true)).1

/-- Pieces between two texts; no pieces stay none. -/
def wrap (before after : String) (ps : Pieces) : Pieces :=
  if ps.isEmpty then ps else ((ofText before).append ps).addText after

/-! ## Reading -/

/-- The values in the order of their slots. -/
def args (ps : Pieces) : List Value := ps.filterMap Piece.value?

/-- The number of slots. -/
def argCount (ps : Pieces) : Nat := ps.countP (!·.isText)

/-- The text of pieces whose slots are numbered from `start`. -/
def renderFrom (write : Nat → Value → String) : (start : Nat) → Pieces → String
  | _, [] => ""
  | n, .text s :: ps => s ++ renderFrom write n ps
  | n, .slot v :: ps => write n v ++ renderFrom write (n + 1) ps

/-- The text with each slot written from its number and its value. -/
def render (write : Nat → Value → String) (ps : Pieces) : String := renderFrom write 0 ps

/-! ## The normal form -/

/-- No text is empty, and no two texts stand next to each other. -/
structure Canonical (ps : Pieces) : Prop where
  filled : ∀ s, .text s ∈ ps → s ≠ ""
  apart : ∀ s t, ¬ [.text s, .text t] <:+: ps

/-! ## Text after pieces -/

theorem addText_empty (ps : Pieces) : ps.addText "" = ps := rfl

theorem ofText_of_ne {s : String} (filled : s ≠ "") : ofText s = [.text s] := by
  simp [ofText, addText, filled]

theorem isEmpty_ofText (s : String) : (ofText s).isEmpty = s.isEmpty := by
  by_cases none : s = ""
  · rw [none]
    rfl
  · rw [ofText_of_ne none, String.isEmpty_eq_false_iff.2 none]
    rfl

theorem addText_concat_text (ps : Pieces) (t s : String) : addText (ps ++ [.text t]) s = ps ++ [.text (t ++ s)] := by
  by_cases none : s = ""
  · rw [none, addText_empty, String.append_empty]
  · simp [addText, none]

theorem addText_concat_slot (ps : Pieces) (v : Value) (s : String) :
    addText (ps ++ [.slot v]) s = ps ++ .slot v :: ofText s := by
  by_cases none : s = ""
  · rw [none]
    rfl
  · rw [ofText_of_ne none]
    simp [addText, none]

/-- Text looks back no further than the last slot. -/
theorem addText_after_slot (ps : Pieces) (v : Value) (qs : Pieces) (s : String) :
    addText (ps ++ .slot v :: qs) s = ps ++ .slot v :: addText qs s := by
  cases qs using List.reverseRecOn with
  | nil => exact addText_concat_slot ps v s
  | append_singleton qs q =>
    have last : ps ++ .slot v :: (qs ++ [q]) = (ps ++ .slot v :: qs) ++ [q] := by simp
    rw [last]
    cases q with
    | text t => rw [addText_concat_text, addText_concat_text, List.append_assoc, List.cons_append]
    | slot w => rw [addText_concat_slot, addText_concat_slot, List.append_assoc, List.cons_append]

theorem addText_ofText (s t : String) : addText (ofText s) t = ofText (s ++ t) := by
  by_cases none : s = ""
  · rw [none, String.empty_append]
    rfl
  · rw [ofText_of_ne none, ofText_of_ne (by simp [none])]
    exact addText_concat_text [] s t

theorem append_ofText (ps : Pieces) (s : String) : ps.append (ofText s) = ps.addText s := by
  by_cases none : s = ""
  · rw [none]
    rfl
  · rw [ofText_of_ne none]
    rfl

/-! ## Reading after text -/

theorem args_ofText (s : String) : (ofText s).args = [] := by
  by_cases none : s = ""
  · rw [none]
    rfl
  · rw [ofText_of_ne none]
    rfl

theorem argCount_eq_length_args (ps : Pieces) : ps.argCount = ps.args.length := by
  induction ps with
  | nil => rfl
  | cons p ps ih =>
    cases p with
    | text s =>
      rw [argCount, List.countP_cons_of_neg Bool.false_ne_true, ← argCount, ih]
      rfl
    | slot v =>
      rw [argCount, List.countP_cons_of_pos rfl, ← argCount, ih]
      rfl

theorem renderFrom_ofText_append (write : Nat → Value → String) (start : Nat) (s : String) (ps : Pieces) :
    renderFrom write start (ofText s ++ ps) = s ++ renderFrom write start ps := by
  by_cases none : s = ""
  · rw [none, String.empty_append]
    rfl
  · rw [ofText_of_ne none]
    rfl

/-! ## Canonical lists -/

theorem canonical_ofText (s : String) : (ofText s).Canonical := by
  by_cases none : s = ""
  · rw [none]
    exact ⟨by simp [ofText, addText], by simp [ofText, addText]⟩
  · rw [ofText_of_ne none]
    refine ⟨fun t member => ?_, fun t u inside => ?_⟩
    · cases List.mem_singleton.1 member
      exact none
    · simpa using inside.length_le

theorem Canonical.slot_cons {ps : Pieces} (canonical : ps.Canonical) (v : Value) :
    Canonical (.slot v :: ps) := by
  refine ⟨fun s member => canonical.filled s (by simpa using member), fun s t inside => ?_⟩
  rcases List.infix_cons_iff.1 inside with starts | later
  · cases (List.cons_prefix_cons.1 starts).1
  · exact canonical.apart s t later

/-- A slot keeps the text before it apart from all that comes after. -/
theorem Canonical.after_slot {ps : Pieces} (canonical : ps.Canonical) (s : String) (v : Value) :
    Canonical (ofText s ++ .slot v :: ps) := by
  by_cases none : s = ""
  · rw [none]
    exact canonical.slot_cons v
  · rw [ofText_of_ne none]
    refine ⟨fun t member => ?_, fun t u inside => ?_⟩
    · rcases List.mem_cons.1 member with same | later
      · cases same
        exact none
      · exact (canonical.slot_cons v).filled t later
    · rcases List.infix_cons_iff.1 inside with starts | later
      · cases (List.cons_prefix_cons.1 (List.cons_prefix_cons.1 starts).2).1
      · exact (canonical.slot_cons v).apart t u later

/-- Text added to pieces that stay canonical with it stands for itself. -/
theorem addText_of_canonical {ps : Pieces} {s : String} (canonical : Canonical (ps ++ [.text s])) :
    ps.addText s = ps ++ [.text s] := by
  have filled : s ≠ "" := canonical.filled s (by simp)
  cases ps using List.reverseRecOn with
  | nil => exact ofText_of_ne filled
  | append_singleton ps p =>
    cases p with
    | text t => exact absurd ⟨ps, [], by simp⟩ (canonical.apart t s)
    | slot v => rw [addText_concat_slot, ofText_of_ne filled, List.append_assoc, List.singleton_append]

theorem Canonical.of_append {ps qs : Pieces} (canonical : Canonical (ps ++ qs)) : ps.Canonical :=
  ⟨fun s member => canonical.filled s (List.mem_append_left _ member),
    fun s t inside => canonical.apart s t (inside.trans (List.prefix_append ps qs).isInfix)⟩

end Pieces

/-! ## The pieces of a fragment -/

open Pieces (ofText)

/-- The pieces of a fragment: its slots, each after the text before it, and the text after them. -/
def pieces (f : Fragment) : Pieces := f.slots.flatMap (fun slot => ofText slot.1 ++ [.slot slot.2]) ++ ofText f.tail

theorem pieces_cons (s : String) (v : Value) (slots : List (String × Value)) (tail : String) :
    pieces ⟨(s, v) :: slots, tail⟩ = ofText s ++ .slot v :: pieces ⟨slots, tail⟩ := by
  simp [pieces]

theorem cons_eq_append (s : String) (v : Value) (slots : List (String × Value)) (tail : String) :
    (⟨(s, v) :: slots, tail⟩ : Fragment) = text s ++ slot v ++ ⟨slots, tail⟩ := by
  cases slots <;> simp [append_eq, append, text, slot]

/-! ## Building by pieces -/

theorem pieces_empty : (∅ : Fragment).pieces = [] := rfl

theorem pieces_text (s : String) : (text s).pieces = ofText s := rfl

theorem pieces_append_text (f : Fragment) (s : String) : (f ++ text s).pieces = f.pieces.addText s := by
  obtain ⟨slots, tail⟩ := f
  have longer : (⟨slots, tail⟩ : Fragment) ++ text s = ⟨slots, tail ++ s⟩ := rfl
  rw [longer]
  induction slots with
  | nil => exact (Pieces.addText_ofText tail s).symm
  | cons slot slots ih => rw [pieces_cons, pieces_cons, Pieces.addText_after_slot, ih rfl]

theorem pieces_append_slot (f : Fragment) (v : Value) : (f ++ slot v).pieces = f.pieces.addSlot v := by
  have longer : f ++ slot v = ⟨f.slots ++ [(f.tail, v)], ""⟩ := by simp [append_eq, append, slot]
  simp [longer, pieces, Pieces.addSlot, Pieces.ofText, Pieces.addText_empty]

theorem pieces_append (f g : Fragment) : (f ++ g).pieces = f.pieces.append g.pieces := by
  obtain ⟨slots, tail⟩ := g
  induction slots generalizing f with
  | nil =>
    have rest : pieces ⟨[], tail⟩ = ofText tail := rfl
    rw [rest, Pieces.append_ofText]
    exact pieces_append_text f tail
  | cons first slots ih =>
    obtain ⟨s, v⟩ := first
    calc (f ++ ⟨(s, v) :: slots, tail⟩).pieces
      _ = (f ++ text s ++ slot v ++ ⟨slots, tail⟩).pieces := by rw [cons_eq_append]; simp only [append_assoc]
      _ = ((f.pieces.addText s).addSlot v).append (pieces ⟨slots, tail⟩) := by
        rw [ih, pieces_append_slot, pieces_append_text]
      _ = f.pieces.append (pieces ⟨(s, v) :: slots, tail⟩) := by
        rw [pieces_cons, ← Pieces.append_ofText]
        simp [Pieces.append, Pieces.add]

theorem isEmpty_pieces (f : Fragment) : f.pieces.isEmpty = f.isEmpty := by
  obtain ⟨slots, tail⟩ := f
  cases slots with
  | nil => exact Pieces.isEmpty_ofText tail
  | cons first slots => simp [pieces, isEmpty]

theorem pieces_wrap (before after : String) (f : Fragment) :
    (f.wrap before after).pieces = f.pieces.wrap before after := by
  unfold wrap Pieces.wrap
  rw [isEmpty_pieces]
  split
  · rfl
  · rw [pieces_append_text, pieces_append, pieces_text]

theorem separated_append_cons (sep : String) (f g : Fragment) (fs : List Fragment) :
    separated sep ((f ++ g) :: fs) = f ++ separated sep (g :: fs) := by
  cases fs with
  | nil => rfl
  | cons h fs => simp only [separated, append_assoc]

/-- Joining by pieces goes on as separating does once a member has come before. -/
theorem foldl_addMember (sep : String) (f : Fragment) (fs : List Fragment) :
    (fs.map pieces).foldl (Pieces.addMember sep) (f.pieces, false) = ((separated sep (f :: fs)).pieces, false) := by
  induction fs generalizing f with
  | nil => rfl
  | cons g fs ih =>
    have step : Pieces.addMember sep (f.pieces, false) g.pieces = ((f ++ text sep ++ g).pieces, false) := by
      rw [pieces_append, pieces_append_text]
      rfl
    rw [List.map_cons, List.foldl_cons, step, ih, separated_append_cons, separated]

theorem pieces_join (sep : String) (fs : List Fragment) :
    (join sep fs).pieces = Pieces.join sep (fs.map pieces) := by
  have kept : (fs.map pieces).filter (!·.isEmpty) = (fs.filter (!·.isEmpty)).map pieces := by
    rw [List.filter_map]
    simp [Function.comp_def, isEmpty_pieces]
  unfold join Pieces.join
  rw [kept]
  cases fs.filter (!·.isEmpty) with
  | nil => rfl
  | cons f rest =>
    have first : Pieces.addMember sep ([], true) f.pieces = (f.pieces, false) := by
      rw [← pieces_empty]
      simp only [Pieces.addMember, ↓reduceIte, ← pieces_append, empty_append]
    rw [List.map_cons, List.foldl_cons, first, foldl_addMember]

/-! ## Reading by pieces -/

theorem args_pieces (f : Fragment) : f.pieces.args = f.args := by
  obtain ⟨slots, tail⟩ := f
  induction slots with
  | nil => exact Pieces.args_ofText tail
  | cons first slots ih =>
    rw [pieces_cons, Pieces.args, List.filterMap_append, ← Pieces.args, Pieces.args_ofText]
    exact congrArg (first.2 :: ·) ih

theorem argCount_pieces (f : Fragment) : f.pieces.argCount = f.argCount := by
  rw [Pieces.argCount_eq_length_args, args_pieces, ← argCount_eq_length_args]

theorem renderFrom_pieces (write : Nat → Value → String) (start : Nat) (f : Fragment) :
    f.pieces.renderFrom write start = renderSlots write start f.slots ++ f.tail := by
  obtain ⟨slots, tail⟩ := f
  induction slots generalizing start with
  | nil => simpa [pieces, renderSlots, Pieces.renderFrom] using Pieces.renderFrom_ofText_append write start tail []
  | cons first slots ih =>
    rw [pieces_cons, Pieces.renderFrom_ofText_append, Pieces.renderFrom, ih, renderSlots]
    simp only [String.append_assoc]

theorem render_pieces (write : Nat → Value → String) (f : Fragment) : f.pieces.render write = f.render write :=
  renderFrom_pieces write 0 f

/-! ## The normal form -/

theorem canonical_pieces (f : Fragment) : f.pieces.Canonical := by
  obtain ⟨slots, tail⟩ := f
  induction slots with
  | nil => exact Pieces.canonical_ofText tail
  | cons first slots ih =>
    rw [pieces_cons]
    exact ih.after_slot first.1 first.2

end GraphQuery.Fragment
