import GraphQuery.Proofs.Congruence
import GraphQuery.Proofs.Pieces
import GraphQuery.Proofs.Regrouping

/-!
# Drafts of fragments

A draft says how a fragment is put together, from texts, slots and other drafts. It can be
carried out at once or piece by piece. Main statements: both ways come to the same fragment,
the pieces of a draft are in the normal form, and two drafts that bind the same values and
are rendered alike come to the same pieces, whatever steps they took. How drafts are grouped
when they are put one after another or joined makes no difference.
-/

namespace GraphQuery

open List (Forall₂)

namespace Fragment

/-! ## What renderings tell apart -/

theorem render_cons (write : Nat → Value → String) (s : String) (v : Value) (slots : List (String × Value))
    (tail : String) :
    render write ⟨(s, v) :: slots, tail⟩ = s ++ write 0 v ++ render (fun i => write (i + 1)) ⟨slots, tail⟩ := by
  have next : (fun i => write (0 + 1 + i)) = fun i => write (i + 1) := by
    funext i
    rw [Nat.zero_add, Nat.add_comm]
  rw [render, renderSlots, renderSlots_shift, next, String.append_assoc, render]

/-- Two different marks, each with the same text before it, show where that text ends. -/
theorem eq_of_marks {c d : Char} (differ : c ≠ d) {xs ys as bs : List Char}
    (first : xs ++ c :: as = ys ++ c :: bs) (second : xs ++ d :: as = ys ++ d :: bs) : xs = ys := by
  rcases List.append_eq_append_iff.1 first with ⟨gap, rfl, same⟩ | ⟨gap, rfl, same⟩
  · cases gap with
    | nil => exact (List.append_nil xs).symm
    | cons e gap =>
      obtain ⟨rfl, _⟩ := List.cons.inj same
      rw [List.append_assoc, List.append_right_inj] at second
      exact absurd (List.cons.inj second).1.symm differ
  · cases gap with
    | nil => exact List.append_nil ys
    | cons e gap =>
      obtain ⟨rfl, _⟩ := List.cons.inj same
      rw [List.append_assoc, List.append_right_inj] at second
      exact absurd (List.cons.inj second).1 differ

/-- Fragments of related values that are rendered alike have the same texts, even if the text of a slot
    may only depend on its number. -/
theorem alike_of_renders {S : Value → Value → Prop} {f g : Fragment} (args : Forall₂ S f.args g.args)
    (renders : ∀ write : Nat → String, f.render (fun i _ => write i) = g.render fun i _ => write i) :
    Alike S f g := by
  obtain ⟨fs, ft⟩ := f
  obtain ⟨gs, gt⟩ := g
  change Forall₂ S (fs.map (·.2)) (gs.map (·.2)) at args
  rw [List.forall₂_map_left_iff, List.forall₂_map_right_iff] at args
  induction args with
  | nil => exact ⟨.nil, by simpa [render, renderSlots] using renders fun _ => ""⟩
  | @cons x y xs ys related _ ih =>
    obtain ⟨s, v⟩ := x
    obtain ⟨t, w⟩ := y
    -- The first slot is written as a mark, the others as they come.
    have marked (mark : String) (write : Nat → String) :
        s ++ mark ++ render (fun i _ => write i) ⟨xs, ft⟩ = t ++ mark ++ render (fun i _ => write i) ⟨ys, gt⟩ := by
      have whole := renders fun i => i.casesOn mark write
      rwa [render_cons, render_cons] at whole
    have chars (c : Char) := congrArg String.toList (marked (String.singleton c) fun _ => "")
    simp only [String.toList_append, String.toList_singleton, List.append_assoc, List.singleton_append] at chars
    have before : s = t := String.toList_inj.1 (eq_of_marks (by decide) (chars 'a') (chars 'b'))
    obtain ⟨later, tails⟩ := ih fun write => by
      have whole := marked "" write
      rw [before, String.append_assoc, String.append_assoc] at whole
      simpa using (String.append_right_inj _).1 whole
    exact ⟨.cons ⟨before, related⟩ later, tails⟩

theorem alike_eq_iff {f g : Fragment} : Alike (· = ·) f g ↔ f = g := by
  constructor
  · obtain ⟨fs, ft⟩ := f
    obtain ⟨gs, gt⟩ := g
    rintro ⟨slots, rfl⟩
    have paired : Forall₂ (· = ·) fs gs := slots.imp fun x y same => Prod.ext same.1 same.2
    rw [List.forall₂_eq_eq_eq] at paired
    rw [paired]
  · rintro rfl
    exact .refl (fun _ => rfl) f

theorem alike_equal_iff {f g : Fragment} : Alike Equal f g ↔ (f == g) = true := by
  constructor
  · exact equal_of_alike
  · intro same
    have both : (f.slots == g.slots && f.tail == g.tail) = true := same
    obtain ⟨slots, tails⟩ := (Bool.and_eq_true _ _).mp both
    exact ⟨forall₂_of_equal (fun equal => ⟨equal.pair.1.eq, equal.pair.2⟩) slots, eq_of_beq tails⟩

/-- A fragment is determined by its values and its renderings. -/
theorem eq_iff_renders {f g : Fragment} :
    f = g ↔ f.args = g.args ∧ ∀ write : Nat → Value → String, f.render write = g.render write := by
  constructor
  · rintro rfl
    exact ⟨rfl, fun _ => rfl⟩
  · rintro ⟨args, renders⟩
    refine alike_eq_iff.1 (alike_of_renders ?_ fun write => renders fun i _ => write i)
    rw [args]
    exact List.forall₂_same.2 fun _ _ => rfl

theorem isEmpty_iff_renders {f : Fragment} (write : Nat → Value → String) :
    f.isEmpty = true ↔ f.args = [] ∧ f.render write = "" := by
  obtain ⟨slots, tail⟩ := f
  cases slots with
  | nil => simp [isEmpty, args, render, renderSlots]
  | cons => simp [isEmpty, args]

theorem pieces_inj {f g : Fragment} : f.pieces = g.pieces ↔ f = g := by
  constructor
  · intro same
    refine eq_iff_renders.2 ⟨?_, fun write => ?_⟩
    · rw [← args_pieces, same, args_pieces]
    · rw [← render_pieces, same, render_pieces]
  · exact congrArg pieces

/-! ## Drafts -/

/-- A fragment as it is put together: from nothing or a text, with more text or a slot after it, from
    two drafts one after the other, between two texts, or joined. -/
inductive Draft where
  | empty
  | text (s : String)
  | addText (d : Draft) (s : String)
  | addSlot (d : Draft) (v : Value)
  | append (d e : Draft)
  | wrap (before after : String) (d : Draft)
  | join (sep : String) (ds : List Draft)

namespace Draft

mutual

/-- The fragment that a draft comes to. -/
def fragment : Draft → Fragment
  | .empty => ∅
  | .text s => .text s
  | .addText d s => fragment d ++ .text s
  | .addSlot d v => fragment d ++ .slot v
  | .append d e => fragment d ++ fragment e
  | .wrap before after d => (fragment d).wrap before after
  | .join sep ds => .join sep (fragments ds)

def fragments : List Draft → List Fragment
  | [] => []
  | d :: ds => fragment d :: fragments ds

end

mutual

/-- The pieces that are put down for a draft. -/
def pieces : Draft → Pieces
  | .empty => []
  | .text s => .ofText s
  | .addText d s => (pieces d).addText s
  | .addSlot d v => (pieces d).addSlot v
  | .append d e => (pieces d).append (pieces e)
  | .wrap before after d => (pieces d).wrap before after
  | .join sep ds => .join sep (piecesAll ds)

def piecesAll : List Draft → List Pieces
  | [] => []
  | d :: ds => pieces d :: piecesAll ds

end

theorem fragments_eq_map (ds : List Draft) : fragments ds = ds.map fragment := by
  induction ds with
  | nil => rfl
  | cons d ds ih => rw [fragments, ih, List.map_cons]

mutual

/-- Each step of a draft does to the pieces what it does to the fragment. -/
theorem pieces_fragment (d : Draft) : d.fragment.pieces = d.pieces := by
  cases d with
  | empty => rfl
  | text s => rfl
  | addText d s => rw [fragment, pieces, pieces_append_text, pieces_fragment d]
  | addSlot d v => rw [fragment, pieces, pieces_append_slot, pieces_fragment d]
  | append d e => rw [fragment, pieces, pieces_append, pieces_fragment d, pieces_fragment e]
  | wrap before after d => rw [fragment, pieces, pieces_wrap, pieces_fragment d]
  | join sep ds => rw [fragment, pieces, pieces_join, pieces_fragments ds]

theorem pieces_fragments (ds : List Draft) : (fragments ds).map Fragment.pieces = piecesAll ds := by
  cases ds with
  | nil => rfl
  | cons d ds => rw [fragments, piecesAll, List.map_cons, pieces_fragment d, pieces_fragments ds]

end

/-- What drafts put down is exactly what is in the normal form. -/
theorem canonical_iff {ps : Pieces} : ps.Canonical ↔ ∃ d : Draft, d.pieces = ps := by
  constructor
  · intro canonical
    induction ps using List.reverseRecOn with
    | nil => exact ⟨empty, rfl⟩
    | append_singleton ps p ih =>
      obtain ⟨d, rfl⟩ := ih canonical.of_append
      cases p with
      | text s => exact ⟨d.addText s, Pieces.addText_of_canonical canonical⟩
      | slot v => exact ⟨d.addSlot v, rfl⟩
  · rintro ⟨d, rfl⟩
    exact d.pieces_fragment ▸ d.fragment.canonical_pieces

end Draft

/-! ## The normal form of drafts -/

/-- The pieces are those of the fragment, and are read as the fragment is. -/
structure ReadsAs (f : Fragment) (ps : Pieces) : Prop where
  pieces : f.pieces = ps
  isEmpty : f.isEmpty = ps.isEmpty
  args : f.args = ps.args
  argCount : f.argCount = ps.argCount
  render : ∀ write, f.render write = ps.render write

theorem readsAs_pieces (f : Fragment) : f.ReadsAs f.pieces where
  pieces := rfl
  isEmpty := (isEmpty_pieces f).symm
  args := (args_pieces f).symm
  argCount := (argCount_pieces f).symm
  render write := (render_pieces write f).symm

/-- The pieces of a draft are in the normal form and read as its fragment is; there are none exactly if no
    value is bound and the text is empty. Drafts that bind the same values and are rendered alike have the
    same pieces and the same fragment. Where values only compare equal, so do the fragments. -/
theorem Draft.canonical_and_determined (d e : Draft) :
    d.pieces.Canonical ∧ d.fragment.ReadsAs d.pieces ∧
      (∀ write, d.pieces.isEmpty = true ↔ d.pieces.args = [] ∧ d.pieces.render write = "") ∧
      (d.pieces = e.pieces ↔
        d.pieces.args = e.pieces.args ∧ ∀ write, d.pieces.render write = e.pieces.render write) ∧
      (d.pieces = e.pieces ↔ d.fragment = e.fragment) ∧
      ((d.fragment == e.fragment) = true ↔
        Forall₂ (fun v w => (v == w) = true) d.fragment.args e.fragment.args ∧
          ∀ write : Nat → String, d.fragment.render (fun i _ => write i) = e.fragment.render fun i _ => write i) := by
  refine ⟨canonical_iff.2 ⟨d, rfl⟩, d.pieces_fragment ▸ readsAs_pieces d.fragment, fun write => ?_, ?_, ?_, ?_⟩
  · rw [← pieces_fragment, isEmpty_pieces, args_pieces, render_pieces]
    exact isEmpty_iff_renders write
  · simp only [← pieces_fragment, args_pieces, render_pieces]
    rw [pieces_inj, eq_iff_renders]
  · rw [← pieces_fragment, ← pieces_fragment, pieces_inj]
  · rw [← alike_equal_iff]
    exact ⟨fun alike => ⟨alike.args, alike.render⟩, fun ⟨args, renders⟩ => alike_of_renders args renders⟩

/-! ## Laws of drafts -/

namespace Draft

/-- Two drafts come to the same fragment and put down the same pieces. -/
def Same (d e : Draft) : Prop := d.fragment = e.fragment ∧ d.pieces = e.pieces

theorem Same.of_fragment {d e : Draft} (same : d.fragment = e.fragment) : d.Same e :=
  ⟨same, by rw [← pieces_fragment, same, pieces_fragment]⟩

/-- Drafts put one after another, or joined, come to the same however they are grouped; the slots of a draft
    after another are numbered after those of the other. The body of a block is joined from its selection and
    the blocks nested in it in one go. -/
theorem composition_laws (a b c : Draft) (sep : String) (ds es : List Draft) :
    ((a.append b).append c).Same (a.append (b.append c)) ∧
      (a.append .empty).Same a ∧ (Draft.empty.append a).Same a ∧
      (∀ write, (a.append b).fragment.render write =
        a.fragment.render write ++ b.fragment.render fun i => write (a.fragment.argCount + i)) ∧
      (∀ write, (a.append b).pieces.render write =
        a.pieces.render write ++ b.pieces.render fun i => write (a.pieces.argCount + i)) ∧
      (Draft.join sep (ds ++ es)).Same (.join sep [.join sep ds, .join sep es]) ∧
      bodyFragment a.fragment (ds.map fragment) = .join " " ((a :: ds).map fragment) := by
  refine ⟨.of_fragment ?_, .of_fragment ?_, .of_fragment ?_, fun write => ?_, fun write => ?_, .of_fragment ?_, ?_⟩
  · exact append_assoc a.fragment b.fragment c.fragment
  · exact append_empty a.fragment
  · exact empty_append a.fragment
  · exact render_append write a.fragment b.fragment
  · simp only [← pieces_fragment, render_pieces, argCount_pieces]
    exact render_append write a.fragment b.fragment
  · simp only [fragment, fragments_eq_map, List.map_append, List.map_cons, List.map_nil]
    rw [join_append, join_pair]
  · rw [bodyFragment_eq_join, List.map_cons]

/-- Groups of which nothing is written, and members that are empty, leave no separator behind. -/
example (v : Value) :
    (Draft.join "; " [.join "; " [.empty, .wrap "(" ")" .empty], .text "a", .join "; " [.addSlot .empty v]]).pieces =
      [.text "a; ", .slot v] := by
  rfl

end Draft

end Fragment

end GraphQuery
