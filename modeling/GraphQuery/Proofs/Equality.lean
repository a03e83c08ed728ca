import GraphQuery.Builder

/-!
# Equality of builders

The comparison of builders follows the data, with floats and times compared as such, so
a builder that holds a number that differs from itself differs from itself. Main
statements: the comparison is symmetric, and builders that compare equal have one name
and as many attached blocks as each other.
-/

namespace GraphQuery

/-! ## Comparisons in both directions -/

/-- A comparison whose outcome does not depend on the order of its sides. -/
class CommBEq (α : Type) [BEq α] : Prop where
  beq_comm (a b : α) : (a == b) = (b == a)

open CommBEq (beq_comm)

namespace CommBEq

instance (priority := low) {α : Type} [BEq α] [PartialEquivBEq α] : CommBEq α := ⟨fun _ _ => BEq.comm⟩

instance {α : Type} [BEq α] [CommBEq α] : CommBEq (List α) where
  beq_comm as := by
    induction as with
    | nil => intro bs; cases bs <;> rfl
    | cons a as ih =>
      intro bs
      cases bs with
      | nil => rfl
      | cons b bs => rw [List.cons_beq_cons, List.cons_beq_cons, beq_comm a b, ih bs]

instance {α : Type} [BEq α] [CommBEq α] : CommBEq (Option α) where
  beq_comm a b := by
    cases a with
    | none => cases b <;> rfl
    | some a =>
      cases b with
      | none => rfl
      | some b => exact beq_comm a b

instance {α β : Type} [BEq α] [BEq β] [CommBEq α] [CommBEq β] : CommBEq (α × β) where
  beq_comm p q := by
    show (p.1 == q.1 && p.2 == q.2) = (q.1 == p.1 && q.2 == p.2)
    rw [beq_comm p.1, beq_comm p.2]

instance {α : Type} [BEq α] [CommBEq α] : CommBEq (KeyMap α) where
  beq_comm m n := beq_comm m.entries n.entries

end CommBEq

/-! ## Values and expressions -/

instance : CommBEq Binary64 where
  beq_comm x y := by
    show x.same y = y.same x
    cases x with
    | finite s m q _ =>
      cases y with
      | finite t n r _ =>
        simp only [Binary64.same]
        rw [Bool.and_comm (m == 0), beq_comm s, beq_comm m n, beq_comm q]
      | _ => rfl
    | infinite s =>
      cases y with
      | infinite t => exact beq_comm s t
      | _ => rfl
    | _ => cases y <;> rfl

instance : CommBEq Timestamp where
  beq_comm s t := by
    show (s.seconds == t.seconds && s.nanos == t.nanos) = (t.seconds == s.seconds && t.nanos == s.nanos)
    rw [beq_comm s.seconds, beq_comm s.nanos]

mutual

theorem Value.same_comm (v w : Value) : v.same w = w.same v := by
  cases v with
  | list vs =>
    cases w with
    | list ws => exact Value.sameAll_comm vs ws
    | _ => rfl
  | _ =>
    cases w <;> first | rfl | exact beq_comm _ _

theorem Value.sameAll_comm (vs ws : List Value) : Value.sameAll vs ws = Value.sameAll ws vs := by
  cases vs with
  | nil => cases ws <;> rfl
  | cons v vs =>
    cases ws with
    | nil => rfl
    | cons w ws => rw [Value.sameAll, Value.sameAll, Value.same_comm v w, Value.sameAll_comm vs ws]

end

instance : CommBEq Value := ⟨Value.same_comm⟩

namespace Expr

mutual

theorem same_comm (e f : Expr) : e.same f = f.same e := by
  cases e with
  | compare op fs =>
    cases f with
    | compare op' gs => rw [same, same, beq_comm op, beq_comm fs]
    | _ => rfl
  | fuzzy fs m =>
    cases f with
    | fuzzy gs n => rw [same, same, beq_comm fs, beq_comm m]
    | _ => rfl
  | between p v w =>
    cases f with
    | between p' v' w' => rw [same, same, beq_comm p, beq_comm v, beq_comm w]
    | _ => rfl
  | apply g o =>
    cases f with
    | apply h p => rw [same, same, beq_comm g, sameOperand_comm o p]
    | _ => rfl
  | all es =>
    cases f with
    | all fs => exact sameAll_comm es fs
    | _ => rfl
  | any es =>
    cases f with
    | any fs => exact sameAll_comm es fs
    | _ => rfl
  | not e =>
    cases f with
    | not f => exact same_comm e f
    | _ => rfl
  | _ =>
    cases f <;> first | rfl | exact beq_comm _ _

theorem sameOperand_comm (o p : Operand) : sameOperand o p = sameOperand p o := by
  cases o with
  | nested e =>
    cases p with
    | nested f => exact same_comm e f
    | _ => rfl
  | _ =>
    cases p <;> first | rfl | exact beq_comm _ _

theorem sameAll_comm (es fs : List Expr) : sameAll es fs = sameAll fs es := by
  cases es with
  | nil => cases fs <;> rfl
  | cons e es =>
    cases fs with
    | nil => rfl
    | cons f fs => rw [sameAll, sameAll, same_comm e f, sameAll_comm es fs]

end

end Expr

instance : CommBEq Expr := ⟨Expr.same_comm⟩

/-! ## Blocks -/

instance : CommBEq OrderKey where
  beq_comm a b := by
    show a.same b = b.same a
    cases a <;> cases b <;> first | rfl | exact beq_comm _ _

instance : CommBEq OrderBy where
  beq_comm a b := by
    show (a.direction == b.direction && a.key == b.key) = (b.direction == a.direction && b.key == a.key)
    rw [beq_comm a.direction, beq_comm a.key]

instance : CommBEq Facet where
  beq_comm a b := by
    show a.same b = b.same a
    cases a <;> cases b <;> first | rfl | exact beq_comm _ _

instance : CommBEq SelectionItem where
  beq_comm a b := by
    show a.same b = b.same a
    cases a with
    | aliased s e =>
      cases b with
      | aliased t f => rw [SelectionItem.same, SelectionItem.same, beq_comm s, beq_comm e]
      | _ => rfl
    | bound s e =>
      cases b with
      | bound t f => rw [SelectionItem.same, SelectionItem.same, beq_comm s, beq_comm e]
      | _ => rfl
    | _ => cases b <;> first | rfl | exact beq_comm _ _

instance : CommBEq Selection where
  beq_comm s t := beq_comm s.items t.items

instance : CommBEq Body where
  beq_comm a b := by
    show (a.selection == b.selection && a.key == b.key) = (b.selection == a.selection && b.key == a.key)
    rw [beq_comm a.selection, beq_comm a.key]

instance : CommBEq Block where
  beq_comm a b := by
    show a.same b = b.same a
    unfold Block.same
    rw [beq_comm a.path, beq_comm a.alias, beq_comm a.rootFilter, beq_comm a.filters, beq_comm a.cursor,
      beq_comm a.orders, beq_comm a.groups, beq_comm a.facets, beq_comm a.cascade, beq_comm a.isRoot,
      beq_comm a.isVariable, beq_comm a.body]

/-! ## Builders -/

namespace Builder

mutual

theorem same_comm (p q : Builder) : p.same q = q.same p := by
  obtain ⟨a, c, vs⟩ := p
  obtain ⟨b, d, ws⟩ := q
  rw [same, same, beq_comm a, beq_comm c, sameAll_comm vs ws]

theorem sameAll_comm (vs ws : List Builder) : sameAll vs ws = sameAll ws vs := by
  cases vs with
  | nil => cases ws <;> rfl
  | cons v vs =>
    cases ws with
    | nil => rfl
    | cons w ws => rw [sameAll, sameAll, same_comm v w, sameAll_comm vs ws]

end

instance : CommBEq Builder := ⟨same_comm⟩

/-- Builders that compare equal have one name, and both or neither only set variables. -/
theorem named_of_beq {p q : Builder} (h : (p == q) = true) :
    p.blockName = q.blockName ∧ p.isVariable = q.isVariable := by
  obtain ⟨a, c, vs⟩ := p
  obtain ⟨b, d, ws⟩ := q
  change (a == b && c == d && sameAll vs ws) = true at h
  simp only [Bool.and_eq_true] at h
  have roots : a.same b = true := h.1.1
  simp only [Block.same, Bool.and_eq_true, beq_iff_eq] at roots
  obtain ⟨⟨⟨⟨⟨⟨⟨⟨⟨⟨⟨path, _⟩, _⟩, _⟩, _⟩, _⟩, _⟩, _⟩, _⟩, _⟩, isVariable⟩, _⟩ := roots
  exact ⟨congrArg Path.lastName path, isVariable⟩

/-! ## Attached blocks -/

mutual

/-- The number of blocks attached to a builder, directly or through others. -/
def attachments : Builder → Nat
  | ⟨_, _, attached⟩ => attachmentsAll attached

def attachmentsAll : List Builder → Nat
  | [] => 0
  | q :: qs => attachments q + 1 + attachmentsAll qs

end

mutual

theorem attachments_of_same {p q : Builder} (h : p.same q = true) : p.attachments = q.attachments := by
  obtain ⟨a, c, vs⟩ := p
  obtain ⟨b, d, ws⟩ := q
  rw [same, Bool.and_eq_true] at h
  exact attachmentsAll_of_sameAll h.2

theorem attachmentsAll_of_sameAll {vs ws : List Builder} (h : sameAll vs ws = true) :
    attachmentsAll vs = attachmentsAll ws := by
  cases vs with
  | nil =>
    cases ws with
    | nil => rfl
    | cons w ws => cases h
  | cons v vs =>
    cases ws with
    | nil => cases h
    | cons w ws =>
      rw [sameAll, Bool.and_eq_true] at h
      rw [attachmentsAll, attachmentsAll, attachments_of_same h.1, attachmentsAll_of_sameAll h.2]

end

theorem attachments_lt_of_mem {q : Builder} {qs : List Builder} (member : q ∈ qs) :
    q.attachments < attachmentsAll qs := by
  induction qs with
  | nil => cases member
  | cons p ps ih =>
    rw [attachmentsAll]
    rcases List.mem_cons.1 member with rfl | inside
    · omega
    · have := ih inside
      omega

end Builder

end GraphQuery
