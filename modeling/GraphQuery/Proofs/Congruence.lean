import GraphQuery.Proofs.Scalars

/-!
# Builders that compare equal

To compare equal is not to be the same: one instant may be shown at two distances from UTC, and
there are two zeros. Main statement: builders that compare equal compile alike. Both fail, or
both give one text with values that compare equal slot by slot, so either can be written
where the other is asked for.
-/

namespace GraphQuery

open List (Forall₂)

open Compiled (Both)

/-! ## Lists and maps that compare equal -/

/-- Things that compare equal. -/
def Equal {α : Type} [BEq α] (a b : α) : Prop := (a == b) = true

section Collections

variable {α : Type} [BEq α] {R : α → α → Prop}

theorem Equal.eq [LawfulBEq α] {a b : α} (equal : Equal a b) : a = b := eq_of_beq equal

theorem Equal.pair {β : Type} [BEq β] {p q : α × β} (equal : Equal p q) : Equal p.1 q.1 ∧ Equal p.2 q.2 := by
  have both : (p.1 == q.1 && p.2 == q.2) = true := equal
  exact (Bool.and_eq_true _ _).mp both

theorem forall₂_of_equal (each : ∀ {a b}, Equal a b → R a b) {as bs : List α} (equal : Equal as bs) :
    Forall₂ R as bs := by
  induction as generalizing bs with
  | nil =>
    cases bs with
    | nil => exact .nil
    | cons => cases equal
  | cons a as ih =>
    cases bs with
    | nil => cases equal
    | cons b bs =>
      have both : (a == b && as == bs) = true := equal
      obtain ⟨first, rest⟩ := (Bool.and_eq_true _ _).mp both
      exact .cons (each first) (ih rest)

theorem equal_of_forall₂ {as bs : List α} (pairs : Forall₂ Equal as bs) : Equal as bs := by
  induction pairs with
  | nil => rfl
  | cons first _ ih => exact (Bool.and_eq_true _ _).mpr ⟨first, ih⟩

theorem rel_of_equal (each : ∀ {a b}, Equal a b → R a b) {a b : Option α} (equal : Equal a b) : Option.Rel R a b := by
  cases a with
  | none =>
    cases b with
    | none => exact .none
    | some => cases equal
  | some a =>
    cases b with
    | none => cases equal
    | some b => exact .some (each equal)

/-- Maps that compare equal have the same keys with values that compare equal. -/
theorem KeyMap.like_of_equal (each : ∀ {a b}, Equal a b → R a b) {m n : KeyMap α} (equal : Equal m n) : m.Like R n := by
  refine forall₂_of_equal (fun {e d} same => ?_) (show Equal m.entries n.entries from equal)
  exact ⟨same.pair.1.eq, each same.pair.2⟩

end Collections

/-- Fragments compare equal when they have one text and values that compare equal slot by slot. -/
theorem Fragment.equal_of_alike {f g : Fragment} (alike : Fragment.Alike Equal f g) : Equal f g := by
  obtain ⟨slots, tail⟩ := alike
  have paired : Equal f.slots g.slots := equal_of_forall₂ <| slots.imp fun s t same =>
    (Bool.and_eq_true _ _).mpr ⟨beq_iff_eq.2 same.1, same.2⟩
  exact (Bool.and_eq_true _ _).mpr ⟨paired, beq_iff_eq.2 tail⟩

/-! ## Values that compare equal -/

namespace Value

theorem isBound_eq_of_equal {v w : Value} (equal : Equal v w) : v.isBound = w.isBound := by
  cases v with
  | float x =>
    cases w with
    | float y => exact Binary64.isFinite_eq_of_same equal
    | _ => cases equal
  | _ => cases w <;> first | rfl | cases equal

theorem isList_eq_of_equal {v w : Value} (equal : Equal v w) : v.isList = w.isList := by
  cases v <;> cases w <;> first | rfl | cases equal

theorem forall₂_of_sameAll {vs ws : List Value} (same : sameAll vs ws = true) : Forall₂ Equal vs ws := by
  induction vs generalizing ws with
  | nil =>
    cases ws with
    | nil => exact .nil
    | cons => cases same
  | cons v vs ih =>
    cases ws with
    | nil => cases same
    | cons w ws =>
      obtain ⟨first, rest⟩ := (Bool.and_eq_true _ _).mp same
      exact .cons first (ih rest)

theorem both_compileItem_of_equal {v w : Value} (equal : Equal v w) :
    Both (Fragment.Alike Equal) v.compileItem w.compileItem := by
  have bounds := isBound_eq_of_equal equal
  cases bound : v.isBound with
  | true =>
    rw [(compile_of_isBound bound).2, (compile_of_isBound (bounds ▸ bound)).2]
    exact .ok (.slot equal)
  | false =>
    rw [bound] at bounds
    cases v with
    | raw s =>
      cases w with
      | raw t =>
        obtain rfl : s = t := eq_of_beq equal
        exact .ok (.text s)
      | _ => cases equal
    | float x =>
      cases w with
      | float y =>
        have first : x.isFinite = false := bound
        have second : y.isFinite = false := bounds.symm
        simp only [compileItem, bindable, first, second, Bool.false_eq_true, ↓reduceIte]
        exact .error _ _
      | _ => cases equal
    | nilList | list =>
      cases w with
      | nilList | list => exact .error _ _
      | _ => cases equal
    | _ => cases bound

theorem both_compile_of_equal {v w : Value} (equal : Equal v w) :
    Both (Fragment.Alike Equal) v.compile w.compile := by
  by_cases single : v.isList = false
  · have lists := isList_eq_of_equal equal
    rw [compile_eq_compileItem single, compile_eq_compileItem (lists ▸ single)]
    exact both_compileItem_of_equal equal
  · cases v with
    | nilList =>
      cases w with
      | nilList => exact .ok (.text _)
      | _ => cases equal
    | list vs =>
      cases w with
      | list ws =>
        have items : Forall₂ Equal vs ws := forall₂_of_sameAll equal
        exact (Both.mapM items fun _ _ => both_compileItem_of_equal).map fun _ _ alike =>
          ((Fragment.Alike.text "[").append (.separated alike ",")).append (.text "]")
      | _ => cases equal
    | _ => exact absurd rfl single

/-- Values that compare equal are compiled alike, and the numbers and the text of a cursor equal themselves. -/
theorem alike_equal : Value.Alike Equal Equal where
  compile := both_compile_of_equal
  cursor c := by
    have clause (wanted : Bool) (keyword : String) {v : Value} (self : Equal v v) :
        Forall₂ (Fragment.Alike Equal) (Cursor.clause wanted keyword v) (Cursor.clause wanted keyword v) := by
      cases wanted with
      | false => exact .nil
      | true => exact .cons ((Fragment.Alike.text _).append (.slot self)) .nil
    have first : Equal (Value.int c.first) (.int c.first) := beq_self_eq_true c.first
    have offset : Equal (Value.uint c.offset) (.uint c.offset) := beq_self_eq_true c.offset
    have after : Equal (Value.string c.after) (.string c.after) := beq_self_eq_true c.after
    exact .join (List.rel_append (List.rel_append (clause _ _ first) (clause _ _ offset)) (clause _ _ after)) _

end Value

/-! ## Blocks that compare equal -/

namespace Expr

mutual

/-- Expressions that compare equal are the same but for values that compare equal. -/
theorem like_of_same {e f : Expr} (equal : e.same f = true) : e.Like Equal f := by
  cases e with
  | compare op fs =>
    cases f with
    | compare op' gs =>
      obtain ⟨ops, fields⟩ := (Bool.and_eq_true _ _).mp equal
      cases eq_of_beq ops
      exact .compare op (KeyMap.like_of_equal id fields)
    | _ => cases equal
  | fuzzy fs m =>
    cases f with
    | fuzzy gs n =>
      obtain ⟨fields, distances⟩ := (Bool.and_eq_true _ _).mp equal
      cases eq_of_beq distances
      exact .fuzzy m (KeyMap.like_of_equal id fields)
    | _ => cases equal
  | has ps =>
    cases f with
    | has qs =>
      have entries : ps.entries = qs.entries := eq_of_beq equal
      cases KeyMap.ext entries
      exact .has ps
    | _ => cases equal
  | between p v w =>
    cases f with
    | between p' v' w' =>
      obtain ⟨rest, high⟩ := (Bool.and_eq_true _ _).mp equal
      obtain ⟨predicates, low⟩ := (Bool.and_eq_true _ _).mp rest
      cases eq_of_beq predicates
      exact .between p low high
    | _ => cases equal
  | apply g o =>
    cases f with
    | apply h o' =>
      obtain ⟨functions, operands⟩ := (Bool.and_eq_true _ _).mp equal
      cases eq_of_beq functions
      exact .apply g (like_of_sameOperand operands)
    | _ => cases equal
  | ofType s =>
    cases f with
    | ofType t =>
      cases eq_of_beq equal
      exact .ofType s
    | _ => cases equal
  | expand s =>
    cases f with
    | expand t =>
      cases eq_of_beq equal
      exact .expand s
    | _ => cases equal
  | raw s =>
    cases f with
    | raw t =>
      cases eq_of_beq equal
      exact .raw s
    | _ => cases equal
  | all es =>
    cases f with
    | all fs => exact .all (like_of_sameAll equal)
    | _ => cases equal
  | any es =>
    cases f with
    | any fs => exact .any (like_of_sameAll equal)
    | _ => cases equal
  | not e =>
    cases f with
    | not f => exact .not (like_of_same equal)
    | _ => cases equal

theorem like_of_sameOperand {o p : Operand} (equal : sameOperand o p = true) : o.Like Equal p := by
  cases o with
  | predicate s =>
    cases p with
    | predicate t =>
      cases eq_of_beq equal
      exact .predicate s
    | _ => cases equal
  | value v =>
    cases p with
    | value w => exact .value equal
    | _ => cases equal
  | nested e =>
    cases p with
    | nested f => exact .nested (like_of_same equal)
    | _ => cases equal

theorem like_of_sameAll {es fs : List Expr} (equal : sameAll es fs = true) : LikeAll Equal es fs := by
  cases es with
  | nil =>
    cases fs with
    | nil => exact .nil
    | cons => cases equal
  | cons e es =>
    cases fs with
    | nil => cases equal
    | cons f fs =>
      obtain ⟨first, rest⟩ := (Bool.and_eq_true _ _).mp equal
      exact .cons (like_of_same first) (like_of_sameAll rest)

end

theorem like_of_equal {e f : Expr} (equal : Equal e f) : e.Like Equal f := like_of_same equal

end Expr

theorem OrderBy.like_of_equal {o p : OrderBy} (equal : Equal o p) : o.Like Equal p := by
  obtain ⟨directions, keys⟩ := (Bool.and_eq_true _ _).mp equal
  refine ⟨eq_of_beq directions, ?_⟩
  generalize o.key = k at keys
  generalize p.key = l at keys
  cases k with
  | predicate s =>
    cases l with
    | predicate t =>
      obtain rfl : s = t := eq_of_beq (show (s == t) = true from keys)
      exact .predicate s
    | _ => cases keys
  | expr e =>
    cases l with
    | expr f => exact .expr (Expr.like_of_equal keys)
    | _ => cases keys

theorem Facet.like_of_equal {f g : Facet} (equal : Equal f g) : f.Like Equal g := by
  cases f with
  | all =>
    cases g with
    | all => exact .all
    | _ => cases equal
  | key s =>
    cases g with
    | key t =>
      obtain rfl : s = t := eq_of_beq (show (s == t) = true from equal)
      exact .key s
    | _ => cases equal
  | filter e =>
    cases g with
    | filter d => exact .filter (Expr.like_of_equal equal)
    | _ => cases equal

theorem SelectionItem.like_of_equal {i j : SelectionItem} (equal : Equal i j) : i.Like Equal j := by
  cases i with
  | predicate s =>
    cases j with
    | predicate t =>
      obtain rfl : s = t := eq_of_beq (show (s == t) = true from equal)
      exact .predicate s
    | _ => cases equal
  | computed e =>
    cases j with
    | computed f => exact .computed (Expr.like_of_equal equal)
    | _ => cases equal
  | aliased s e =>
    cases j with
    | aliased t f =>
      obtain ⟨names, values⟩ := (Bool.and_eq_true _ _).mp equal
      cases eq_of_beq names
      exact .aliased s (Expr.like_of_equal values)
    | _ => cases equal
  | bound s e =>
    cases j with
    | bound t f =>
      obtain ⟨names, values⟩ := (Bool.and_eq_true _ _).mp equal
      cases eq_of_beq names
      exact .bound s (Expr.like_of_equal values)
    | _ => cases equal

theorem Block.like_of_equal {a b : Block} (equal : Equal a b) : a.Like Equal b := by
  have parts : a.same b = true := equal
  simp only [Block.same, Bool.and_eq_true] at parts
  obtain ⟨⟨⟨⟨⟨⟨⟨⟨⟨⟨⟨path, «alias»⟩, rootFilter⟩, filters⟩, cursor⟩, orders⟩, groups⟩, facets⟩, cascade⟩, isRoot⟩,
    isVariable⟩, body⟩ := parts
  obtain ⟨selection, key⟩ := (Bool.and_eq_true _ _).mp body
  exact {
    path := eq_of_beq path
    «alias» := eq_of_beq «alias»
    rootFilter := rel_of_equal Expr.like_of_equal rootFilter
    filters := forall₂_of_equal Expr.like_of_equal filters
    cursor := eq_of_beq cursor
    orders := forall₂_of_equal OrderBy.like_of_equal orders
    groups := eq_of_beq groups
    facets := forall₂_of_equal Facet.like_of_equal facets
    cascade := eq_of_beq cascade
    isRoot := eq_of_beq isRoot
    isVariable := eq_of_beq isVariable
    selection := forall₂_of_equal SelectionItem.like_of_equal selection
    key := eq_of_beq key }

/-! ## Builders that compare equal -/

namespace Builder

theorem both_compile_of_equal {p q : Builder} (equal : Equal p q) :
    Both (Fragment.Alike Equal) p.compile q.compile := by
  obtain ⟨a, r, attached⟩ := p
  obtain ⟨b, s, attached'⟩ := q
  have parts : (a == b && r == s && sameAll attached attached') = true := equal
  obtain ⟨own, _⟩ := (Bool.and_eq_true _ _).mp parts
  obtain ⟨root, children⟩ := (Bool.and_eq_true _ _).mp own
  exact both_compile Value.alike_equal (Block.like_of_equal root)
    (KeyMap.like_of_equal (forall₂_of_equal Block.like_of_equal) children)

/-- Builders that compare equal both fail, or they are compiled to fragments that compare equal, of one text and
    with values that compare equal slot by slot. -/
theorem compile_of_beq {p q : Builder} (equal : (p == q) = true) :
    (∃ c d, p.compile = .error c ∧ q.compile = .error d) ∨
      ∃ f g, p.compile = .ok f ∧ q.compile = .ok g ∧ (f == g) = true ∧ f.display = g.display ∧
        Forall₂ (fun v w => (v == w) = true) f.args g.args := by
  have both := both_compile_of_equal equal
  generalize p.compile = x at both
  generalize q.compile = y at both
  cases both with
  | error c d => exact .inl ⟨c, d, rfl, rfl⟩
  | @ok f g alike =>
    exact .inr ⟨f, g, rfl, rfl, Fragment.equal_of_alike alike, alike.render fun _ => Fragment.slotMark, alike.args⟩

/-- People seen since a moment, their friends of a height from some number to two, and the badges of the moment. -/
def seenSince (moment : Timestamp) (low : Binary64) : Builder :=
  let people := (queryType "Person").filter (.compare .gt (.ofList [("seen", .datetime moment)]))
  let withFriends := people.edgeOf "friend" fun b => b.filter (.between "height" (.float low) (.int 2))
  withFriends.attach (varBlock (.compare .eq (.ofList [("given", .list [.datetime moment])])))

/-- One moment as it is shown in two places, and the two zeros. -/
theorem compile_seenSince :
    let here := seenSince ⟨1700000000, 0, 0, by decide, by decide⟩ (Binary64.zero false)
    let there := seenSince ⟨1700000000, 0, 3600, by decide, by decide⟩ (Binary64.zero true)
    (here == there) = true ∧
      ∃ f g, here.compile = .ok f ∧ there.compile = .ok g ∧ f.args.map Value.format ≠ g.args.map Value.format ∧
        (f == g) = true ∧ f.display = g.display ∧ Forall₂ (fun v w => (v == w) = true) f.args g.args := by
  intro here there
  have equal : (here == there) = true := by decide +kernel
  let formats (q : Builder) : Option (List String) := q.compile.toOption.map fun f => f.args.map Value.format
  have shown : formats here ≠ formats there := by decide +kernel
  obtain ⟨_, _, failed, failed'⟩ | ⟨f, g, first, second, same⟩ := compile_of_beq equal
  · simp only [formats, failed, failed'] at shown
    exact absurd rfl shown
  · simp only [formats, first, second] at shown
    exact ⟨equal, f, g, first, second, fun alike => shown (congrArg some alike), same⟩

end Builder

end GraphQuery
