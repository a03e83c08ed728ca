import GraphQuery.Proofs.Compiled
import GraphQuery.Request

/-!
# The blocks of a request

Which builders are written when a list of builders is compiled into one request. Main
statement: what holds of the given builders, passes on to attached builders and outlasts
a new name holds of every block of the request.
-/

namespace GraphQuery

namespace Request

variable {P : Builder → Prop} (down : ∀ q, P q → ∀ a ∈ q.attached, P a)

theorem forall_keep {found : List Builder} (known : ∀ q ∈ found, P q) {q : Builder} (hq : P q) :
    ∀ p ∈ keep found q, P p := by
  intro p member
  unfold keep at member
  split at member
  · exact known p member
  · rcases List.mem_append.1 member with inside | last
    · exact known p inside
    · rw [List.mem_singleton.1 last]
      exact hq

mutual

theorem forall_collect (down : ∀ q, P q → ∀ a ∈ q.attached, P a) {found : List Builder}
    (known : ∀ q ∈ found, P q) {q : Builder} (hq : P q) : ∀ p ∈ collect found q, P p := by
  obtain ⟨root, children, attached⟩ := q
  rw [collect]
  exact forall_collectAll down known (down _ hq)

theorem forall_collectAll (down : ∀ q, P q → ∀ a ∈ q.attached, P a) {found : List Builder}
    (known : ∀ q ∈ found, P q) {qs : List Builder} (hqs : ∀ q ∈ qs, P q) : ∀ p ∈ collectAll found qs, P p := by
  cases qs with
  | nil =>
    rw [collectAll]
    exact known
  | cons q qs =>
    rw [collectAll]
    have first : P q := hqs q (by simp)
    exact forall_collectAll down (forall_keep (forall_collect down known first) first)
      fun p member => hqs p (List.mem_cons_of_mem _ member)

end

include down

theorem forall_leading {builders : List Builder} (given : ∀ q ∈ builders, P q) :
    ∀ p ∈ leading builders, P p := by
  unfold leading
  -- The invariant of the walk: all blocks found so far have the property.
  suffices walk : ∀ (rest found : List Builder), (∀ q ∈ rest, P q) → (∀ q ∈ found, P q) →
      ∀ p ∈ rest.foldl (fun found q =>
        let found := collect found q
        if q.isVariable then keep found q else found) found, P p by
    exact walk builders [] given (by simp)
  intro rest
  induction rest with
  | nil => exact fun found _ known => known
  | cons q qs ih =>
    intro found hqs known
    have first : P q := hqs q (by simp)
    have collected := forall_collect down known first
    refine ih _ (fun p member => hqs p (List.mem_cons_of_mem _ member)) ?_
    dsimp only
    split
    · exact forall_keep collected first
    · exact collected

omit down in
theorem forall_operationsFrom (renamed : ∀ q n, P q → P (q.name n)) {first : List Builder} {index : Nat}
    {used : List String} {qs : List Builder} (hqs : ∀ q ∈ qs, P q) :
    ∀ p ∈ operationsFrom first index used qs, P p := by
  induction qs generalizing index used with
  | nil => simp [operationsFrom]
  | cons q qs ih =>
    have rest : ∀ p ∈ qs, P p := fun p member => hqs p (List.mem_cons_of_mem _ member)
    have own : P q := hqs q (by simp)
    unfold operationsFrom
    dsimp only
    split
    · exact ih rest
    · split
      · intro p member
        rcases List.mem_cons.1 member with rfl | member
        · exact renamed q _ own
        · exact ih rest p member
      · intro p member
        rcases List.mem_cons.1 member with rfl | member
        · exact own
        · exact ih rest p member

/-- What passes on to attached builders and outlasts a new name holds of every block of a request. -/
theorem forall_blocks (renamed : ∀ q n, P q → P (q.name n)) {builders : List Builder}
    (given : ∀ q ∈ builders, P q) : ∀ p ∈ blocks builders, P p := by
  intro p member
  rcases List.mem_append.1 member with inside | inside
  · exact forall_leading down given p inside
  · exact forall_operationsFrom renamed given p inside

omit down in
theorem body_eq_ok {builders : List Builder} {body : Fragment} :
    Request.body builders = .ok body ↔
      ∃ fs, (blocks builders).mapM Builder.compile = .ok fs ∧ body = .join " " fs :=
  Compiled.map_eq_ok

omit down in
theorem compile_eq_ok {builders : List Builder} {query : CompiledQuery} :
    Request.compile builders = .ok query ↔
      ∃ body, Request.body builders = .ok body ∧ query = envelope (operationName (operations builders)) body :=
  Compiled.map_eq_ok

end Request

end GraphQuery
