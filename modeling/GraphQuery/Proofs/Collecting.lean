import GraphQuery.Proofs.Equality
import GraphQuery.Proofs.Numbering
import Mathlib.Data.List.Forall2
import Mathlib.Logic.Relation

/-!
# Collecting attached blocks

The blocks that come first in a request are found by walks that go from a builder to the
blocks attached to it and leave out what equals a block already found. Main statement:
they are the blocks attached to the given builders and the builders that only set
variables, none twice and each after those attached to it, and all other builders follow
in the order in which they were given.
-/

namespace GraphQuery

open Relation (TransGen)

namespace Builder

/-- The first builder is attached to the second, directly or through others. -/
def AttachedTo (a q : Builder) : Prop := TransGen (fun a q => a ∈ q.attached) a q

theorem attachedTo_iff {a q : Builder} :
    a.AttachedTo q ↔ ∃ b ∈ q.attached, a = b ∨ a.AttachedTo b := by
  unfold AttachedTo
  rw [TransGen.tail'_iff]
  constructor
  · rintro ⟨b, path, member⟩
    refine ⟨b, member, ?_⟩
    rcases path.cases_tail with rfl | ⟨c, path, last⟩
    · exact .inl rfl
    · exact .inr (.tail' path last)
  · rintro ⟨b, member, rfl | path⟩
    · exact ⟨a, .refl, member⟩
    · exact ⟨b, path.to_reflTransGen, member⟩

theorem attachments_lt_of_attachedTo {a q : Builder} (h : a.AttachedTo q) : a.attachments < q.attachments := by
  have step {b c : Builder} (member : b ∈ c.attached) : b.attachments < c.attachments := by
    obtain ⟨root, children, attached⟩ := c
    exact attachments_lt_of_mem member
  induction h with
  | single member => exact step member
  | tail _ member ih => exact Nat.lt_trans ih (step member)

/-- No builder compares equal to a block attached to it. -/
theorem beq_eq_false_of_attachedTo {a q : Builder} (h : a.AttachedTo q) : (a == q) = false := by
  rw [Bool.eq_false_iff]
  intro equal
  exact absurd (attachments_of_same equal) (Nat.ne_of_lt (attachments_lt_of_attachedTo h))

end Builder

namespace Request

open Builder (AttachedTo attachedTo_iff)

/-! ## Walks -/

/-- A list has a builder, itself or as one that compares equal to it. -/
def Holds (found : List Builder) (q : Builder) : Prop := q ∈ found ∨ ∃ p ∈ found, (p == q) = true

theorem Holds.mono {found more : List Builder} {q : Builder} (grows : found <+: more) (h : Holds found q) :
    Holds more q := by
  rcases h with member | ⟨p, member, equal⟩
  · exact .inl (grows.subset member)
  · exact .inr ⟨p, grows.subset member, equal⟩

/-- Found blocks of which no two compare equal, each after the blocks attached to it. -/
structure Ordered (found : List Builder) : Prop where
  distinct : found.Pairwise fun p q => (p == q) = false
  after : ∀ before q rest, found = before ++ q :: rest → ∀ a ∈ q.attached, Holds before a

theorem Ordered.nil : Ordered [] where
  distinct := .nil
  after before q rest split := by simp at split

theorem Ordered.concat {found : List Builder} (known : Ordered found) {q : Builder}
    (fresh : ∀ p ∈ found, (p == q) = false) (ready : ∀ a ∈ q.attached, Holds found a) :
    Ordered (found ++ [q]) where
  distinct := by
    refine List.pairwise_append.2 ⟨known.distinct, List.pairwise_singleton _ _, fun p member r last => ?_⟩
    rw [List.mem_singleton.1 last]
    exact fresh p member
  after before r rest split := by
    rcases List.eq_nil_or_concat rest with rfl | ⟨rest, last, rfl⟩
    · obtain ⟨rfl, same⟩ := List.append_inj' split rfl
      cases same
      exact ready
    · rw [List.concat_eq_append, ← List.cons_append, ← List.append_assoc] at split
      obtain ⟨rfl, _⟩ := List.append_inj' split rfl
      exact known.after before r rest rfl

/-- What a walk for certain blocks makes of those already found: it only adds to them, in order,
    until all blocks that it is for are held, and adds no others. -/
structure Walk (found : List Builder) (sought : Builder → Prop) (more : List Builder) : Prop where
  grows : found <+: more
  ordered : Ordered more
  holds : ∀ q, sought q → Holds more q
  only : ∀ q ∈ more, q ∈ found ∨ sought q

theorem Walk.stay {found : List Builder} (known : Ordered found) {sought : Builder → Prop}
    (nothing : ∀ q, ¬ sought q) : Walk found sought found where
  grows := List.prefix_rfl
  ordered := known
  holds q wanted := absurd wanted (nothing q)
  only _ member := .inl member

/-- One walk after another is a walk for the blocks of both. -/
theorem Walk.append {found more most : List Builder} {first second sought : Builder → Prop}
    (start : Walk found first more) (rest : Walk more second most)
    (both : ∀ q, sought q ↔ first q ∨ second q) : Walk found sought most where
  grows := start.grows.trans rest.grows
  ordered := rest.ordered
  holds q wanted := by
    rcases (both q).1 wanted with wanted | wanted
    · exact (start.holds q wanted).mono rest.grows
    · exact rest.holds q wanted
  only q member := by
    rcases rest.only q member with member | wanted
    · rcases start.only q member with member | wanted
      · exact .inl member
      · exact .inr ((both q).2 (.inl wanted))
    · exact .inr ((both q).2 (.inr wanted))

theorem walk_keep {found : List Builder} (known : Ordered found) {q : Builder}
    (ready : ∀ a ∈ q.attached, Holds found a) : Walk found (· = q) (keep found q) := by
  unfold keep
  split
  · next equal =>
    obtain ⟨p, member, equal⟩ := List.any_eq_true.1 equal
    refine ⟨List.prefix_rfl, known, ?_, fun _ member => .inl member⟩
    rintro _ rfl
    exact .inr ⟨p, member, equal⟩
  · next fresh =>
    have unlike : ∀ p ∈ found, (p == q) = false := by
      intro p member
      rw [Bool.eq_false_iff]
      exact fun equal => fresh (List.any_eq_true.2 ⟨p, member, equal⟩)
    refine ⟨List.prefix_append _ _, known.concat unlike ready, ?_, ?_⟩
    · rintro _ rfl
      exact .inl (by simp)
    · intro p member
      rcases List.mem_append.1 member with inside | last
      · exact .inl inside
      · exact .inr (List.mem_singleton.1 last)

mutual

theorem walk_collect {found : List Builder} (known : Ordered found) (q : Builder) :
    Walk found (·.AttachedTo q) (collect found q) := by
  obtain ⟨root, children, attached⟩ := q
  rw [collect]
  obtain ⟨grows, ordered, holds, only⟩ := walk_collectAll known attached
  refine ⟨grows, ordered, fun a path => holds a (attachedTo_iff.1 path), fun a member => ?_⟩
  exact (only a member).imp id attachedTo_iff.2

theorem walk_collectAll {found : List Builder} (known : Ordered found) (qs : List Builder) :
    Walk found (fun a => ∃ q ∈ qs, a = q ∨ a.AttachedTo q) (collectAll found qs) := by
  cases qs with
  | nil =>
    rw [collectAll]
    exact .stay known (by simp)
  | cons q qs =>
    rw [collectAll]
    have below := walk_collect known q
    -- All that is attached to the block has been found by now, so the block may follow it.
    have ready : ∀ a ∈ q.attached, Holds (collect found q) a :=
      fun a member => below.holds a (attachedTo_iff.2 ⟨a, member, .inl rfl⟩)
    have own := below.append (walk_keep below.ordered ready) fun a => Iff.rfl
    refine own.append (walk_collectAll own.ordered qs) fun a => ?_
    rw [List.exists_mem_cons_iff]
    exact or_congr_left or_comm

end

/-! ## The blocks that come first -/

/-- A block that comes first for a list of builders: one attached to a builder, or a builder that
    only sets variables. -/
def Leads (builders : List Builder) (a : Builder) : Prop :=
  ∃ q ∈ builders, a.AttachedTo q ∨ (a = q ∧ q.isVariable = true)

theorem walk_leading (builders : List Builder) : Walk [] (Leads builders) (leading builders) := by
  unfold leading
  -- The walk is carried on from whatever was found for the builders before.
  suffices from_found : ∀ found, Ordered found → Walk found (Leads builders) (builders.foldl (fun found q =>
      let found := collect found q
      if q.isVariable then keep found q else found) found) from from_found [] .nil
  induction builders with
  | nil => exact fun found known => .stay known (by simp [Leads])
  | cons q qs ih =>
    intro found known
    have below := walk_collect known q
    have ready : ∀ a ∈ q.attached, Holds (collect found q) a :=
      fun a member => below.holds a (attachedTo_iff.2 ⟨a, member, .inl rfl⟩)
    have first : Walk found (fun a => a.AttachedTo q ∨ (a = q ∧ q.isVariable = true))
        (if q.isVariable then keep (collect found q) q else collect found q) := by
      split
      · next sets => exact below.append (walk_keep below.ordered ready) fun a => by simp [sets]
      · next data =>
        have idle : Walk (collect found q) (fun _ => False) (collect found q) := .stay below.ordered (by simp)
        exact below.append idle fun a => by simp [data]
    refine first.append (ih _ first.ordered) fun a => ?_
    unfold Leads
    rw [List.exists_mem_cons_iff]

/-! ## The builders that follow -/

/-- The builders that are no leading blocks, each with its place in the list. -/
def answering (builders : List Builder) : List (Builder × Nat) :=
  builders.zipIdx.filter fun e => !(e.1.isVariable || (leading builders).any (· == e.1))

/-- A builder as it is written: with its own name, or with that name and its place in the list. -/
def WrittenAs (e : Builder × Nat) (q : Builder) : Prop := q = e.1 ∨ q = e.1.name (freshName e.1.blockName e.2)

theorem forall₂_operationsFrom (first : List Builder) (index : Nat) (used : List String) (qs : List Builder) :
    List.Forall₂ WrittenAs ((qs.zipIdx index).filter fun e => !(e.1.isVariable || first.any (· == e.1)))
      (operationsFrom first index used qs) := by
  induction qs generalizing index used with
  | nil => exact .nil
  | cons q qs ih =>
    rw [List.zipIdx_cons, operationsFrom]
    by_cases leads : (q.isVariable || first.any (· == q)) = true
    · rw [if_pos leads, List.filter_cons_of_neg (by rw [leads]; simp)]
      exact ih _ _
    · rw [if_neg leads, List.filter_cons_of_pos (by rw [Bool.eq_false_iff.2 leads]; rfl)]
      dsimp only
      split
      · exact .cons (.inr rfl) (ih _ _)
      · exact .cons (.inl rfl) (ih _ _)

/-- A request is written as the blocks that come first and then the others. Those that come first are found once
    and in the order in which they depend on each other, and the other builders follow as they were given. -/
theorem leading_collects {builders : List Builder} {query : CompiledQuery} (h : compile builders = .ok query) :
    (∃ first rest, (leading builders).mapM Builder.compile = .ok first ∧
      (operations builders).mapM Builder.compile = .ok rest ∧
      (blocks builders).mapM Builder.compile = .ok (first ++ rest) ∧
      query.text = textOf builders query.declarations (first ++ rest)) ∧
    (leading builders).Pairwise (fun p q => (p == q) = false ∧ (q == p) = false) ∧
    (∀ a, Leads builders a → Holds (leading builders) a) ∧
    (∀ a ∈ leading builders, Leads builders a) ∧
    (∀ before q rest, leading builders = before ++ q :: rest → ∀ a ∈ q.attached, Holds before a) ∧
    List.Forall₂ WrittenAs (answering builders) (operations builders) := by
  obtain ⟨_, ordered, holds, only⟩ := walk_leading builders
  refine ⟨exists_fragments h, ?_, holds, fun a member => ?_, ordered.after, forall₂_operationsFrom _ _ _ _⟩
  · exact ordered.distinct.imp fun {p q} unlike => ⟨unlike, (CommBEq.beq_comm q p).trans unlike⟩
  · rcases only a member with none | leads
    · cases none
    · exact leads

/-- A block over prizes, on which one over films depends. -/
def prizes : Builder := (Builder.varBlock (.ofType "Prize")).as "prizes"

def films : Builder := ((Builder.varBlock (.ofType "Film")).as "films").attach prizes

/-- Two builders that depend on the films, which are given on their own as well. -/
def festival : List Builder :=
  [(Builder.queryType "Film").attach films, films, ((Builder.queryType "Person").attach films).name "people"]

theorem leading_collects_festival :
    ∃ query, compile festival = .ok query ∧ leading festival = [prizes, films] ∧
      (leading festival).Pairwise (fun p q => (p == q) = false ∧ (q == p) = false) ∧ Holds [prizes] prizes ∧
      (∃ first rest, (leading festival).mapM Builder.compile = .ok first ∧
        (operations festival).mapM Builder.compile = .ok rest ∧
        query.text = textOf festival query.declarations (first ++ rest)) ∧
      query.text = "query Rootquery_People() \x7b prizes as var(func: type(Prize)) \x7b  \x7d films as var(func: type(Film)) \x7b  \x7d rootQuery(func: type(Film)) \x7b  \x7d people(func: type(Person)) \x7b  \x7d \x7d" := by
  have succeeds : (compile festival).isOk = true := by decide +kernel
  obtain ⟨query, compiled⟩ := Compiled.exists_of_isOk succeeds
  have found : leading festival = [prizes, films] := rfl
  have spelled : (compile festival).toOption.map (·.text) = some
      "query Rootquery_People() \x7b prizes as var(func: type(Prize)) \x7b  \x7d films as var(func: type(Film)) \x7b  \x7d rootQuery(func: type(Film)) \x7b  \x7d people(func: type(Person)) \x7b  \x7d \x7d" := by
    decide +kernel
  rw [compiled] at spelled
  obtain ⟨⟨first, rest, leads, answers, _, text⟩, distinct, _, _, after, _⟩ := leading_collects compiled
  exact ⟨query, compiled, found, distinct, after [prizes] films [] found prizes (by simp [films, Builder.attach]),
    ⟨first, rest, leads, answers, text⟩, Option.some.inj spelled⟩

end Request

end GraphQuery
