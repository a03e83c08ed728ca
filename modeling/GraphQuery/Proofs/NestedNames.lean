import GraphQuery.Proofs.Grafting
import GraphQuery.Proofs.Growing

/-!
# Names of nested blocks

What a new name changes in a nested block that other calls configure before and after. Main
statement: the block gets another path and nothing else, and it stays inside the block
around it, under the new name, if and only if the name has no arrow.
-/

namespace GraphQuery

/-! ## Names with arrows -/

namespace Path

theorem single_of_free {name : String} (free : cutLast? name.toList = none) : Single name := by
  rintro ⟨before, rest, split⟩
  rw [← split, List.append_assoc] at free
  exact cutLast?_ne_none before rest free

/-- The last name of a text is the text without the blanks at its ends just when there is no arrow in it. -/
theorem lastName_eq_trim_iff (name : String) : lastName name = String.ofList (Text.trim name.toList) ↔ Single name := by
  constructor
  · intro same
    cases cut : cutLast? name.toList with
    | none => exact single_of_free cut
    | some parts =>
      obtain ⟨before, rest⟩ := parts
      rw [lastName, cut, String.ofList_inj] at same
      -- The end after the last arrow has fewer marks than the text, and trimming takes none away.
      have marks := congrArg (List.count '>') same
      have filled : Text.isBlank '>' = false := by decide
      rw [Text.count_trim filled, Text.count_trim filled, (of_cutLast?_eq_some cut).1, List.count_append,
        List.count_cons_of_ne (by decide), List.count_cons_self] at marks
      omega
  · intro single
    rw [lastName, single.free]

end Path

namespace Builder

/-! ## Twins -/

/-- Builders of the same nested blocks, whose own blocks may differ in their path; other blocks may be attached. -/
def Twin (p q : Builder) : Prop := ∃ path attached, p = ⟨{ q.root with path := path }, q.children, attached⟩

theorem Twin.refl (q : Builder) : q.Twin q := by
  refine ⟨q.root.path, q.attached, ?_⟩
  cases q
  rfl

theorem Twin.root_eq {p q : Builder} (twin : p.Twin q) : p.root = { q.root with path := p.root.path } := by
  obtain ⟨_, _, rfl⟩ := twin
  rfl

theorem Twin.children_eq {p q : Builder} (twin : p.Twin q) : p.children = q.children := by
  obtain ⟨_, _, rfl⟩ := twin
  rfl

theorem Twin.name (q : Builder) (n : String) : (q.name n).Twin q := ⟨_, _, rfl⟩

end Builder

mutual

/-- A call does not look at the path of the block it is made on. -/
theorem Step.twin_apply {p q : Builder} (twin : p.Twin q) (s : Step) : (s.apply p).Twin (s.apply q) := by
  obtain ⟨path, attached, rfl⟩ := twin
  cases s with
  | graft inner plan =>
    obtain ⟨_, others, built⟩ := Plan.twin_build ⟨path, attached, rfl⟩ plan
    refine ⟨path, attached ++ others, ?_⟩
    show Builder.graft _ inner (plan.build _) = _
    rw [built]
    rfl
  | _ => exact ⟨_, _, rfl⟩

theorem Step.twin_run {p q : Builder} (twin : p.Twin q) (steps : List Step) :
    (Step.run p steps).Twin (Step.run q steps) := by
  cases steps with
  | nil => exact twin
  | cons s steps => exact Step.twin_run (Step.twin_apply twin s) steps

theorem Plan.twin_build {p q : Builder} (twin : p.Twin q) (plan : Plan) : (plan.build p).Twin (plan.build q) := by
  cases plan with
  | plan start steps =>
    cases start with
    | none => exact Step.twin_run twin steps
    | some r => exact .refl _

end

/-! ## Renamed blocks -/

namespace Step

theorem run_append (q : Builder) (before after : List Step) :
    run q (before ++ after) = run (run q before) after := by
  induction before generalizing q with
  | nil => rfl
  | cons s before ih => exact ih (s.apply q)

theorem base_run (q : Builder) (steps : List Step) : (run q steps).base = q.base := by
  induction steps generalizing q with
  | nil => rfl
  | cons s steps ih => exact (ih (s.apply q)).trans (Builder.base_apply q s)

/-- Only a new name changes the path of a block. -/
theorem path_apply {s : Step} (keeps : ¬ s.Renames) (q : Builder) : (s.apply q).root.path = q.root.path := by
  cases s with
  | name n => exact absurd trivial keeps
  | _ => rfl

theorem path_run {steps : List Step} (keep : ∀ s ∈ steps, ¬ s.Renames) (q : Builder) :
    (run q steps).root.path = q.root.path := by
  induction steps generalizing q with
  | nil => rfl
  | cons s steps ih =>
    obtain ⟨keeps, rest⟩ := List.forall_mem_cons.1 keep
    exact (ih rest (s.apply q)).trans (path_apply keeps q)

end Step

namespace Builder

/-- A nested block that gets a new name is the block without the name but for its path, and the blocks nested in
    it are found under its old path. It is put among the blocks inside the block around its new path. That is
    the block around it without the name, and the name is the new one without the blanks at its
    ends, if and only if the new name has no arrow. -/
theorem edgeOf_name_iff (q : Builder) (path n : String) (before : List Step) {after : List Step}
    (last : ∀ s ∈ after, ¬ s.Renames) :
    let full := Path.join q.base path
    let plain := Step.run (q.nestedAt path) (before ++ after)
    let named := Step.run (q.nestedAt path) (before ++ .name n :: after)
    let found := q.edgeOf path fun b => Step.run b (before ++ .name n :: after)
    (named.root = { plain.root with path := named.root.path } ∧ named.base = full ∧ named.children = plain.children) ∧
    (∀ key, found.children.blocks key =
      q.children.blocks key ++ (if key = Path.parent named.root.path then [named.root] else []) ++
        plain.children.blocks key) ∧
    ((∀ s ∈ before, ¬ s.Renames) → plain.root.path = full) ∧
    (Path.parent named.root.path = Path.parent full ∧ named.root.name = String.ofList (Text.trim n.toList) ↔
      Path.Single n) := by
  intro full plain named found
  let shared := Step.run (q.nestedAt path) before
  have placed : shared.base = full := Step.base_run _ before
  have runs : named = Step.run (shared.name n) after := Step.run_append _ before (.name n :: after)
  have kept : named.root.path = (shared.name n).root.path := by rw [runs, Step.path_run last]
  have twin : named.Twin plain := by
    rw [runs, show plain = Step.run shared after from Step.run_append _ before after]
    exact Step.twin_run (.name shared n) after
  have name : named.root.name = Path.lastName n := by
    rw [Block.name, kept]
    exact shared.blockName_name n
  refine ⟨⟨twin.root_eq, Step.base_run _ _, twin.children_eq⟩, fun key => ?_, fun keep => ?_, ?_⟩
  · show (q.merge named).children.blocks key = _
    rw [merge, Registry.blocks_merge, Registry.add, Registry.blocks_extend, twin.children_eq]
    split
    · next here => rw [here]
    · rw [List.append_nil]
  · exact Step.path_run (List.forall_mem_append.2 ⟨keep, last⟩) (q.nestedAt path)
  · rw [name, Path.lastName_eq_trim_iff, and_iff_right_iff_imp]
    intro single
    rw [kept, parent_name shared single, placed]

/-- A block of actors is called star, with one block nested before it gets the name and two after that. -/
theorem edgeOf_name_star :
    let before : List Step := [.edge "award"]
    let after : List Step := [.edgeOf "spouse" [.name "partner", .edge "pet"], .fields "name"]
    let plain := Step.run (Plan.anything.nestedAt "film->actor") (before ++ after)
    let named := Step.run (Plan.anything.nestedAt "film->actor") (before ++ .name " star " :: after)
    (∀ s ∈ after, ¬ s.Renames) ∧ plain.root.path = "film->actor" ∧
      named.root = { plain.root with path := named.root.path } ∧ named.children = plain.children ∧
      named.children.keys = ["film->actor", "film->actor->spouse"] ∧
      Path.parent named.root.path = "film" ∧ named.root.name = "star" := by
  intro before after plain named
  have last : ∀ s ∈ after, ¬ s.Renames := by simp [after, Step.Renames]
  obtain ⟨⟨same, _, inner⟩, _, unnamed, inside⟩ := edgeOf_name_iff Plan.anything "film->actor" " star " before last
  obtain ⟨around, name⟩ := inside.2 (by unfold Path.Single; decide)
  have first : ∀ s ∈ before, ¬ s.Renames := by simp [before, Step.Renames]
  exact ⟨last, unnamed first, same, inner, by decide +kernel, around.trans (by decide +kernel),
    name.trans (by decide +kernel)⟩

/-- A nested block gets a name with an arrow and is not written any more. -/
theorem edgeOf_name_arrow :
    let plain := Step.run (Plan.anything.nestedAt "a") [.fields "uid"]
    let named := Step.run (Plan.anything.nestedAt "a") [.name "x->y", .fields "uid"]
    Path.parent plain.root.path = "" ∧ Path.parent named.root.path = "x" ∧ named.root.name = "y" ∧
      (Request.compile [Plan.anything.edgeOf "a" (Step.run · [.fields "uid"])]).toOption.map (·.text) = some
        "query Rootquery() \x7b rootQuery(func: has(name)) \x7b a \x7b uid \x7d \x7d \x7d" ∧
      (Request.compile [Plan.anything.edgeOf "a" (Step.run · [.name "x->y", .fields "uid"])]).toOption.map (·.text) = some
        "query Rootquery() \x7b rootQuery(func: has(name)) \x7b  \x7d \x7d" := by
  decide +kernel

end Builder

end GraphQuery
