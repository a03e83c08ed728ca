import GraphQuery.Proofs.Outline
import GraphQuery.Proofs.Registered

/-!
# Grafted queries

A query that is grafted is moved: its nested blocks were registered under paths of its own,
and are put under paths inside the block that it becomes. Main statement: that is what the
same calls make of the nested block itself, with the function of the query as its first filter.
-/

namespace GraphQuery

/-! ## Maps with moved keys -/

namespace KeyMap

variable {α β : Type}

section Moved

variable {move : String → String} (injective : ∀ {k j}, move k = move j → k = j) (change : α → β)

include injective in
theorem lookup_map (es : List (String × α)) (k : String) :
    (es.map fun e => (move e.1, change e.2)).lookup (move k) = (es.lookup k).map change := by
  induction es with
  | nil => rfl
  | cons e es ih =>
    obtain ⟨j, a⟩ := e
    by_cases same : k = j
    · simp [same]
    · have apart : move k ≠ move j := fun h => same (injective h)
      simp [List.lookup_cons, beq_eq_false_iff_ne.2 same, beq_eq_false_iff_ne.2 apart, ih]

include injective in
/-- Keys that are moved apart keep their values. -/
theorem get?_ofList_map (es : List (String × α)) (k : String) :
    (ofList (es.map fun e => (move e.1, change e.2))).get? (move k) = ((ofList es).get? k).map change := by
  rw [get?_ofList, get?_ofList, ← List.map_reverse, lookup_map injective]

theorem get?_ofList_map_of_ne (es : List (String × α)) {key : String} (outside : ∀ k, move k ≠ key) :
    (ofList (es.map fun e => (move e.1, change e.2))).get? key = none := by
  rw [get?_ofList, ← List.map_reverse, List.lookup_eq_none_iff]
  intro e member
  obtain ⟨e, _, rfl⟩ := List.mem_map.1 member
  simpa using (outside e.1).symm

end Moved

end KeyMap

/-! ## Blocks put inside another -/

/-- A block put inside the block at a path, along with the block that it is nested in. -/
def Block.inside (path : String) (b : Block) : Block :=
  { b with path := Path.join path b.path, body := { b.body with key := Path.join path b.body.key } }

namespace Registry

/-- A registry with all its blocks and their paths put inside the block at a path. -/
def inside (path : String) (r : Registry) : Registry := r.moved (Path.join path) (Block.inside path)

variable {path : String} {r s : Registry}

theorem get?_inside (k : String) :
    (r.inside path).get? (Path.join path k) = (r.get? k).map (·.map (Block.inside path)) := by
  rw [inside, moved, KeyMap.get?_ofList_map Path.join_injective, KeyMap.ofList_entries]

theorem get?_inside_of_ne {key : String} (outside : ∀ k, Path.join path k ≠ key) : (r.inside path).get? key = none :=
  KeyMap.get?_ofList_map_of_ne _ _ outside

/-- A registry that holds what another holds, under paths inside a block, and nothing elsewhere. -/
theorem eq_inside (within : ∀ k, s.get? (Path.join path k) = (r.get? k).map (·.map (Block.inside path)))
    (outside : ∀ key, (∀ k, Path.join path k ≠ key) → s.get? key = none) : r.inside path = s := by
  refine KeyMap.ext_get? fun key => ?_
  by_cases here : ∃ k, Path.join path k = key
  · obtain ⟨k, rfl⟩ := here
    rw [get?_inside, within]
  · have away : ∀ k, Path.join path k ≠ key := fun k same => here ⟨k, same⟩
    rw [get?_inside_of_ne away, outside key away]

theorem inside_ofList (es : List (String × List Block)) :
    inside path (KeyMap.ofList es) =
      KeyMap.ofList (es.map fun e => (Path.join path e.1, e.2.map (Block.inside path))) :=
  eq_inside (KeyMap.get?_ofList_map Path.join_injective _ es) fun _ away => KeyMap.get?_ofList_map_of_ne _ es away

theorem inside_extend (k : String) (bs : List Block) :
    (r.extend k bs).inside path = (r.inside path).extend (Path.join path k) (bs.map (Block.inside path)) := by
  refine eq_inside (fun j => ?_) fun key away => ?_
  · rw [extend, extend, KeyMap.get?_alter, KeyMap.get?_alter, get?_inside, get?_inside]
    by_cases same : j = k
    · subst same
      cases r.get? j <;> simp
    · have apart : Path.join path j ≠ Path.join path k := fun h => same (Path.join_injective h)
      simp [same, apart]
  · rw [extend, KeyMap.get?_alter, if_neg (Ne.symm (away k)), get?_inside_of_ne away]

/-- A block is registered inside the block at a path as it is registered at the top. -/
theorem inside_add {b : Block} (anchored : Path.Anchored b.path) :
    (r.add b).inside path = (r.inside path).add (b.inside path) := by
  have around : Path.parent (b.inside path).path = Path.join path (Path.parent b.path) := Path.parent_join path anchored
  rw [add, add, inside_extend, around]
  rfl

theorem inside_merge : (r.merge s).inside path = (r.inside path).merge (s.inside path) := by
  refine eq_inside (fun k => ?_) fun key away => ?_
  · rw [merge, merge, KeyMap.get?_mergeWith, KeyMap.get?_mergeWith, get?_inside, get?_inside]
    cases r.get? k <;> cases s.get? k <;> simp
  · rw [merge, KeyMap.get?_mergeWith, get?_inside_of_ne away, get?_inside_of_ne away]
    rfl

end Registry

/-! ## Builders put inside another -/

theorem Part.apply_inside (path : String) (b : Block) (part : Part) :
    (part.apply b).inside path = part.apply (b.inside path) := by
  cases part <;> rfl

theorem Part.foldl_inside (path : String) (b : Block) (parts : List Part) :
    (parts.foldl Part.apply b).inside path = parts.foldl Part.apply (b.inside path) := by
  induction parts generalizing b with
  | nil => rfl
  | cons part parts ih => rw [List.foldl_cons, List.foldl_cons, ih, Part.apply_inside]

namespace Builder

/-- A builder whose nested blocks are put inside the block at a path and whose own block is changed. -/
def inside (path : String) (change : Block → Block) (q : Builder) : Builder :=
  ⟨change q.root, q.children.inside path, q.attached⟩

variable {full path : String} {change : Block → Block} {q r : Builder}

theorem rebase_empty (full : String) : rebase full "" = Path.join full := by
  funext path
  simp [rebase, Path.relativeTo]

/-- A query built at the top is grafted by putting its blocks inside the new block. -/
theorem grafted_eq_inside (top : r.base = "") : r.grafted full = r.inside full (graftedRoot full) := by
  have block : rebaseBlock full "" = Block.inside full := by
    funext b
    simp [rebaseBlock, Block.inside, rebase_empty]
  rw [grafted, top, rebase_empty, block]
  rfl

theorem inside_merge (anchored : Path.Anchored r.root.path) :
    (q.merge r).inside full change = (q.inside full change).merge (r.inside full (Block.inside full)) := by
  simp only [inside, merge, Registry.inside_merge, Registry.inside_add anchored]

theorem inside_edgeWith (placed : (q.inside full change).base = Path.join full q.base)
    (anchored : Path.Anchored (Path.join q.base path)) (parts : List Part) :
    (q.edgeWith path parts).inside full change = (q.inside full change).edgeWith path parts := by
  have named : Path.Anchored (parts.foldl Part.apply (.nested (Path.join q.base path))).path := by
    rw [(Part.placed_foldl _ _).1]
    exact anchored
  have block : (Block.nested (Path.join q.base path)).inside full =
      .nested (Path.join (q.inside full change).base path) := by
    rw [placed, Path.join_assoc]
    rfl
  simp only [edgeWith]
  rw [← block, ← Part.foldl_inside]
  simp only [inside, Registry.inside_add named]

theorem inside_nestedAt (placed : (q.inside full change).base = Path.join full q.base) :
    (q.nestedAt path).inside full (Block.inside full) = (q.inside full change).nestedAt path := by
  rw [nestedAt, nestedAt, placed, Path.join_assoc]
  rfl

/-- A query grafted inside a block that is itself moved is grafted inside the moved block. -/
theorem inside_grafted (r : Builder) (path : String) :
    (r.grafted path).inside full (Block.inside full) = r.grafted (Path.join full path) := by
  have rebased (old p : String) : Path.join full (rebase path old p) = rebase (Path.join full path) old p :=
    (Path.join_assoc full path _).symm
  have block (old : String) (b : Block) :
      (rebaseBlock path old b).inside full = rebaseBlock (Path.join full path) old b := by
    simp [rebaseBlock, Block.inside, rebased]
  have children : (r.grafted path).children.inside full = (r.grafted (Path.join full path)).children := by
    simp only [grafted, Registry.inside_ofList, List.map_map, Function.comp_def, rebased, block]
  rw [inside, children]
  rfl

theorem inside_graft (placed : (q.inside full change).base = Path.join full q.base)
    (anchored : Path.Anchored (Path.join q.base path)) (r : Builder) :
    (q.graft path r).inside full change = (q.inside full change).graft path r := by
  have named : Path.Anchored (r.grafted (Path.join q.base path)).root.path := anchored
  rw [graft, graft, inside_merge named, inside_grafted, placed, Path.join_assoc]

end Builder

/-! ## Steps -/

/-- A plan of a query of its own, which does not start from the builder at hand. -/
def Plan.IsFixed : Plan → Prop
  | .plan start _ => start.isSome

theorem Plan.build_of_isFixed {p : Plan} (fixed : p.IsFixed) (q r : Builder) : p.build q = p.build r := by
  cases p with
  | plan start steps =>
    obtain ⟨b, rfl⟩ := Option.isSome_iff_exists.1 fixed
    rfl

mutual

/-- A call that does the same wherever its block stands. Paths have no empty segments, nested blocks
    get new names without arrows, a function of a nested block gives back its own builder, and the
    queries that are attached or grafted do not depend on the block. -/
def Step.Movable : Step → Prop
  | .name n => n ≠ "" ∧ Path.Single n
  | .attach p => p.IsFixed
  | .edge path => Path.Filled path
  | .edgeWith path _ => Path.Filled path
  | .edgeOf path steps => Path.Filled path ∧ Step.MovableAll steps
  | .edgeBy _ _ => False
  | .graft path p => Path.Filled path ∧ p.IsFixed
  | _ => True

def Step.MovableAll : List Step → Prop
  | [] => True
  | s :: steps => s.Movable ∧ Step.MovableAll steps

end

def Step.Renames : Step → Prop
  | .name _ => True
  | _ => False

namespace Builder

variable {full : String}

/-- A new name for a nested block is its name too when the block is put inside another one. -/
theorem inside_name {q : Builder} (anchored : Path.Anchored q.base) {n : String} (filled : n ≠ "") :
    (q.name n).inside full (Block.inside full) = (q.inside full (Block.inside full)).name n := by
  have joined (around : String) : (if around.isEmpty then n else around ++ "->" ++ n) = Path.join around n := by
    by_cases top : around = ""
    · simp [top, Path.empty_join]
    · simp [top, Path.join_of_ne top filled]
  have around : Path.parent (q.inside full (Block.inside full)).base = Path.join full (Path.parent q.base) :=
    Path.parent_join full anchored
  simp only [name, joined, around, Path.join_assoc]
  rfl

theorem anchored_name {q : Builder} (anchored : Path.Anchored q.base) {n : String} (filled : n ≠ "")
    (single : Path.Single n) : Path.Anchored (q.name n).root.path := by
  show Path.Anchored (if (Path.parent q.base).isEmpty then n else Path.parent q.base ++ "->" ++ n)
  rcases anchored.parent with top | deep
  · simpa [top] using single.anchored filled
  · simpa [deep.1] using deep.append_arrow n

end Builder

open Builder (inside_merge inside_edgeWith inside_nestedAt inside_graft)

mutual

/-- A call on the builder of a nested block is the same call when the block is put inside another one. -/
theorem Step.inside_apply {full : String} {q : Builder} {s : Step} (movable : s.Movable)
    (anchored : Path.Anchored q.base) :
    (s.apply q).inside full (Block.inside full) = s.apply (q.inside full (Block.inside full)) := by
  have deeper {path : String} (filled : Path.Filled path) : Path.Anchored (Path.join q.base path) :=
    filled.anchored.join (.inr anchored)
  have placed : (q.inside full (Block.inside full)).base = Path.join full q.base := rfl
  cases s with
  | name n => exact Builder.inside_name anchored movable.1
  | attach p =>
    have same := Plan.build_of_isFixed movable (q.inside full (Block.inside full)) q
    rw [Step.apply, Step.apply, same]
    rfl
  | edge path => exact inside_edgeWith placed (deeper movable) []
  | edgeWith path parts => exact inside_edgeWith placed (deeper movable) parts
  | edgeOf path steps =>
    obtain ⟨filled, movable⟩ := movable
    obtain ⟨moved, named⟩ := Step.inside_run full (q.nestedAt path) movable (deeper filled) (deeper filled)
    rw [Step.apply, Step.apply, Builder.edgeOf, Builder.edgeOf, inside_merge named, moved, inside_nestedAt placed]
  | edgeBy path p => exact movable.elim
  | graft path p =>
    have same := Plan.build_of_isFixed movable.2 (q.inside full (Block.inside full)) q
    rw [Step.apply, Step.apply, same]
    exact inside_graft placed (deeper movable.1) _
  | _ => rfl

theorem Step.inside_run (full : String) (q : Builder) {steps : List Step} (movable : Step.MovableAll steps)
    (anchored : Path.Anchored q.base) (named : Path.Anchored q.root.path) :
    (Step.run q steps).inside full (Block.inside full) = Step.run (q.inside full (Block.inside full)) steps ∧
      Path.Anchored (Step.run q steps).root.path := by
  cases steps with
  | nil => exact ⟨rfl, named⟩
  | cons s steps =>
    obtain ⟨own, rest⟩ := movable
    -- A new name changes the path of the block but not its key, so both are followed.
    have based : Path.Anchored (s.apply q).base := by
      rw [Builder.base_apply]
      exact anchored
    have renamed : Path.Anchored (s.apply q).root.path := by
      cases s with
      | name n => exact Builder.anchored_name anchored own.1 own.2
      | _ => exact named
    rw [Step.run, Step.run, ← Step.inside_apply own anchored]
    exact Step.inside_run full _ rest based renamed

end

namespace Builder

variable (full : String) (q : Builder)

/-- A call on a query at the top is the same call when the query is a nested block. -/
theorem inside_apply {s : Step} (movable : s.Movable) (keeps : ¬ s.Renames) (top : q.base = "") :
    (s.apply q).inside full (graftedRoot full) = s.apply (q.inside full (graftedRoot full)) := by
  have placed : (q.inside full (graftedRoot full)).base = Path.join full q.base := by
    rw [top, Path.join_empty]
    rfl
  have deeper {path : String} (filled : Path.Filled path) : Path.Anchored (Path.join q.base path) :=
    filled.anchored.join (.inl top)
  cases s with
  | name n => exact absurd trivial keeps
  | filter e =>
    -- The function of the query becomes its first filter, and filters added later stay behind it.
    have filters := List.append_assoc q.root.rootFilter.toList q.root.filters [e]
    simp only [Step.apply, inside, Builder.filter, onRoot, graftedRoot, filters]
  | attach p =>
    have same := Plan.build_of_isFixed movable (q.inside full (graftedRoot full)) q
    rw [Step.apply, Step.apply, same]
    rfl
  | edge path => exact inside_edgeWith placed (deeper movable) []
  | edgeWith path parts => exact inside_edgeWith placed (deeper movable) parts
  | edgeOf path steps =>
    obtain ⟨filled, movable⟩ := movable
    obtain ⟨moved, named⟩ := Step.inside_run full (q.nestedAt path) movable (deeper filled) (deeper filled)
    rw [Step.apply, Step.apply, edgeOf, edgeOf, inside_merge named, moved, inside_nestedAt placed]
  | edgeBy path p => exact movable.elim
  | graft path p =>
    have same := Plan.build_of_isFixed movable.2 (q.inside full (graftedRoot full)) q
    rw [Step.apply, Step.apply, same]
    exact inside_graft placed (deeper movable.1) _
  | _ => rfl

theorem inside_run {steps : List Step} (movable : Step.MovableAll steps) (keep : ∀ s ∈ steps, ¬ s.Renames)
    (top : q.base = "") :
    (Step.run q steps).inside full (graftedRoot full) = Step.run (q.inside full (graftedRoot full)) steps ∧
      (Step.run q steps).base = "" := by
  induction steps generalizing q with
  | nil => exact ⟨rfl, top⟩
  | cons s steps ih =>
    obtain ⟨own, rest⟩ := movable
    rw [Step.run, Step.run, ← inside_apply full q own (keep s (by simp)) top]
    exact ih (s.apply q) rest (fun s later => keep s (List.mem_cons_of_mem _ later)) (by rw [base_apply, top])

/-- Calls on a query that is then grafted are the same calls on the nested block with the function
    of the query as a filter. -/
theorem graft_eq_edgeOf (q : Builder) (path : String) (e : Expr) {steps : List Step}
    (movable : Step.MovableAll steps) (keep : ∀ s ∈ steps, ¬ s.Renames) :
    q.graft path (Step.run (.query e) steps) = q.edgeOf path fun b => Step.run (b.filter e) steps := by
  obtain ⟨moved, top⟩ := inside_run (Path.join q.base path) (.query e) movable keep rfl
  rw [graft, grafted_eq_inside top, moved]
  rfl

end Builder

/-- Calls on a film with a renamed block inside it, another inside that one, and a query grafted there. -/
def Step.staging : List Step :=
  [.fields "name", .as "films", .first 3, .filter (.ofType "Shot"), .edge "genre",
    .edgeOf "cast" [.name "crew", .edgeOf "award->year" [.name "won", .cascade []],
      .graft "studio" (.plan (some (.queryType "Person")) [.edge "pet", .name "keeper"])],
    .attach (.plan (some (.varBlock (.ofType "Prize"))) [.as "prizes"])]

theorem Step.movable_staging : Step.MovableAll Step.staging := by
  have filled : Path.Filled "genre" ∧ Path.Filled "cast" ∧ Path.Filled "award->year" ∧ Path.Filled "studio" := by
    decide +kernel
  have single : Path.Single "crew" ∧ Path.Single "won" := by decide +kernel
  simp [Step.staging, Step.MovableAll, Step.Movable, Plan.IsFixed, filled, single]

theorem Builder.graft_eq_edgeOf_staging :
    (queryType "Person").graft "made->film" (Step.run (.query (.ofType "Film")) Step.staging) =
        (queryType "Person").edgeOf "made->film" (fun b => Step.run (b.filter (.ofType "Film")) Step.staging) ∧
      ((queryType "Person").graft "made->film" (Step.run (.query (.ofType "Film")) Step.staging)).children.keys =
        ["made", "made->film", "made->film->cast", "made->film->cast->award", "made->film->cast->studio"] := by
  refine ⟨graft_eq_edgeOf _ _ _ Step.movable_staging ?_, by decide +kernel⟩
  simp [Step.staging, Step.Renames]

end GraphQuery
