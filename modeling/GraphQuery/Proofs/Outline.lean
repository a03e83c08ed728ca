import GraphQuery.Builder.Script
import GraphQuery.Proofs.Joining

/-!
# Outlines of nested blocks

A nested block is added either with a function that configures it and adds blocks inside it,
or with a path and a list of parts. Main statement: both ways build the same query. A block
with all blocks inside it is what its outline adds, a path and parts for each block, from the
outside in.
-/

namespace GraphQuery

/-! ## Registering one block after another -/

namespace Registry

/-- A registry with more blocks, each under the path of the block around it. -/
def addAll (r : Registry) (bs : List Block) : Registry := bs.foldl add r

theorem merge_add (r s : Registry) (b : Block) : r.merge (s.add b) = (r.merge s).add b := by
  refine KeyMap.ext_get? fun key => ?_
  simp only [merge, add, extend, KeyMap.get?_mergeWith, KeyMap.get?_alter]
  by_cases here : key = Path.parent b.path
  · subst here
    cases r.get? (Path.parent b.path) <;> cases s.get? (Path.parent b.path) <;> simp
  · simp [here]

theorem merge_empty (r : Registry) : r.merge ∅ = r := by
  refine KeyMap.ext_get? fun key => ?_
  rw [merge, KeyMap.get?_mergeWith, KeyMap.get?_empty]
  cases r.get? key <;> rfl

theorem merge_addAll (r s : Registry) (bs : List Block) : r.merge (s.addAll bs) = (r.merge s).addAll bs := by
  induction bs generalizing s with
  | nil => rfl
  | cons b bs ih =>
    have added := ih (s.add b)
    rw [merge_add] at added
    exact added

theorem addAll_append (r : Registry) (bs cs : List Block) : r.addAll (bs ++ cs) = (r.addAll bs).addAll cs :=
  List.foldl_append

end Registry

/-! ## Parts -/

/-- Parts change neither the path of a block nor its key. -/
theorem Part.placed_foldl (b : Block) (parts : List Part) :
    (parts.foldl Part.apply b).path = b.path ∧ (parts.foldl Part.apply b).body.key = b.body.key := by
  induction parts generalizing b with
  | nil => exact ⟨rfl, rfl⟩
  | cons part parts ih =>
    obtain ⟨path, key⟩ := ih (part.apply b)
    rw [List.foldl_cons, path, key]
    cases part <;> exact ⟨rfl, rfl⟩

namespace Step

/-- The part that does to a block what a configuring call does to the block of its builder. -/
def part? : Step → Option Part
  | .fields blob => some (.fields (.ofBlob blob))
  | .select s => some (.fields s)
  | .filter e => some (.filter e)
  | .paginate c => some (.paginate c)
  | .order o => some (.order o)
  | .groupBy predicate => some (.groupBy predicate)
  | .facet f => some (.facet f)
  | .cascade names => some (.cascade names)
  | _ => none

theorem apply_of_part? {s : Step} {part : Part} (h : s.part? = some part) (q : Builder) :
    s.apply q = q.onRoot (Part.apply · part) := by
  cases s <;> cases h <;> rfl

end Step

namespace Builder

theorem base_apply (q : Builder) (s : Step) : (s.apply q).base = q.base := by
  cases s <;> rfl

end Builder

/-! ## Outlines -/

mutual

/-- A nested block with a function that only configures it and adds blocks of the same kind. -/
def Step.IsNest : Step → Prop
  | .edgeOf _ steps => Step.AreItems steps
  | _ => False

/-- Calls that apply a part to the block or nest such a block inside it. -/
def Step.AreItems : List Step → Prop
  | [] => True
  | s :: steps => (s.part?.isSome ∨ s.IsNest) ∧ Step.AreItems steps

end

mutual

/-- The blocks that a call nests, from the outside in: the path of each, seen from the builder at
    hand, and the parts applied to it. -/
def Step.outline : Step → List (String × List Part)
  | .edgeOf path steps =>
    (path, steps.filterMap Step.part?) :: (Step.outlineAll steps).map fun e => (Path.join path e.1, e.2)
  | _ => []

def Step.outlineAll : List Step → List (String × List Part)
  | [] => []
  | s :: steps => s.outline ++ Step.outlineAll steps

end

namespace Builder

/-- The block that an entry of an outline stands for. -/
def outlined (q : Builder) (e : String × List Part) : Block := e.2.foldl Part.apply (.nested (Path.join q.base e.1))

theorem foldl_edgeWith (q : Builder) (es : List (String × List Part)) :
    es.foldl (fun q e => q.edgeWith e.1 e.2) q = { q with children := q.children.addAll (es.map q.outlined) } := by
  induction es generalizing q with
  | nil => cases q; rfl
  | cons e es ih => exact ih (q.edgeWith e.1 e.2)

/-- An outline inside a nested block, seen from outside. -/
theorem map_outlined_nestedAt (q : Builder) (path : String) (es : List (String × List Part)) :
    es.map (q.nestedAt path).outlined = (es.map fun e => (Path.join path e.1, e.2)).map q.outlined := by
  rw [List.map_map]
  refine List.map_congr_left fun e _ => ?_
  have base : (q.nestedAt path).base = Path.join q.base path := rfl
  simp only [outlined, Function.comp_apply, base, Path.join_assoc]

end Builder

mutual

theorem Step.apply_of_isNest {s : Step} (nest : s.IsNest) (q : Builder) :
    s.apply q = { q with children := q.children.addAll (s.outline.map q.outlined) } := by
  cases s with
  | edgeOf path steps =>
    have items : Step.AreItems steps := nest
    have built := Step.run_of_areItems items (q.nestedAt path)
    rw [Builder.map_outlined_nestedAt] at built
    rw [Step.apply, Builder.edgeOf, built, Builder.merge, Registry.merge_addAll]
    simp only [Builder.nestedAt, Builder.ofBlock, Registry.merge_empty, List.append_nil]
    rfl
  | _ => exact nest.elim

/-- What calls make of a builder: its block with their parts, and the blocks that they nest. -/
theorem Step.run_of_areItems {steps : List Step} (items : Step.AreItems steps) (q : Builder) :
    Step.run q steps = ⟨(steps.filterMap Step.part?).foldl Part.apply q.root,
      q.children.addAll ((Step.outlineAll steps).map q.outlined), q.attached⟩ := by
  cases steps with
  | nil => cases q; rfl
  | cons s steps =>
    obtain ⟨part | nest, rest⟩ := items
    · obtain ⟨part, found⟩ := Option.isSome_iff_exists.1 part
      have placed : (q.onRoot (Part.apply · part)).outlined = q.outlined := by
        funext e
        rw [Builder.outlined, Builder.outlined, ← Step.apply_of_part? found, Builder.base_apply]
      have silent : s.outline = [] := by
        cases s <;> first | rfl | cases found
      rw [Step.run, Step.apply_of_part? found, Step.run_of_areItems rest, List.filterMap_cons_some found,
        Step.outlineAll, silent, placed]
      rfl
    · have idle : s.part? = none := by
        cases s <;> first | rfl | exact nest.elim
      rw [Step.run, Step.apply_of_isNest nest, Step.run_of_areItems rest, List.filterMap_cons_none idle,
        Step.outlineAll, List.map_append, Registry.addAll_append]
      rfl

end

/-- A block with all blocks that functions nest inside it is what its outline adds, block by block. -/
theorem Builder.edgeOf_eq_foldl_edgeWith (q : Builder) (path : String) {steps : List Step}
    (items : Step.AreItems steps) :
    q.edgeOf path (fun b => Step.run b steps) =
      (Step.edgeOf path steps).outline.foldl (fun q e => q.edgeWith e.1 e.2) q := by
  rw [foldl_edgeWith, ← Step.apply_of_isNest (s := .edgeOf path steps) items]
  rfl

/-- Calls on a film with its cast twice inside it, once with a block of no path of its own. -/
def Step.filming : List Step :=
  [.fields "name", .edgeOf "cast" [.groupBy "role", .edgeOf "" [.fields "age"], .cascade []],
    .filter (.ofType "Film"), .edgeOf "cast" [.edgeOf "award" [.paginate { first := 2 }]], .fields "title"]

theorem Builder.edgeOf_eq_foldl_edgeWith_filming :
    Step.AreItems Step.filming ∧
      ((queryType "Person").nestedAt "work").edgeOf "film" (fun b => Step.run b Step.filming) =
        ((((((queryType "Person").nestedAt "work").edgeWith "film"
          [.fields (.ofBlob "name"), .filter (.ofType "Film"), .fields (.ofBlob "title")]).edgeWith "film->cast"
          [.groupBy "role", .cascade []]).edgeWith "film->cast" [.fields (.ofBlob "age")]).edgeWith "film->cast"
          []).edgeWith "film->cast->award" [.paginate { first := 2 }] := by
  have items : Step.AreItems Step.filming := by simp [Step.filming, Step.AreItems, Step.IsNest, Step.part?]
  refine ⟨items, ?_⟩
  rw [edgeOf_eq_foldl_edgeWith _ "film" items]
  rfl

end GraphQuery
