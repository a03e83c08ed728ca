import GraphQuery.Proofs.Brackets
import GraphQuery.Proofs.Layout
import GraphQuery.Proofs.NestedNames
import GraphQuery.Proofs.Segments

/-!
# Places of nested blocks

Each call that adds a nested block is given a path, and the names on it say where the block
stands: below the block on which the call is made, inside the block on the path without its
last name. Main statement: unless a name with an arrow is given inside a function, a block
is written once inside each written block on the path around its place, after those that
were put there before it, and nowhere else.
-/

namespace GraphQuery

/-! ## Paths by their names -/

namespace Path

/-- The names on a path from the outside in; the empty path, which stands for the top, has none. -/
def names (path : String) : List String := if path = "" then [] else segments path

/-- The place at a path below the block on another. -/
def seated (base path : String) : String := ofSegments (names base ++ names path)

/-- The path around a place, which has all its names but the last. -/
def outer (path : String) : String := ofSegments (names path).dropLast

/-- A place below the block at `old`, carried along to the block at `full` with what follows there;
    other places are put below the new block as they are. -/
def carried (full old path : String) : String :=
  seated full (if names old <+: names path then ofSegments ((names path).drop (names old).length) else path)

theorem names_empty : names "" = [] := rfl

theorem names_of_ne {path : String} (filled : path ≠ "") : names path = segments path := if_neg filled

theorem segments_ne_nil (path : String) : segments path ≠ [] := by
  simp [segments, splitArrows_ne_nil]

theorem ofSegments_names (path : String) : ofSegments (names path) = path := by
  by_cases empty : path = ""
  · rw [empty]
    rfl
  · rw [names_of_ne empty, ofSegments_segments]

theorem ofSegments_append {parts rest : List String} (outer : parts ≠ []) (inner : rest ≠ []) :
    ofSegments (parts ++ rest) = ofSegments parts ++ "->" ++ ofSegments rest :=
  String.intercalate_append_of_ne_nil outer inner

theorem join_eq_seated (base path : String) : join base path = seated base path := by
  by_cases top : base = ""
  · rw [top, empty_join]
    exact (ofSegments_names path).symm
  · by_cases here : path = ""
    · rw [here, join_empty, seated, names_empty, List.append_nil, ofSegments_names]
    · rw [join_of_ne top here, seated, names_of_ne top, names_of_ne here,
        ofSegments_append (segments_ne_nil base) (segments_ne_nil path), ofSegments_segments, ofSegments_segments]

theorem parent_eq_outer (path : String) : parent path = outer path := by
  by_cases top : path = ""
  · rw [top]
    rfl
  · obtain ⟨around, last, split, same, _⟩ := segments_eq_concat path
    rw [outer, names_of_ne top, split, List.dropLast_concat, same]

/-- A path that does not go on after another is seen from there as it is. -/
theorem relativeTo_of_outside {old path : String} (other : path ≠ old) (apart : ∀ rest, path ≠ old ++ "->" ++ rest) :
    relativeTo old path = path := by
  rw [relativeTo, if_neg other]
  split
  · rfl
  · split
    · next rest found =>
      obtain ⟨after, start, follows⟩ := Option.bind_eq_some_iff.1 found
      obtain ⟨first, whole, begins⟩ := Text.eq_append_of_after? start
      obtain ⟨mark, further, ends⟩ := Text.eq_append_of_after? follows
      rw [List.map_id] at begins ends
      refine absurd ?_ (apart (String.ofList rest))
      rw [← String.toList_inj, whole, begins, further, ends]
      simp [arrow]
    · rfl

/-- A path seen from a block has the names after those of the block, if it starts with those. -/
theorem relativeTo_eq (old path : String) : relativeTo old path =
    if names old <+: names path then ofSegments ((names path).drop (names old).length) else path := by
  by_cases top : old = ""
  · rw [top, names_empty, if_pos List.nil_prefix, List.length_nil, List.drop_zero, ofSegments_names]
    rfl
  have filled : names old ≠ [] := by
    rw [names_of_ne top]
    exact segments_ne_nil old
  split
  · next inside =>
    obtain ⟨rest, split⟩ := inside
    have whole : path = ofSegments (names old ++ rest) := by rw [split, ofSegments_names]
    rw [← split, List.drop_left]
    by_cases here : rest = []
    · rw [whole, here, List.append_nil, ofSegments_names]
      simp [relativeTo, top, ofSegments]
    · rw [whole, ofSegments_append filled here, ofSegments_names, relativeTo_append_arrow top]
  · next outside =>
    refine relativeTo_of_outside (fun same => outside (same ▸ List.prefix_rfl)) ?_
    rintro rest rfl
    refine outside ?_
    rw [names_of_ne top, names_of_ne (by simp), segments_append_arrow]
    exact List.prefix_append _ _

end Path

theorem Builder.rebase_eq_carried (full old path : String) : rebase full old path = Path.carried full old path := by
  rw [rebase, Path.join_eq_seated, Path.relativeTo_eq, Path.carried]

/-! ## Placements -/

/-- A nested block at the place that it was given, with the path that it is registered for. -/
structure Placement extends Registration where
  place : String

namespace Placement

/-- A block put at a place is registered for the path around the place. -/
def on (place : String) (b : Block) : Placement := ⟨⟨Path.outer place, b⟩, place⟩

/-- A placement carried along with the block that it is inside of. -/
def carried (full old : String) (e : Placement) : Placement :=
  ⟨⟨Path.carried full old e.around, Builder.rebaseBlock full old e.block⟩, Path.carried full old e.place⟩

/-- The blocks that are put inside a block, in the order in which they were given. -/
def under (key : String) (es : List Placement) : List Block := Registration.under key (es.map (·.toRegistration))

theorem under_append (key : String) (es ds : List Placement) : under key (es ++ ds) = under key es ++ under key ds := by
  rw [under, List.map_append, Registration.under_append]
  rfl

/-- A block whose path is around the same blocks as a place is registered as it is put at the place. -/
theorem ofBlock_eq {place : String} {b : Block} (around : Path.parent b.path = Path.outer place) :
    .ofBlock b = (on place b).toRegistration := by
  rw [Registration.ofBlock, around]
  rfl

theorem rebase_toRegistration (full old : String) (e : Placement) :
    e.toRegistration.rebase full old = (e.carried full old).toRegistration := by
  rw [Registration.rebase, Builder.rebase_eq_carried]
  rfl

end Placement

namespace Builder

/-- What a builder holds, as placements. -/
def held (q : Builder) : List Placement := q.children.registrations.map fun e => ⟨e, e.block.body.key⟩

/-- A builder holds the blocks of some placements under the paths around them, each with its place as its key. -/
structure Holds (q : Builder) (es : List Placement) : Prop where
  blocks : ∀ key, q.children.blocks key = Placement.under key es
  standing : ∀ e ∈ es, e.block.body.key = e.place

namespace Holds

theorem held (q : Builder) : q.Holds q.held where
  blocks key := by
    have same : q.held.map (·.toRegistration) = q.children.registrations := by
      rw [Builder.held, List.map_map]
      exact List.map_id _
    rw [Placement.under, same, Registry.under_registrations]
  standing e member := by
    obtain ⟨_, _, rfl⟩ := List.mem_map.1 member
    rfl

theorem nestedAt (q : Builder) (path : String) : (q.nestedAt path).Holds [] := ⟨fun _ => rfl, by simp⟩

variable {q r : Builder} {es ds : List Placement} {place : String}

/-- A block is added at the place that is its key. -/
theorem add (outside : q.Holds es) {b : Block} (key : b.body.key = place)
    (around : Path.parent b.path = Path.outer place) :
    Holds { q with children := q.children.add b } (es ++ [.on place b]) where
  blocks k := by
    rw [Registry.blocks_add, outside.blocks, Placement.ofBlock_eq around, Placement.under_append]
    rfl
  standing := List.forall_mem_append.2 ⟨outside.standing, by simpa [Placement.on] using key⟩

/-- A builder takes over the block of another at its place, and then all that the other one holds. -/
theorem merge (outside : q.Holds es) (inside : r.Holds ds) (key : r.root.body.key = place)
    (around : Path.parent r.root.path = Path.outer place) : (q.merge r).Holds (es ++ .on place r.root :: ds) where
  blocks k := by
    rw [blocks_merge (inside.blocks k), outside.blocks, Placement.ofBlock_eq around, Placement.under_append]
    rfl
  standing := List.forall_mem_append.2 ⟨outside.standing, List.forall_mem_cons.2 ⟨key, inside.standing⟩⟩

/-- Where moved keys stay distinct, a grafted query holds what it held, carried along. -/
theorem grafted (inside : r.Holds ds) {full : String} (distinct : (r.children.keys.map (rebase full r.base)).Nodup) :
    (r.grafted full).Holds (ds.map (·.carried full r.base)) where
  blocks k := by
    rw [blocks_grafted distinct inside.blocks, Placement.under, List.map_map, List.map_map]
    simp only [Function.comp_def, Placement.rebase_toRegistration]
  standing e member := by
    obtain ⟨d, here, rfl⟩ := List.mem_map.1 member
    show rebase full r.base d.block.body.key = Path.carried full r.base d.place
    rw [inside.standing d here, rebase_eq_carried]

end Holds

end Builder

/-! ## Calls -/

/-- The path on which the builder of a plan stands; `base` is the one of the builder at hand. -/
def Plan.stand (base : String) : Plan → String
  | .plan start _ => start.elim base (·.base)

mutual

/-- The blocks that a call puts inside the block at `base` and further inside; `held` are those that are there. A
    function that gives back another builder puts the block of that one where that one stands. -/
def Step.placed (base : String) (held : List Placement) (q : Builder) : Step → List Placement
  | .edge path => [.on (Path.seated base path) (q.nestedAt path).root]
  | .edgeWith path parts => [.on (Path.seated base path) (parts.foldl Part.apply (q.nestedAt path).root)]
  | .edgeOf path steps =>
    .on (Path.seated base path) (Step.run (q.nestedAt path) steps).root ::
      Step.placedAll (Path.seated base path) [] (q.nestedAt path) steps
  | .edgeBy path p =>
    .on (p.stand (Path.seated base path)) (p.build (q.nestedAt path)).root ::
      p.placed (Path.seated base path) [] (q.nestedAt path)
  | .graft path p =>
    let full := Path.seated base path
    .on full (Builder.graftedRoot full (p.build q).root) :: (p.placed base held q).map (·.carried full (p.stand base))
  | _ => []

/-- The blocks that are held after some calls. -/
def Step.placedAll (base : String) (held : List Placement) (q : Builder) : List Step → List Placement
  | [] => held
  | s :: steps => Step.placedAll base (held ++ s.placed base held q) (s.apply q) steps

/-- The blocks that the builder of a plan holds. -/
def Plan.placed (base : String) (held : List Placement) (q : Builder) : Plan → List Placement
  | .plan none steps => Step.placedAll base held q steps
  | .plan (some r) steps => Step.placedAll r.base r.held r steps

end

/-- A new name has no arrow. -/
def Step.Stays : Step → Prop
  | .name n => Path.Single n
  | _ => True

/-- New names have no arrow, and the block that the plan starts from was given none with one. -/
def Plan.Stays : Plan → Prop
  | .plan start steps => (∀ r ∈ start, Path.outer r.root.path = Path.outer r.base) ∧ ∀ s ∈ steps, s.Stays

mutual

/-- Names that functions give to their blocks have no arrows. -/
def Step.InPlace : Step → Prop
  | .edgeOf _ steps => (∀ s ∈ steps, s.Stays) ∧ Step.InPlaceAll steps
  | .edgeBy _ p => p.Stays ∧ p.InPlace
  | .graft _ p => p.InPlace
  | _ => True

def Step.InPlaceAll : List Step → Prop
  | [] => True
  | s :: steps => s.InPlace ∧ Step.InPlaceAll steps

def Plan.InPlace : Plan → Prop
  | .plan _ steps => Step.InPlaceAll steps

end

mutual

/-- Grafts move different paths to different paths. Those of a query built at the top always stay
    different; a copy of the builder of a nested block may hold paths outside of that block. -/
def Step.Apart (q : Builder) : Step → Prop
  | .edgeOf path steps => Step.ApartAll (q.nestedAt path) steps
  | .edgeBy path p => p.Apart (q.nestedAt path)
  | .graft path p =>
    p.Apart q ∧
      ((p.build q).base = "" ∨
        ((p.build q).children.keys.map (Builder.rebase (Path.join q.base path) (p.build q).base)).Nodup)
  | _ => True

def Step.ApartAll (q : Builder) : List Step → Prop
  | [] => True
  | s :: steps => Step.Apart q s ∧ Step.ApartAll (s.apply q) steps

def Plan.Apart (q : Builder) : Plan → Prop
  | .plan start steps => Step.ApartAll (start.getD q) steps

end

theorem Plan.base_build (q : Builder) (p : Plan) : (p.build q).base = p.stand q.base := by
  cases p with
  | plan start steps => cases start <;> exact Step.base_run _ steps

/-- A block keeps the path around it when it gets no name with an arrow. -/
theorem Step.parent_run {q : Builder} {steps : List Step} (stay : ∀ s ∈ steps, s.Stays)
    (here : Path.parent q.root.path = Path.outer q.base) :
    Path.parent (Step.run q steps).root.path = Path.outer q.base := by
  induction steps generalizing q with
  | nil => exact here
  | cons s steps ih =>
    obtain ⟨own, rest⟩ := List.forall_mem_cons.1 stay
    have next : Path.parent (s.apply q).root.path = Path.outer q.base := by
      cases s with
      | name n => exact (Builder.parent_name q own).trans (Path.parent_eq_outer q.base)
      | _ => exact here
    rw [← Builder.base_apply q s] at next ⊢
    exact ih rest next

theorem Plan.parent_build {q : Builder} {p : Plan} (stays : p.Stays)
    (here : Path.parent q.root.path = Path.outer q.base) :
    Path.parent (p.build q).root.path = Path.outer (p.stand q.base) := by
  cases p with
  | plan start steps =>
    obtain ⟨given, stay⟩ := stays
    cases start with
    | none => exact Step.parent_run stay here
    | some r => exact Step.parent_run stay ((Path.parent_eq_outer _).trans (given r rfl))

open Builder (Holds)

-- The steps of a nested block may rename it before it is taken over, so of its path only the part around it is known.
mutual

/-- A call adds the blocks that it puts somewhere to those that are held. -/
theorem Step.holds_apply {q : Builder} {es : List Placement} (holds : q.Holds es) {s : Step} (apart : s.Apart q)
    (inPlace : s.InPlace) : (s.apply q).Holds (es ++ s.placed q.base es q) := by
  have seat (path : String) : (q.nestedAt path).base = Path.seated q.base path := Path.join_eq_seated q.base path
  have around (path : String) : Path.parent (q.nestedAt path).root.path = Path.outer (Path.seated q.base path) := by
    rw [← seat]
    exact Path.parent_eq_outer _
  cases s with
  | edge path => exact holds.add (seat path) (around path)
  | edgeWith path parts =>
    obtain ⟨name, key⟩ := Part.placed_foldl (q.nestedAt path).root parts
    exact holds.add (key.trans (seat path)) ((congrArg Path.parent name).trans (around path))
  | edgeOf path steps =>
    obtain ⟨stay, inPlace⟩ := inPlace
    rw [Step.placed, ← seat]
    exact holds.merge (Step.holds_run (.nestedAt q path) apart inPlace) (Step.base_run _ steps)
      (Step.parent_run stay (Path.parent_eq_outer _))
  | edgeBy path p =>
    obtain ⟨stays, inPlace⟩ := inPlace
    rw [Step.placed, ← seat]
    exact holds.merge (Plan.holds_build (.nestedAt q path) apart inPlace) (Plan.base_build _ p)
      (Plan.parent_build stays (Path.parent_eq_outer _))
  | graft path p =>
    obtain ⟨apart, moved⟩ := apart
    have distinct := moved.elim (Builder.nodup_rebase · (Path.join q.base path)) id
    rw [Step.placed, ← Path.join_eq_seated, ← Plan.base_build]
    exact holds.merge ((Plan.holds_build holds apart inPlace).grafted distinct) rfl (Path.parent_eq_outer _)
  | _ => exact (List.append_nil es).symm ▸ ⟨holds.blocks, holds.standing⟩

theorem Step.holds_run {q : Builder} {es : List Placement} (holds : q.Holds es) {steps : List Step}
    (apart : Step.ApartAll q steps) (inPlace : Step.InPlaceAll steps) :
    (Step.run q steps).Holds (Step.placedAll q.base es q steps) := by
  cases steps with
  | nil => exact holds
  | cons s steps =>
    have next := Step.holds_run (Step.holds_apply holds apart.1 inPlace.1) apart.2 inPlace.2
    rw [Builder.base_apply] at next
    exact next

theorem Plan.holds_build {q : Builder} {es : List Placement} (holds : q.Holds es) {p : Plan} (apart : p.Apart q)
    (inPlace : p.InPlace) : (p.build q).Holds (p.placed q.base es q) := by
  cases p with
  | plan start steps =>
    cases start with
    | none => exact Step.holds_run holds apart inPlace
    | some r => exact Step.holds_run (.held r) apart inPlace

end

/-! ## Where blocks are written -/

namespace Placement

end Placement

namespace Plan

/-- A plan of nested blocks, one of them with a new name, one a query of its own with a block inside, and one
    put where the builder of another block stands. -/
def library : Plan :=
  .plan none [.edgeOf "book" [.edge "author", .edgeOf "series" [.name "saga", .edge "publisher"]],
    .graft "reader" (.plan (some anything) [.edgeWith "loan" [.paginate { first := 3 }]]),
    .edgeBy "shelf" (.plan (some (anything.nestedAt "room")) [.edge "door"]), .edge "book->loan"]

/-- Two nested blocks on one path, each with a block of its own inside. -/
def twice : Plan := .plan none [.edgeOf "a" [.edge "b"], .edgeOf "a" [.edge "c"]]

end Plan

end GraphQuery
