import GraphQuery.Proofs.Nesting
import GraphQuery.Proofs.Outline
import GraphQuery.Proofs.Registered
import Mathlib.Algebra.Order.BigOperators.Group.List
import Mathlib.Algebra.Order.Group.Nat

/-!
# Keys of nested blocks

Which keys the methods of a builder can give to nested blocks when no path is empty and no
new name has an arrow. Main statement: the key of a block is longer than the key that it is
registered under, so no block is nested in itself, and following the keys comes to an end.
-/

namespace GraphQuery

/-! ## Trees that end -/

namespace BlockTree

mutual

/-- No branch of a tree is cut off because its nesting does not end. -/
def Ends : BlockTree → Prop
  | .endless _ => False
  | .block _ nested => EndsAll nested

def EndsAll : List BlockTree → Prop
  | [] => True
  | t :: ts => t.Ends ∧ EndsAll ts

end

theorem endsAll_iff {ts : List BlockTree} : EndsAll ts ↔ ∀ t ∈ ts, t.Ends := by
  induction ts with
  | nil => simp [EndsAll]
  | cons t ts ih => simp [EndsAll, ih]

end BlockTree

/-! ## Entries and blocks -/

namespace Registry

theorem mem_blocks_iff {r : Registry} {key : String} {b : Block} :
    b ∈ r.blocks key ↔ ∃ bs, (key, bs) ∈ r.entries ∧ b ∈ bs := by
  constructor
  · exact exists_entry_of_mem_blocks
  · rintro ⟨bs, entry, inside⟩
    have found : r.get? key = some bs := KeyMap.lookup_of_mem (KeyMap.nodup_keys r) entry
    rw [blocks, found]
    exact inside

theorem mem_of_mem_blocks_ofList {es : List (String × List Block)} {key : String} {b : Block}
    (member : b ∈ blocks (KeyMap.ofList es) key) : ∃ bs, (key, bs) ∈ es ∧ b ∈ bs := by
  unfold blocks at member
  rw [KeyMap.get?_ofList] at member
  cases found : es.reverse.lookup key with
  | none =>
    rw [found] at member
    cases member
  | some bs =>
    rw [found] at member
    obtain ⟨before, after, split, _⟩ := List.lookup_eq_some_iff.1 found
    exact ⟨bs, List.mem_reverse.1 (by rw [split]; simp), member⟩

/-- Following keys that get longer comes to an end. -/
theorem wellFounded_nests {r : Registry} (longer : ∀ e ∈ r.entries, ∀ b ∈ e.2, e.1.length < b.body.key.length) :
    WellFounded fun inner outer => r.Nests outer inner := by
  -- No key with blocks under it is longer than all keys together.
  let limit := (r.keys.map String.length).sum
  refine Subrelation.wf (r := fun inner outer => limit + 1 - inner.length < limit + 1 - outer.length) ?_
    (measure fun key : String => limit + 1 - key.length).wf
  rintro inner outer ⟨b, member, rfl⟩
  obtain ⟨bs, entry, inside⟩ := mem_blocks_iff.1 member
  have grows := longer _ entry b inside
  have bounded : outer.length ≤ limit := List.le_sum_of_mem (List.mem_map_of_mem (List.mem_map_of_mem entry))
  dsimp only at grows
  omega

theorem endsAll_trees {r : Registry} (longer : ∀ e ∈ r.entries, ∀ b ∈ e.2, e.1.length < b.body.key.length)
    (key : String) : BlockTree.EndsAll (r.trees key) := by
  induction key using (wellFounded_nests longer).induction with
  | _ key ih =>
    rw [trees_eq_map (acyclic_of_longer longer), BlockTree.endsAll_iff]
    intro t member
    obtain ⟨b, inside, rfl⟩ := List.mem_map.1 member
    exact ih b.body.key ⟨b, inside, rfl⟩

/-- Without a block nested in itself, the blocks under a key are compiled each with the blocks under its own key. -/
theorem compile_eq_mapM {r : Registry} (acyclic : r.Acyclic) (key : String) :
    r.compile key = (r.blocks key).mapM (Block.compile · r) := by
  have trees : r.compile key = BlockTree.compileAll (r.trees key) := r.compileTo_eq_compileAll _ key
  rw [trees, trees_eq_map acyclic, BlockTree.compileAll_eq_mapM, List.mapM_map]
  congr 1
  funext b
  exact (b.compile_eq_compile_tree r).symm

end Registry

namespace Builder

/-! ## Builders made by methods -/

/-- What methods make of builders: `Made p q` holds when methods have made `q` of `p`, and `p` is a
    new query or the builder that a function of a nested block is given. No path is empty, no new name
    has an arrow, functions of nested blocks give back what methods have made of their own
    builder, and grafted queries were made by methods too, copies of builders at hand among them. -/
inductive Made : Builder → Builder → Prop where
  | query (e : Expr) : Made (.query e) (.query e)
  | queryType (name : String) : Made (.queryType name) (.queryType name)
  | varBlock (e : Expr) : Made (.varBlock e) (.varBlock e)
  | nestedAt {p q : Builder} {path : String} (made : Made p q) (filled : path ≠ "") :
    Made (q.nestedAt path) (q.nestedAt path)
  | name {p q : Builder} {n : String} (made : Made p q) (single : Path.Single n) : Made p (q.name n)
  | as {p q : Builder} (made : Made p q) (var : String) : Made p (q.as var)
  | fields {p q : Builder} (made : Made p q) (blob : String) : Made p (q.fields blob)
  | select {p q : Builder} (made : Made p q) (s : Selection) : Made p (q.select s)
  | filter {p q : Builder} (made : Made p q) (e : Expr) : Made p (q.filter e)
  | paginate {p q : Builder} (made : Made p q) (c : Cursor) : Made p (q.paginate c)
  | first {p q : Builder} (made : Made p q) (n : Int) : Made p (q.first n)
  | offset {p q : Builder} (made : Made p q) (n : Nat) : Made p (q.offset n)
  | after {p q : Builder} (made : Made p q) (uid : String) : Made p (q.after uid)
  | order {p q : Builder} (made : Made p q) (o : OrderBy) : Made p (q.order o)
  | groupBy {p q : Builder} (made : Made p q) (predicate : String) : Made p (q.groupBy predicate)
  | facet {p q : Builder} (made : Made p q) (f : Facet) : Made p (q.facet f)
  | cascade {p q : Builder} (made : Made p q) (fields : List String) : Made p (q.cascade fields)
  | attach {p q : Builder} (made : Made p q) (r : Builder) : Made p (q.attach r)
  | edge {p q : Builder} {path : String} (made : Made p q) (filled : path ≠ "") : Made p (q.edge path)
  | edgeWith {p q : Builder} {path : String} (made : Made p q) (filled : path ≠ "") (parts : List Part) :
    Made p (q.edgeWith path parts)
  | edgeOf {p q : Builder} {path : String} {configure : Builder → Builder} (made : Made p q) (filled : path ≠ "")
    (own : Made (q.nestedAt path) (configure (q.nestedAt path))) : Made p (q.edgeOf path configure)
  | graft {p q o r : Builder} {path : String} (made : Made p q) (filled : path ≠ "") (other : Made o r) :
    Made p (q.graft path r)

/-! ## Registered blocks -/

/-- A block below a path that is registered under a shorter key inside that path. -/
structure Deepens (base key : String) (b : Block) : Prop where
  within : Path.Within base key
  below : Path.Below base b.body.key
  longer : key.length < b.body.key.length

/-- All nested blocks are registered under keys shorter than their own. -/
def Grows (base : String) (r : Registry) : Prop := ∀ key, ∀ b ∈ r.blocks key, Deepens base key b

theorem Deepens.of_join {base path key : String} {b : Block} (deepens : Deepens (Path.join base path) key b)
    (filled : path ≠ "") : Deepens base key b :=
  ⟨deepens.within.of_join filled, deepens.below.of_join filled, deepens.longer⟩

theorem Grows.empty (base : String) : Grows base ∅ := by
  intro key b member
  cases member

theorem Grows.add {base : String} {r : Registry} {b : Block} (grows : Grows base r)
    (deepens : Deepens base (Path.parent b.path) b) : Grows base (r.add b) := by
  intro key c member
  rw [Registry.blocks_add] at member
  rcases List.mem_append.1 member with inside | last
  · exact grows key c inside
  · have same := List.mem_singleton.1 (Registration.mem_under_iff.1 last)
    cases same
    exact deepens

theorem Grows.merge {base : String} {r s : Registry} (grows : Grows base r) (others : Grows base s) :
    Grows base (r.merge s) := by
  intro key b member
  rw [Registry.blocks_merge] at member
  rcases List.mem_append.1 member with inside | inside
  · exact grows key b inside
  · exact others key b inside

theorem Grows.takeOver {q r : Builder} (grows : Grows q.base q.children)
    (own : Deepens q.base (Path.parent r.root.path) r.root) (inner : Grows q.base r.children) :
    Grows q.base (q.merge r).children :=
  (grows.add own).merge inner

/-- The blocks of a query that is grafted inside a block are put below that block. -/
theorem Grows.grafted {base path : String} {r : Builder} (grows : Grows r.base r.children) (filled : path ≠ "") :
    Grows base (r.grafted (Path.join base path)).children := by
  have full : Path.join base path ≠ "" := fun empty => filled (Path.join_eq_empty_iff.1 empty).2
  intro key c member
  obtain ⟨cs, entry, inside⟩ := Registry.mem_of_mem_blocks_ofList member
  obtain ⟨⟨k, bs⟩, own, moved⟩ := List.mem_map.1 entry
  cases moved
  obtain ⟨b, held, rfl⟩ := List.mem_map.1 inside
  obtain ⟨within, below, longer⟩ := grows k b (Registry.mem_blocks_iff.2 ⟨bs, own, held⟩)
  refine ⟨?_, ?_, ?_⟩
  · rw [rebase, Path.join_assoc]
    exact Path.within_join base _
  · show Path.Below base (rebase (Path.join base path) r.base b.body.key)
    rw [rebase, Path.join_assoc]
    exact Path.below_join base fun empty => filled (Path.join_eq_empty_iff.1 empty).1
  · exact Path.length_join_lt full (Path.length_relativeTo_lt within below longer)

theorem Deepens.nested {base path : String} {b : Block} (filled : path ≠ "") (key : b.body.key = Path.join base path)
    (around : Path.parent b.path = Path.parent (Path.join base path)) : Deepens base (Path.parent b.path) b := by
  have full : Path.join base path ≠ "" := fun empty => filled (Path.join_eq_empty_iff.1 empty).2
  refine ⟨?_, ?_, ?_⟩
  · rw [around]
    exact Path.within_parent_join base filled
  · rw [key]
    exact Path.below_join base filled
  · rw [around, key]
    exact Path.length_parent_lt full

theorem parent_name (q : Builder) {n : String} (single : Path.Single n) :
    Path.parent (q.name n).root.path = Path.parent q.base := by
  show Path.parent (if (Path.parent q.base).isEmpty then n else Path.parent q.base ++ "->" ++ n) = Path.parent q.base
  by_cases top : Path.parent q.base = ""
  · simpa [top] using Path.parent_of_free single.free
  · simpa [top] using Path.parent_append_arrow _ single.free

/-- What methods make of a builder stands where that one stands, and its nested blocks have growing keys. -/
theorem Made.invariant {p q : Builder} (made : Made p q) :
    q.base = p.base ∧ (q.base ≠ "" → Path.parent q.root.path = Path.parent q.base) ∧ Grows q.base q.children := by
  -- A block may get a new name before it is registered, so only the path around it is known.
  induction made with
  | query | queryType | varBlock => exact ⟨rfl, fun deep => absurd rfl deep, .empty _⟩
  | nestedAt => exact ⟨rfl, fun _ => rfl, .empty _⟩
  | name _ single ih => exact ⟨ih.1, fun _ => parent_name _ single, ih.2.2⟩
  | edge _ filled ih => exact ⟨ih.1, ih.2.1, ih.2.2.add (.nested filled rfl rfl)⟩
  | edgeWith _ filled parts ih =>
    obtain ⟨path, key⟩ := Part.placed_foldl (.nested _) parts
    exact ⟨ih.1, ih.2.1, ih.2.2.add (.nested filled key (congrArg Path.parent path))⟩
  | @edgeOf p q path configure _ filled _ ih own =>
    obtain ⟨placed, named, inner⟩ := own
    have full : (configure (q.nestedAt path)).base ≠ "" := by
      rw [placed]
      exact fun empty => filled (Path.join_eq_empty_iff.1 empty).2
    have around : Path.parent (configure (q.nestedAt path)).root.path = Path.parent (Path.join q.base path) := by
      rw [named full, placed]
      rfl
    have inside : Grows q.base (configure (q.nestedAt path)).children := by
      intro key b member
      have deepens := inner key b member
      rw [placed] at deepens
      exact deepens.of_join filled
    exact ⟨ih.1, ih.2.1, ih.2.2.takeOver (.nested filled placed around) inside⟩
  | @graft p q o r path _ filled _ ih other =>
    have own : Deepens q.base (Path.parent (r.grafted (Path.join q.base path)).root.path)
        (r.grafted (Path.join q.base path)).root := .nested filled rfl rfl
    exact ⟨ih.1, ih.2.1, ih.2.2.takeOver own (other.2.2.grafted filled)⟩
  | _ => assumption

/-- A nested block has a longer key than the one that it is registered under. So compiling block by
    block, each with the blocks under its key, comes to an end, and no branch is cut off. -/
theorem Made.key_grows {p q : Builder} (made : Made p q) :
    (∀ e ∈ q.children.entries, ∀ b ∈ e.2, e.1.length < b.body.key.length) ∧
    (WellFounded fun inner outer => q.children.Nests outer inner) ∧
    (∀ key, q.children.compile key = (q.children.blocks key).mapM (Block.compile · q.children)) ∧
    ∀ key, BlockTree.EndsAll (q.children.trees key) := by
  obtain ⟨_, _, grows⟩ := made.invariant
  have longer : ∀ e ∈ q.children.entries, ∀ b ∈ e.2, e.1.length < b.body.key.length := by
    intro e entry b inside
    exact (grows e.1 b (Registry.mem_blocks_iff.2 ⟨e.2, entry, inside⟩)).longer
  exact ⟨longer, Registry.wellFounded_nests longer, Registry.compile_eq_mapM (Registry.acyclic_of_longer longer),
    Registry.endsAll_trees longer⟩

/-- A nested block that gets a new name and takes over a copy of its own builder. -/
def mirrored : Builder :=
  (queryType "Film").edgeOf "a" fun b => ((b.edge "->c").name "x").graft "d->e" (b.edge "->c")

theorem key_grows_mirrored :
    (∃ p, Made p mirrored) ∧
    mirrored.children.entries.map (fun e => (e.1, e.2.map (·.body.key))) =
      [("", ["a"]), ("a->", ["a->->c"]), ("a->d", ["a->d->e"]), ("a->d->e", ["a->d->e->->c"])] ∧
    (∀ e ∈ mirrored.children.entries, ∀ b ∈ e.2, e.1.length < b.body.key.length) ∧
    WellFounded fun inner outer => mirrored.children.Nests outer inner := by
  have film : Made (queryType "Film") (queryType "Film") := .queryType "Film"
  have block : Made ((queryType "Film").nestedAt "a") (((queryType "Film").nestedAt "a").edge "->c") :=
    .edge (.nestedAt film (by decide)) (by decide)
  have made : Made (queryType "Film") mirrored :=
    .edgeOf film (by decide) (.graft (.name block (by unfold Path.Single; decide)) (by decide) block)
  obtain ⟨longer, ends, _⟩ := made.key_grows
  exact ⟨⟨_, made⟩, by decide +kernel, longer, ends⟩

end Builder

end GraphQuery
