import GraphQuery.Proofs.Nesting
import GraphQuery.Proofs.Scan

/-!
# Arguments of compiled blocks

The arguments of a compiled fragment are the values bound in what it was compiled from,
none dropped, doubled or moved. Main statement: for a block in a registry without cycles
they are listed by one walk over the block and the blocks nested in it, depth first.
-/

namespace GraphQuery

namespace Scan

/-- The scan that finds the values in slots and nothing in texts. -/
def bound : Scan Value := ⟨fun _ => [], fun v => [v], fun _ _ => rfl⟩

theorem run_bound (f : Fragment) : bound.run f = f.args := by
  obtain ⟨slots, tail⟩ := f
  simp [run, bound, Fragment.args, List.map_eq_flatMap]

theorem silent_bound : bound.Silent := fun _ _ => rfl

theorem flatMap_bound (vs : List Value) : vs.flatMap bound.slot = vs := List.flatMap_singleton' vs

mutual

theorem inTree_bound (t : BlockTree) : bound.inTree t = t.values := by
  cases t with
  | endless key => rfl
  | block b nested =>
    rw [inTree, flatMap_bound, flatMap_bound, inTrees_bound nested, BlockTree.values]
    simp [bound]

theorem inTrees_bound (ts : List BlockTree) : bound.inTrees ts = BlockTree.valuesAll ts := by
  cases ts with
  | nil => rfl
  | cons t ts => rw [inTrees, inTree_bound t, inTrees_bound ts, BlockTree.valuesAll]

end

theorem missesBlock_bound (b : Block) : bound.MissesBlock b := ⟨fun _ _ _ _ => rfl, fun _ _ => rfl⟩

end Scan

/-- The arguments of an expression are the values bound in it. -/
theorem Expr.args_compile {e : Expr} {f : Fragment} (h : e.compile = .ok f) : f.args = e.values := by
  rw [← Scan.run_bound, Scan.run_compile Scan.silent_bound h fun _ _ => rfl, Scan.flatMap_bound]

theorem BlockTree.args_compile {t : BlockTree} {f : Fragment} (h : t.compile = .ok f) : f.args = t.values := by
  rw [← Scan.run_bound, Scan.run_compileTree Scan.silent_bound h (every_of_forall Scan.missesBlock_bound t),
    Scan.inTree_bound]

namespace Block

/-- The values that are bound in a block and in the blocks nested in it. -/
def valuesIn (b : Block) (r : Registry) : List Value := (b.tree r).values

theorem valuesIn_eq {r : Registry} (acyclic : r.Acyclic) (b : Block) :
    b.valuesIn r = b.headValues ++ b.body.selection.values ++ (r.blocks b.body.key).flatMap (·.valuesIn r) := by
  rw [valuesIn, tree_eq acyclic, BlockTree.values, BlockTree.valuesAll_eq_flatMap, List.flatMap_map]
  rfl

/-- The arguments of a block are its values in the order in which they are written: those before its
    body, those of its selection, and those of each block nested in it. -/
theorem args_eq_valuesIn {r : Registry} (acyclic : r.Acyclic) {b : Block} {f : Fragment}
    (h : b.compile r = .ok f) :
    f.args = b.valuesIn r ∧ ∀ c : Block, c.valuesIn r =
      c.headValues ++ c.body.selection.values ++ (r.blocks c.body.key).flatMap (·.valuesIn r) := by
  constructor
  · rw [compile_eq_compile_tree] at h
    exact BlockTree.args_compile h
  · exact valuesIn_eq acyclic

/-- A block over films with their actors, the films of those, and their genres. -/
def films : Block :=
  { root "films" (.apply .uid (.value (.list [.string "0x1", .raw "u", .string "0x2"]))) with
    filters := [.any [.all [], .compare .eq (KeyMap.ofList [("year", .int 1982), ("name", .string "n")])]]
    cursor := { first := 5, after := "0x3" }
    orders := [⟨.descending, .expr (.apply .val (.value (.string "score")))⟩]
    facets := [.key "since", .filter (.compare .gt (KeyMap.ofList [("close", .bool true)]))]
    body := { selection := { items := [.predicate "uid", .computed (.apply .count (.value (.uint 7)))] }
              key := "films" } }

/-- The blocks nested in `films`. -/
def filmBlocks : Registry :=
  KeyMap.ofList [
    ("films", [{ nested "films->actor" with cursor := { offset := 3 } }, nested "films->genre"]),
    ("films->actor", [{ nested "films->actor->film" with filters := [.fuzzy (KeyMap.ofList [("t", .string "x")]) 8] }])]

theorem args_eq_valuesIn_films :
    filmBlocks.Acyclic ∧ ∃ f, films.compile filmBlocks = .ok f ∧ f.args = films.valuesIn filmBlocks ∧
      f.args.map Value.format = ["0x1", "0x2", "5", "0x3", "score", "true", "n", "1982", "7", "3", "x"] := by
  have acyclic : filmBlocks.Acyclic := Registry.acyclic_of_longer (by decide +kernel)
  refine ⟨acyclic, ?_⟩
  cases compiled : films.compile filmBlocks with
  | error e =>
    have succeeds : (films.compile filmBlocks).isOk = true := by decide +kernel
    rw [compiled] at succeeds
    cases succeeds
  | ok f =>
    obtain ⟨same, _⟩ := args_eq_valuesIn acyclic compiled
    refine ⟨f, rfl, same, ?_⟩
    rw [same]
    decide +kernel

end Block

end GraphQuery
