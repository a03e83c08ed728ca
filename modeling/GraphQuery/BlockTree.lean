import GraphQuery.Block

/-!
# Nested blocks

Nested blocks are held in a registry, under the key of the block around them. A block is
compiled from the outside in, and the blocks nested in it are looked up when they are
reached. The tree of a block holds all of them at once. A registry in which a block is
nested in itself has no finite tree; such a branch ends in a mark that cannot be
compiled. Main statement: compiling a block with a registry is compiling its tree.
-/

namespace GraphQuery

/-! ## The registry -/

/-- Blocks under the keys of the blocks that they are nested in, in the order they were added. -/
abbrev Registry := KeyMap (List Block)

namespace Registry

/-- The blocks under a key. -/
def blocks (r : Registry) (key : String) : List Block := (r.get? key).getD []

/-- A registry with more blocks under a key. -/
def extend (r : Registry) (key : String) (bs : List Block) : Registry :=
  r.alter key fun old => old.getD [] ++ bs

/-- A registry with one more block, under the path of the block around it. -/
def add (r : Registry) (b : Block) : Registry := r.extend (Path.parent b.path) [b]

/-- A registry with the blocks of another after its own, key by key. -/
def merge (r s : Registry) : Registry := r.mergeWith (· ++ ·) s

theorem blocks_extend (r : Registry) (key key' : String) (bs : List Block) :
    (r.extend key bs).blocks key' = if key' = key then r.blocks key ++ bs else r.blocks key' := by
  unfold blocks extend
  rw [KeyMap.get?_alter]
  split <;> rfl

end Registry

/-! ## Fragments -/

/-- What a block asks for, followed by the blocks nested in it. -/
def bodyFragment (selection : Fragment) (nested : List Fragment) : Fragment :=
  .join " " [selection, .join " " nested]

/-- The fragment of a body around the blocks under its key, which are looked at after its own
    selection. -/
def Body.compileWith (b : Body) (nested : String → Compiled (List Fragment)) : Compiled Fragment := do
  let selection ← b.selection.compile
  let fs ← nested b.key
  return bodyFragment selection fs

/-- The fragment of a block around the blocks nested in it, which are looked at last. -/
def Block.compileWith (b : Block) (nested : String → Compiled (List Fragment)) : Compiled Fragment := do
  let head ← b.head
  let body ← b.body.compileWith nested
  return head ++ .text " \x7b " ++ body ++ .text " \x7d"

/-- The fragments of the blocks under a key, down to a depth and up to the first block that
    cannot be compiled. No block after that one is visited, so a failure is found as soon as it
    is reached, however many blocks the whole tree has. -/
def Registry.compileTo (r : Registry) : (depth : Nat) → (key : String) → Compiled (List Fragment)
  | 0, key => if (r.blocks key).isEmpty then .ok [] else .error (.endlessNesting key)
  | depth + 1, key => (r.blocks key).mapM (Block.compileWith · (r.compileTo depth))

/-- The fragments of the blocks under a key. -/
def Registry.compile (r : Registry) (key : String) : Compiled (List Fragment) :=
  r.compileTo (r.keys.length + 1) key

def Body.compile (b : Body) (r : Registry) : Compiled Fragment := b.compileWith r.compile

/-- Whether a body selects anything besides nested blocks. -/
def Body.hasSelection (b : Body) : Compiled Bool := b.selection.compile.map (!·.isEmpty)

/-- The fragment of a block with the blocks nested in it. -/
def Block.compile (b : Block) (r : Registry) : Compiled Fragment := b.compileWith r.compile

/-! ## Trees -/

/-- A block with the blocks nested in it, or the place where nesting does not end. -/
inductive BlockTree where
  | block (b : Block) (nested : List BlockTree)
  | endless (key : String)

instance : Inhabited BlockTree := ⟨.endless ""⟩

/-- The trees of the blocks under a key, down to a depth. -/
def Registry.treesTo (r : Registry) : (depth : Nat) → (key : String) → List BlockTree
  | 0, key => if (r.blocks key).isEmpty then [] else [.endless key]
  | depth + 1, key => (r.blocks key).map fun b => .block b (r.treesTo depth b.body.key)

/-- The trees of the blocks under a key. Without a block nested in itself no branch is deeper than
    there are keys. -/
def Registry.trees (r : Registry) (key : String) : List BlockTree := r.treesTo (r.keys.length + 1) key

def Block.tree (b : Block) (r : Registry) : BlockTree := .block b (r.trees b.body.key)

namespace BlockTree

mutual

/-- The fragment of a block and of the blocks nested in it. -/
def compile : BlockTree → Compiled Fragment
  | .endless key => .error (.endlessNesting key)
  | .block b nested => b.compileWith fun _ => compileAll nested

/-- The fragments of trees, up to the first that cannot be compiled. -/
def compileAll : List BlockTree → Compiled (List Fragment)
  | [] => .ok []
  | t :: ts => do
    let f ← compile t
    let fs ← compileAll ts
    return f :: fs

end

theorem compileAll_eq_mapM (ts : List BlockTree) : compileAll ts = ts.mapM compile := by
  induction ts with
  | nil => rfl
  | cons t ts ih => rw [List.mapM_cons, compileAll, ih]

end BlockTree

/-! ## Fragments of trees -/

theorem Block.compileWith_congr {b : Block} {f g : String → Compiled (List Fragment)}
    (h : f b.body.key = g b.body.key) : b.compileWith f = b.compileWith g := by
  simp only [Block.compileWith, Body.compileWith, h]

/-- Visiting the registry block by block gives the fragments of its trees. -/
theorem Registry.compileTo_eq_compileAll (r : Registry) (depth : Nat) (key : String) :
    r.compileTo depth key = BlockTree.compileAll (r.treesTo depth key) := by
  induction depth generalizing key with
  | zero =>
    simp only [compileTo, treesTo]
    split <;> rfl
  | succ depth ih =>
    rw [compileTo, treesTo, BlockTree.compileAll_eq_mapM, List.mapM_map]
    congr 1
    funext b
    rw [Function.comp_apply, BlockTree.compile]
    exact Block.compileWith_congr (ih b.body.key)

theorem Block.compile_eq_compile_tree (b : Block) (r : Registry) : b.compile r = (b.tree r).compile := by
  rw [compile, tree, BlockTree.compile]
  exact compileWith_congr (r.compileTo_eq_compileAll _ _)

end GraphQuery
