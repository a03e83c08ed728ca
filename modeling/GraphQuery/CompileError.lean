import GraphQuery.Binary64.Notation

/-!
# Compile errors

Why a query, a condition or a mutation cannot be compiled. A cause belongs to one of
three kinds and has one message.
-/

namespace GraphQuery

/-- Why the data of a mutation has no JSON text. -/
inductive PayloadError where
  /-- A key is not a text. -/
  | keyNotText
  /-- The data refuses to be written and says why. -/
  | refused (reason : String)
  deriving DecidableEq, Repr

def PayloadError.message : PayloadError → String
  | .keyNotText => "key must be a string"
  | .refused reason => reason

/-- Why something cannot be compiled. -/
inductive CompileError where
  /-- A predicate with nothing left to write, as the operand of a function or an order. -/
  | emptyPredicate (context : String)
  /-- A number without a literal. -/
  | notFinite (x : Binary64)
  /-- A block whose name has nothing left to write. -/
  | emptyBlockName (block : String)
  /-- A block at the top of a query without a function to start from. -/
  | noRootFunction (block : String)
  /-- A list inside a list. -/
  | nestedList
  /-- An expression without a truth value where a filter stands. -/
  | notAFilter (clause found : String)
  /-- An expression that blocks cannot be ordered by. -/
  | notAnOrderKey (keyword found : String)
  /-- Data that has no JSON text. -/
  | payload (cause : PayloadError)
  /-- Blocks that contain themselves. -/
  | endlessNesting (block : String)

namespace CompileError

inductive Kind where
  | malformedOperand
  | typeMismatch
  | payload
  deriving DecidableEq, Repr

def kind : CompileError → Kind
  | .emptyPredicate _ => .malformedOperand
  | .notFinite _ => .malformedOperand
  | .emptyBlockName _ => .malformedOperand
  | .noRootFunction _ => .malformedOperand
  | .endlessNesting _ => .malformedOperand
  | .nestedList => .typeMismatch
  | .notAFilter .. => .typeMismatch
  | .notAnOrderKey .. => .typeMismatch
  | .payload _ => .payload

/-- The wording of a malformed operand. -/
def malformed (context reason : String) : String := "malformed operand in " ++ context ++ ": " ++ reason

def mismatch (context expected found : String) : String :=
  "type mismatch in " ++ context ++ ": expected " ++ expected ++ ", got " ++ found

def message : CompileError → String
  | .emptyPredicate context => malformed context "empty predicate"
  | .notFinite x => malformed "float operand" (x.format ++ " is not finite")
  | .emptyBlockName block => malformed block "empty block name"
  | .noRootFunction block => malformed block "root block without a root function"
  | .endlessNesting block => malformed block "block nested in itself"
  | .nestedList => mismatch "list operand" "a scalar element" "list"
  | .notAFilter clause found => mismatch clause "a filter expression" found
  | .notAnOrderKey keyword found => mismatch keyword "a predicate or val(..)" found
  | .payload cause => "failed to serialize mutation payload: " ++ cause.message

end CompileError

/-- The result of compiling something. -/
abbrev Compiled (α : Type) := Except CompileError α

end GraphQuery
