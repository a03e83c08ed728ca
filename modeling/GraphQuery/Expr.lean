import GraphQuery.CompileError
import GraphQuery.Fragment
import GraphQuery.KeyMap
import GraphQuery.Predicate

/-!
# Expressions

Filters and functions of the query language, and the fragments they compile to. A
function of several fields is the conjunction of one call for each field in the order
of the field names. Connectors of nothing are empty and leave no trace.
-/

namespace GraphQuery

/-! ## Syntax -/

/-- The functions that compare fields with values. -/
inductive Comparison where
  | eq | le | lt | ge | gt
  | allofterms | anyofterms | regexp | alloftext | anyoftext
  | exact | term | fulltext | uidIn
  deriving DecidableEq, Repr

def Comparison.name : Comparison → String
  | .eq => "eq"
  | .le => "le"
  | .lt => "lt"
  | .ge => "ge"
  | .gt => "gt"
  | .allofterms => "allofterms"
  | .anyofterms => "anyofterms"
  | .regexp => "regexp"
  | .alloftext => "alloftext"
  | .anyoftext => "anyoftext"
  | .exact => "exact"
  | .term => "term"
  | .fulltext => "fulltext"
  | .uidIn => "uid_in"

/-- The functions of one operand. -/
inductive Unary where
  | uid | val | count | sum | avg | min | max
  deriving DecidableEq, Repr

def Unary.name : Unary → String
  | .uid => "uid"
  | .val => "val"
  | .count => "count"
  | .sum => "sum"
  | .avg => "avg"
  | .min => "min"
  | .max => "max"

mutual

/-- A filter or function expression. -/
inductive Expr where
  | compare (op : Comparison) (fields : KeyMap Value)
  | fuzzy (fields : KeyMap Value) (distance : Nat)
  | has (predicates : KeyMap Unit)
  | ofType (name : String)
  | between (predicate : String) (low high : Value)
  | apply (f : Unary) (operand : Operand)
  | expand (name : String)
  | raw (text : String)
  | all (parts : List Expr)
  | any (parts : List Expr)
  | not (part : Expr)

/-- The operand of a function: a predicate or variable, a value, or an expression. -/
inductive Operand where
  | predicate (name : String)
  | value (v : Value)
  | nested (e : Expr)

end

instance : Inhabited Expr := ⟨.all []⟩

instance : Inhabited Operand := ⟨.predicate ""⟩

namespace Expr

/-- The name of the function or connector of an expression. -/
def name : Expr → String
  | .compare op _ => op.name
  | .fuzzy .. => "match"
  | .has _ => "has"
  | .ofType _ => "type"
  | .between .. => "between"
  | .apply f _ => f.name
  | .expand _ => "expand"
  | .raw _ => "raw"
  | .all _ => "AND"
  | .any _ => "OR"
  | .not _ => "NOT"

/-- Whether the expression has a truth value, judged by its outermost function. -/
def isFilter : Expr → Bool
  | .apply .uid _ => true
  | .apply .. => false
  | .expand _ => false
  | _ => true

/-- Whether the expression is the value of a variable. -/
def isVal : Expr → Bool
  | .apply .val _ => true
  | _ => false

end Expr

/-! ## Operands -/

/-- A value that may be bound: any but the numbers that are not finite. -/
def Value.bindable : Value → Compiled Value
  | .float x => if x.isFinite then .ok (.float x) else .error (.notFinite x)
  | v => .ok v

/-- An item of a list: a slot, or raw text. -/
def Value.compileItem : Value → Compiled Fragment
  | .raw s => .ok (.text s)
  | .nilList => .error .nestedList
  | .list _ => .error .nestedList
  | v => v.bindable.map .slot

/-- A list with its items between brackets; the items may be empty text. -/
def Value.bracketedItems (items : List Fragment) : Fragment :=
  .text "[" ++ .separated "," items ++ .text "]"

/-- The slots of a value: one for a scalar, one for each item of a list, none for raw text. -/
def Value.compile : Value → Compiled Fragment
  | .nilList => .ok (bracketedItems [])
  | .list items => (items.mapM compileItem).map bracketedItems
  | .raw s => .ok (.text s)
  | v => v.bindable.map .slot

/-- The written form of a predicate that a function or an order cannot do without. -/
def requirePredicate (context predicate : String) : Compiled String :=
  let written := Predicate.escape predicate
  if written.isEmpty then .error (.emptyPredicate context) else .ok written

namespace Expr

/-! ## Calls -/

/-- The mark between calls that must all hold. -/
def conjunction : String := " AND "

/-- The mark between expressions of which one must hold. -/
def disjunction : String := " OR "

/-- A call of a function of a field and a value, with more text before the closing bracket. -/
def compileCall (function rest : String) (field : String × Value) : Compiled Fragment := do
  let predicate ← requirePredicate function field.1
  let value ← field.2.compile
  return .text (function ++ "(" ++ predicate ++ ",") ++ value ++ .text (rest ++ ")")

/-- One call for each field. -/
def compileFields (function rest : String) (fields : KeyMap Value) : Compiled Fragment :=
  (fields.entries.mapM (compileCall function rest)).map (.join conjunction)

/-- A call that asks whether a node has a predicate. -/
def compileHasOne (predicate : String) : Compiled Fragment :=
  (requirePredicate "has" predicate).map fun written => .text ("has(" ++ written ++ ")")

/-- One call for each predicate that a node must have. -/
def compileHas (predicates : KeyMap Unit) : Compiled Fragment :=
  (predicates.keys.mapM compileHasOne).map (.join conjunction)

/-- A call with the two ends of an interval. -/
def compileBetween (predicate : String) (low high : Value) : Compiled Fragment := do
  let predicate ← requirePredicate "between" predicate
  let low ← low.compile
  let high ← high.compile
  return .text ("between(" ++ predicate ++ ",") ++ low ++ .text "," ++ high ++ .text ")"

/-- Parts between brackets with a mark between each two; empty parts are left out. -/
def connect (mark : String) (parts : List Fragment) : Fragment := (Fragment.join mark parts).wrap "(" ")"

/-! ## Compiling -/

mutual

def compile : Expr → Compiled Fragment
  | .compare op fields => compileFields op.name "" fields
  | .fuzzy fields distance => compileFields "match" ("," ++ toString distance) fields
  | .has predicates => compileHas predicates
  | .ofType name => .ok (.text ("type(" ++ Predicate.name name ++ ")"))
  | .between predicate low high => compileBetween predicate low high
  | .apply f operand => (compileOperand operand).map (.wrap (f.name ++ "(") ")")
  | .expand name => .ok (.text ("expand(" ++ Predicate.name name ++ ")"))
  | .raw text => .ok (.text text)
  | .all parts => (compileAll parts).map (connect conjunction)
  | .any parts => (compileAll parts).map (connect disjunction)
  | .not part => (compile part).map (.wrap "NOT " "")

def compileOperand : Operand → Compiled Fragment
  | .predicate name => .ok (.text (Predicate.escape name))
  | .value v => v.compile
  | .nested e => compile e

/-- The fragments of expressions, up to the first that cannot be compiled. -/
def compileAll : List Expr → Compiled (List Fragment)
  | [] => .ok []
  | e :: es => do
    let f ← compile e
    let fs ← compileAll es
    return f :: fs

end

/-- The fragment of an expression that stands as a filter in a clause. -/
def compileFilter (clause : String) (e : Expr) : Compiled Fragment :=
  if e.isFilter then e.compile else .error (.notAFilter clause e.name)

/-- The text of an expression with marks for slots, or why it cannot be compiled. -/
def display (e : Expr) : String :=
  match e.compile with
  | .ok f => f.display
  | .error err => "<invalid " ++ e.name ++ ": " ++ err.message ++ ">"

/-! ## Equality -/

mutual

/-- Equality of expressions, with values compared as values. -/
def same : Expr → Expr → Bool
  | .compare op fs, .compare op' gs => op == op' && fs == gs
  | .fuzzy fs d, .fuzzy gs e => fs == gs && d == e
  | .has ps, .has qs => ps == qs
  | .ofType s, .ofType t => s == t
  | .between p v w, .between q v' w' => p == q && v == v' && w == w'
  | .apply f o, .apply g p => f == g && sameOperand o p
  | .expand s, .expand t => s == t
  | .raw s, .raw t => s == t
  | .all es, .all fs => sameAll es fs
  | .any es, .any fs => sameAll es fs
  | .not e, .not f => same e f
  | _, _ => false

def sameOperand : Operand → Operand → Bool
  | .predicate s, .predicate t => s == t
  | .value v, .value w => v == w
  | .nested e, .nested f => same e f
  | _, _ => false

def sameAll : List Expr → List Expr → Bool
  | [], [] => true
  | e :: es, f :: fs => same e f && sameAll es fs
  | _, _ => false

end

instance : BEq Expr := ⟨same⟩

instance : BEq Operand := ⟨sameOperand⟩

theorem compileAll_eq_mapM (es : List Expr) : compileAll es = es.mapM compile := by
  induction es with
  | nil => rfl
  | cons e es ih =>
    rw [List.mapM_cons, compileAll, ih]

end Expr

end GraphQuery
