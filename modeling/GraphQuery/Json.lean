import GraphQuery.Binary64.Notation
import GraphQuery.Json.Quoted

/-!
# JSON values

JSON values with exact integers, and their compact text. The members of an object are
written in the order they are held in.
-/

namespace GraphQuery

namespace Json

/-! ## Numbers -/

/-- A number without a fraction or an exponent stays exact, any other is rounded. -/
inductive Number where
  | integer (i : Int)
  | float (x : Binary64)
  deriving DecidableEq

/-- Digits in positional notation while the decimal point stays near them, and in scientific
    notation with a signed exponent otherwise. -/
def layout (digits : List Char) (exponent : Int) : List Char :=
  let point : Int := digits.length + exponent
  if 0 ≤ exponent ∧ point ≤ 16 then positional digits exponent ++ ['.', '0']
  else if -5 < point ∧ point ≤ 16 then positional digits exponent
  else
    let power := 'e' :: (if 0 < point then ['+'] else ['-']) ++ Nat.toDigits 10 (point - 1).natAbs
    match digits with
    | d :: e :: ds => d :: '.' :: e :: ds ++ power
    | ds => ds ++ power

/-- The text of a finite number, which always has a point or an exponent. Equally near decimals
    are resolved to the even one. -/
def floatText : Binary64 → String
  | .finite s m q _ =>
    if m = 0 then String.ofList (Binary64.signText s ++ ['0', '.', '0'])
    else
      let (digits, exponent) := (Decimal.shortest .even m q).parts
      String.ofList (Binary64.signText s ++ layout digits exponent)
  | _ => "null"

def Number.text : Number → String
  | .integer i => toString i
  | .float x => floatText x

end Json

/-! ## Values -/

/-- A JSON value. -/
inductive Json where
  | null
  | bool (b : Bool)
  | number (n : Json.Number)
  | string (s : String)
  | array (items : List Json)
  | object (members : List (String × Json))

namespace Json

instance : Inhabited Json := ⟨.null⟩

mutual

/-- The compact text of a value. -/
def text : Json → String
  | .null => "null"
  | .bool b => if b then "true" else "false"
  | .number n => n.text
  | .string s => quoted s
  | .array items => "[" ++ String.intercalate "," (itemTexts items) ++ "]"
  | .object members => "\x7b" ++ String.intercalate "," (memberTexts members) ++ "\x7d"

def itemTexts : List Json → List String
  | [] => []
  | v :: vs => text v :: itemTexts vs

def memberTexts : List (String × Json) → List String
  | [] => []
  | (k, v) :: ms => (quoted k ++ ":" ++ text v) :: memberTexts ms

end

def ofInt (i : Int) : Json := .number (.integer i)

/-- A text, or null where there is none. -/
def ofText? : Option String → Json
  | some s => .string s
  | none => .null

end Json

end GraphQuery
