import GraphQuery.Text.Blank
import GraphQuery.Text.Case
import GraphQuery.Text.Cut

/-!
# Predicates

How names and predicates given by a caller are written into a query. Characters that
have a meaning in the query language are dropped, a name that is no plain identifier
stands between angle brackets, and a predicate is read as one of a few forms: a
variable binding, an alias, a directive after the name, a call of a pseudo function,
or a name alone. Main statement: what is written as a name has none of the dropped
characters but the brackets around it.
-/

namespace GraphQuery.Predicate

open Text

/-! ## Characters -/

/-- The characters that are dropped from every name and predicate. -/
def forbidden : List Char := ['^', '}', '|', '{', '\\', ',', '<', '>', '"']

/-- A text without the forbidden characters. -/
def clean (cs : List Char) : List Char := cs.filter fun c => !forbidden.contains c

theorem not_forbidden_of_mem_clean {c : Char} {cs : List Char} (h : c ∈ clean cs) : c ∉ forbidden := by
  have := (List.mem_filter.1 h).2
  simpa using this

theorem clean_append (as bs : List Char) : clean (as ++ bs) = clean as ++ clean bs := by
  simp [clean]

/-! ## Names -/

/-- A letter or an underscore. -/
def isNameStart (c : Char) : Bool := c.isAlpha || c == '_'

/-- A letter, a digit, an underscore or a dot. -/
def isNamePart (c : Char) : Bool := c.isAlphanum || c == '_' || c == '.'

/-- Whether a name needs no brackets: an identifier, with a tilde before it for the reverse edge. -/
def isBare (cs : List Char) : Bool :=
  let body := match cs with
    | '~' :: cs => cs
    | cs => cs
  match body with
  | [] => false
  | c :: cs => isNameStart c && cs.all isNamePart

/-- A name between angle brackets, unless it is empty or bare. -/
def bracketed (cs : List Char) : List Char :=
  if cs.isEmpty || isBare cs then cs else '<' :: cs ++ ['>']

/-- The written form of a name that has neither an alias nor a directive. -/
def nameChars (cs : List Char) : List Char := bracketed (trim (clean cs))

theorem bracketed_eq_or (cs : List Char) : bracketed cs = cs ∨ bracketed cs = '<' :: cs ++ ['>'] := by
  unfold bracketed
  split
  · exact .inl rfl
  · exact .inr rfl

/-- What is written as a name has no forbidden character but the brackets around it. -/
theorem not_forbidden_or_bracket_of_mem_nameChars {c : Char} {cs : List Char} (h : c ∈ nameChars cs) :
    c ∉ forbidden ∨ c = '<' ∨ c = '>' := by
  have inner {c : Char} (h : c ∈ trim (clean cs)) : c ∉ forbidden :=
    not_forbidden_of_mem_clean (mem_of_mem_trim h)
  unfold nameChars at h
  rcases bracketed_eq_or (trim (clean cs)) with he | he
  · rw [he] at h
    exact .inl (inner h)
  · rw [he] at h
    rcases List.mem_append.1 h with h | h
    · rcases List.mem_cons.1 h with rfl | h
      · exact .inr (.inl rfl)
      · exact .inl (inner h)
    · exact .inr (.inr (List.mem_singleton.1 h))

/-! ## Pseudo functions -/

/-- Functions that are written like predicates. -/
def pseudoFunctions : List (List Char) :=
  ["expand", "val", "count", "len", "uid", "sum", "avg", "min", "max"].map String.toList

/-- Whether a text is a call of a pseudo function. -/
def isPseudoCall (cs : List Char) : Bool :=
  match cut? ['('] cs with
  | some (name, _) => cs.getLast? == some ')' && pseudoFunctions.contains ((trim name).map asciiLower)
  | none => false

/-- The written form of a predicate without alias and binding. A directive with arguments stands
    one space after the name, one without arguments right after it. -/
def bodyChars (cs : List Char) : List Char :=
  if isPseudoCall cs then cs
  else match cut? ['@'] cs with
    | some (name, rest) =>
      let directive := trim rest
      if directive.contains '(' then trimStart (nameChars name ++ ' ' :: '@' :: directive)
      else nameChars name ++ '@' :: directive
    | none => nameChars cs

/-! ## Forms -/

/-- A variable and the predicate bound to it: `variable as predicate`, the word in any letter case. -/
def binding? (cs : List Char) : Option (List Char × List Char) :=
  match cutFolded? asciiLower [' ', 'a', 's', ' '] cs with
  | some (var, rest) =>
    if (trim var).isEmpty || (trim rest).isEmpty || var.contains '(' then none
    else some (trim var, trim rest)
  | none => none

/-- An alias and its predicate: `alias : predicate`. A colon after a directive or inside a call is
    part of the predicate. -/
def alias? (cs : List Char) : Option (List Char × List Char) :=
  match cut? [':'] cs with
  | some (name, rest) =>
    if name.contains '@' || name.contains '(' || (trim name).isEmpty || (trim rest).isEmpty then none
    else some (trim name, trim rest)
  | none => none

/-- The forms of a predicate. -/
inductive Form where
  | bound (var body : List Char)
  | aliased (name body : List Char)
  | plain (body : List Char)

/-- The form of a clean text without blanks at its ends. A binding comes before an alias. -/
def Form.ofChars (cs : List Char) : Form :=
  match binding? cs, alias? cs with
  | some (var, body), _ => .bound var body
  | none, some (name, body) => .aliased name body
  | none, none => .plain cs

def Form.chars : Form → List Char
  | .bound var body => nameChars var ++ [' ', 'a', 's', ' '] ++ bodyChars body
  | .aliased name body => nameChars name ++ [' ', ':', ' '] ++ bodyChars body
  | .plain body => bodyChars body

/-- The written form of a predicate; a predicate of forbidden characters and blanks disappears. -/
def predicateChars (cs : List Char) : List Char :=
  let cleaned := trim (clean cs)
  if cleaned.isEmpty then [] else (Form.ofChars cleaned).chars

/-! ## Strings -/

/-- A text without the forbidden characters. -/
def strip (s : String) : String := String.ofList (clean s.toList)

def name (s : String) : String := String.ofList (nameChars s.toList)

/-- The written form of a predicate. -/
def escape (s : String) : String := String.ofList (predicateChars s.toList)

/-! ## Lists of predicates -/

/-- Whether a line is one predicate even if it has blanks inside. -/
def isCompound (line : List Char) : Bool :=
  line.contains '(' || line.contains ':' || (binding? line).isSome

/-- The pieces of a line that are predicates. -/
def linePieces (line : List Char) : List (List Char) :=
  let line := trim line
  if line.isEmpty then [] else if isCompound line then [line] else words line

/-- The written forms of the predicates of a text, line by line; empty ones are left out. -/
def blobChars (cs : List Char) : List (List Char) :=
  ((lines cs).flatMap linePieces).map predicateChars |>.filter (!·.isEmpty)

/-- The written forms of the predicates of a text. -/
def ofBlob (s : String) : List String := (blobChars s.toList).map String.ofList

theorem ne_nil_of_mem_blobChars {p cs : List Char} (h : p ∈ blobChars cs) : p ≠ [] := by
  have := (List.mem_filter.1 h).2
  simpa using this

end GraphQuery.Predicate
