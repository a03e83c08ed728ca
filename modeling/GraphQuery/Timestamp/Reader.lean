import GraphQuery.Binary64.Notation
import GraphQuery.Text.Blank
import GraphQuery.Timestamp

/-!
# Reading timestamps

A reader of RFC 3339 timestamps that is generous about blanks: they may stand before
every number, every mark and the offset. Numbers may be shorter than their full width,
the date and the time may be separated by a `T` or by one space, and the offset may
be the word `UTC`.
-/

namespace GraphQuery.Timestamp

open Text

/-! ## Pieces -/

/-- A number of at most `most` digits, and the rest. -/
def digits? (most : Nat) (cs : List Char) : Option (Nat × List Char) :=
  let ds := (cs.take most).takeWhile Char.isDigit
  if ds.isEmpty then none else some (digitsValue ds, cs.drop ds.length)

/-- A number of at most two digits after blanks. -/
def field? (cs : List Char) : Option (Nat × List Char) := digits? 2 (trimStart cs)

/-- A mark after blanks, and the rest. -/
def mark? (mark : Char) (cs : List Char) : Option (List Char) :=
  match trimStart cs with
  | [] => none
  | c :: cs => if c = mark then some cs else none

/-- A year: four digits at most, or a sign and any number of digits. -/
def year? (cs : List Char) : Option (Int × List Char) :=
  match trimStart cs with
  | '-' :: cs => (digits? cs.length cs).map fun (n, rest) => (-(n : Int), rest)
  | '+' :: cs => (digits? cs.length cs).map fun (n, rest) => ((n : Int), rest)
  | cs => (digits? 4 cs).map fun (n, rest) => ((n : Int), rest)

/-- The mark between date and time. -/
def separator? : List Char → Option (List Char)
  | c :: cs => if c = 'T' ∨ c = 't' ∨ c = ' ' then some cs else none
  | [] => none

/-- The nanoseconds after a point, if there is one; digits after the ninth are dropped. -/
def fraction? (cs : List Char) : Option (Nat × List Char) :=
  match cs with
  | '.' :: cs =>
    let ds := cs.takeWhile Char.isDigit
    let kept := ds.take 9
    if ds.isEmpty then none
    else some (digitsValue kept * Nat.pow 10 (9 - kept.length), cs.dropWhile Char.isDigit)
  | cs => some (0, cs)

/-- Two digits, of which the first is at most `top`. -/
def pair? (top : Char) : List Char → Option (Nat × List Char)
  | a :: b :: cs => if a.isDigit ∧ a ≤ top ∧ b.isDigit then some (digitsValue [a, b], cs) else none
  | _ => none

/-- Hours and minutes of an offset in seconds, with any colons and blanks between them. -/
def offsetBody? (cs : List Char) : Option (Nat × List Char) := do
  let (hours, cs) ← pair? '9' cs
  let (minutes, cs) ← pair? '5' (cs.dropWhile fun c => c == ':' || isBlank c)
  return (hours * 3600 + minutes * 60, cs)

/-- An offset in seconds: the word `UTC`, a `Z`, or a sign with hours and minutes. -/
def offset? (cs : List Char) : Option (Int × List Char) :=
  if (cs.take 3).map Char.toUpper = ['U', 'T', 'C'] then some (0, cs.drop 3)
  else match cs with
    | c :: cs =>
      if c = 'Z' ∨ c = 'z' then some (0, cs)
      else if c = '+' then (offsetBody? cs).map fun (n, rest) => ((n : Int), rest)
      else if c = '-' ∨ c = '\u2212' then (offsetBody? cs).map fun (n, rest) => (-(n : Int), rest)
      else none
    | [] => none

/-! ## Timestamps -/

/-- The years of the calendar that a timestamp may fall in, in UTC. -/
def isYearInRange (year : Int) : Bool := -262143 ≤ year && year ≤ 262142

/-- The timestamp of a local date and time. Second 60 is the leap second after second 59. -/
def ofLocal? (date : Date) (hour minute second nanos : Nat) (offset : Int) : Option Timestamp :=
  let leap := if second = 60 then 1 else 0
  let seconds := date.toDays * 86400 + hour * 3600 + minute * 60 + (second - leap : Nat) - offset
  let nanos := nanos + leap * 1000000000
  if date.isValid && hour < 24 && minute < 60 && second ≤ 60 && isYearInRange date.year &&
      isYearInRange (Date.ofDays (seconds / 86400)).year then
    if h : nanos < 2000000000 ∧ offset.natAbs < 86400 then some ⟨seconds, nanos, offset, h.1, h.2⟩
    else none
  else none

/-- The timestamp that a text stands for. -/
def ofText? (cs : List Char) : Option Timestamp := do
  let (year, cs) ← year? cs
  let (month, cs) ← field? (← mark? '-' cs)
  let (day, cs) ← field? (← mark? '-' cs)
  let (hour, cs) ← field? (← separator? cs)
  let (minute, cs) ← field? (← mark? ':' cs)
  let (second, cs) ← field? (← mark? ':' cs)
  let (nanos, cs) ← fraction? cs
  let (offset, cs) ← offset? (trimStart cs)
  if (trimStart cs).isEmpty then ofLocal? ⟨year, month, day⟩ hour minute second nanos offset else none

end GraphQuery.Timestamp
