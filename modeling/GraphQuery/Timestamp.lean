import GraphQuery.Calendar

/-!
# Points in time

An instant together with the distance from UTC at which it is shown, and its RFC 3339
text in whole seconds. Two timestamps are equal when the instants are, whatever their
distances from UTC.
-/

namespace GraphQuery

/-- An instant and an offset from UTC in seconds, east of Greenwich positive. The nanoseconds go
    beyond a second during a leap second. -/
structure Timestamp where
  seconds : Int
  nanos : Nat
  offset : Int
  nanos_lt : nanos < 2000000000 := by decide
  offset_lt : offset.natAbs < 86400 := by decide

namespace Timestamp

/-- Equality of instants. -/
def sameInstant (s t : Timestamp) : Bool := s.seconds == t.seconds && s.nanos == t.nanos

instance : BEq Timestamp := ⟨sameInstant⟩

/-- The instant shown in UTC. -/
def inUtc (t : Timestamp) : Timestamp := { t with offset := 0, offset_lt := by decide }

/-! ## Text -/

/-- Decimal digits with zeros before them up to a width. -/
def padded (width n : Nat) : List Char :=
  let digits := Nat.toDigits 10 n
  List.replicate (width - digits.length) '0' ++ digits

/-- A year with four digits, and with a sign when it is not one of 0 to 9999. -/
def yearText (year : Int) : List Char :=
  if 0 ≤ year ∧ year ≤ 9999 then padded 4 year.toNat
  else (if year < 0 then '-' else '+') :: padded 4 year.natAbs

/-- An offset in hours and minutes, rounded to the nearest minute, with `Z` for none at all. -/
def offsetText (offset : Int) : List Char :=
  if offset = 0 then ['Z']
  else
    let minutes := (offset.natAbs + 30) / 60
    (if offset < 0 then '-' else '+') :: padded 2 (minutes / 60) ++ ':' :: padded 2 (minutes % 60)

/-- The second of the local minute; a leap second follows the second it is counted under. -/
def localSecond (t : Timestamp) : Nat :=
  ((t.seconds + t.offset) % 60).toNat + (if 1000000000 ≤ t.nanos then 1 else 0)

def localDate (t : Timestamp) : Date := .ofDays ((t.seconds + t.offset) / 86400)

/-- The RFC 3339 text of the local time in whole seconds. -/
def text (t : Timestamp) : List Char :=
  let date := t.localDate
  let second := ((t.seconds + t.offset) % 86400).toNat
  yearText date.year ++ '-' :: padded 2 date.month ++ '-' :: padded 2 date.day ++
    'T' :: padded 2 (second / 3600) ++ ':' :: padded 2 (second / 60 % 60) ++
    ':' :: padded 2 t.localSecond ++ offsetText t.offset

def format (t : Timestamp) : String := String.ofList t.text

end Timestamp

end GraphQuery
