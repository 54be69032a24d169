/-!
Calendar dates and date-times in text.

A date is `YYYY-MM-DD` in ASCII digits and names a day of the Gregorian calendar, extended back to
the year 1. A date-time is a date, `T`, a time of day with seconds and up to six fraction digits,
and `Z` or an offset of less than a day, whose minutes may exceed 59.
-/

namespace DocSchema.Calendar

/-- The number that two or four ASCII digits stand for. -/
def digits? (ds : List Char) : Option Nat :=
  ds.foldlM (fun n d => if '0' ≤ d ∧ d ≤ '9' then some (n * 10 + (d.toNat - '0'.toNat)) else none) 0

def isLeap (year : Nat) : Bool := year % 4 = 0 && (year % 100 ≠ 0 || year % 400 = 0)

/-- The length of a month; a number that is no month has no days. -/
def daysIn (year month : Nat) : Nat :=
  match month with
  | 1 | 3 | 5 | 7 | 8 | 10 | 12 => 31
  | 4 | 6 | 9 | 11 => 30
  | 2 => if isLeap year then 29 else 28
  | _ => 0

/-- The numbers name a day. -/
def isDay (year month day : Nat) : Bool := 1 ≤ year && 1 ≤ day && day ≤ daysIn year month

/-- What follows a date at the front of a text. -/
def afterDate? : List Char → Option (List Char)
  | a :: b :: c :: d :: '-' :: e :: f :: '-' :: g :: h :: rest => do
    let year ← digits? [a, b, c, d]
    let month ← digits? [e, f]
    let day ← digits? [g, h]
    if isDay year month day then some rest else none
  | _ => none

/-- What follows a time of day `hh:mm:ss`. -/
def afterTime? : List Char → Option (List Char)
  | a :: b :: ':' :: c :: d :: ':' :: e :: f :: rest => do
    let hour ← digits? [a, b]
    let minute ← digits? [c, d]
    let second ← digits? [e, f]
    if hour < 24 ∧ minute < 60 ∧ second < 60 then some rest else none
  | _ => none

def isAsciiDigit (c : Char) : Bool := '0' ≤ c && c ≤ '9'

/-- What follows an optional point with one to six digits. -/
def afterFraction? : List Char → Option (List Char)
  | '.' :: rest =>
    let ds := rest.takeWhile isAsciiDigit
    if 1 ≤ ds.length ∧ ds.length ≤ 6 then some (rest.dropWhile isAsciiDigit) else none
  | rest => some rest

/-- A zone: `Z`, or a sign and `hh:mm` that add up to less than a day. -/
def isZone : List Char → Bool
  | ['Z'] => true
  | [sign, a, b, ':', c, d] =>
    (sign = '+' || sign = '-') &&
      match digits? [a, b], digits? [c, d] with
      | some hours, some minutes => hours * 60 + minutes < 24 * 60
      | _, _ => false
  | _ => false

/-- The text is a date. -/
def isDate (s : String) : Bool := afterDate? s.toList = some []

/-- What follows the separator between date and time. -/
def afterSeparator? : List Char → Option (List Char)
  | 'T' :: rest => some rest
  | _ => none

/-- The text is a date-time. -/
def isDateTime (s : String) : Bool :=
  match afterDate? s.toList >>= afterSeparator? >>= afterTime? >>= afterFraction? with
  | some zone => isZone zone
  | none => false

end DocSchema.Calendar
