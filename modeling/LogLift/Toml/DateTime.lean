import LogLift.Toml.Lexis

/-! Dates and times: a date, a time of day, or both with or without an offset. -/

namespace LogLift.Toml

/-- A number of exactly `count` digits, from `low` to `high`. -/
def field? (count low high : Nat) : Reader Nat := fun cs =>
  let digits := cs.take count
  let n := digits.foldl (fun n c => 10 * n + (c.toNat - '0'.toNat)) 0
  if digits.length = count ∧ digits.all Char.isDigit ∧ low ≤ n ∧ n ≤ high then
    some (n, cs.drop count)
  else none

def after? (c : Char) : List Char → Option (List Char)
  | [] => none
  | d :: cs => if c = d then some cs else none

def isLeapYear (year : Nat) : Bool := year % 4 == 0 && (year % 100 != 0 || year % 400 == 0)

def daysInMonth (year month : Nat) : Nat :=
  if month = 2 then if isLeapYear year then 29 else 28
  else if month = 4 ∨ month = 6 ∨ month = 9 ∨ month = 11 then 30
  else 31

def afterDate? (cs : List Char) : Option (List Char) := do
  let (year, cs) ← field? 4 0 9999 cs
  let (month, cs) ← field? 2 1 12 (← after? '-' cs)
  let (_, cs) ← field? 2 1 (daysInMonth year month) (← after? '-' cs)
  return cs

def afterFraction? : List Char → Option (List Char)
  | '.' :: cs =>
    if (cs.takeWhile Char.isDigit).isEmpty then none else some (cs.dropWhile Char.isDigit)
  | cs => some cs

/-- The text after a time of day.  The seconds may be left out, and a minute may have sixty-one. -/
def afterTime? (cs : List Char) : Option (List Char) := do
  let (_, cs) ← field? 2 0 23 cs
  let (_, cs) ← field? 2 0 59 (← after? ':' cs)
  match cs with
  | ':' :: cs =>
    let (_, cs) ← field? 2 0 60 cs
    afterFraction? cs
  | cs => some cs

/-- The offset from universal time, which is at most a day. -/
def isOffset : List Char → Bool
  | [] => true
  | ['Z'] => true
  | ['z'] => true
  | c :: cs =>
    (c == '+' || c == '-') &&
      match (do
        let (hours, cs) ← field? 2 0 24 cs
        let (minutes, cs) ← field? 2 0 59 (← after? ':' cs)
        return (hours, minutes, cs)) with
      | some (hours, minutes, rest) => rest.isEmpty && hours * 60 + minutes ≤ 24 * 60
      | none => false

/-- A date, a time of day, or a date, a separator, a time and an optional offset. -/
def isMoment (cs : List Char) : Bool :=
  match afterDate? cs with
  | none => afterTime? cs == some []
  | some [] => true
  | some (separator :: time) =>
    (separator == 'T' || separator == 't' || separator == ' ') &&
      match afterTime? time with
      | none => false
      | some offset => isOffset offset

end LogLift.Toml
