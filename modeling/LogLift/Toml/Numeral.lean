import LogLift.Toml.Strings

/-! Numbers.  An integer fits sixty-four bits with a sign, and a number with a fraction or an
exponent must be finite in double precision. -/

namespace LogLift.Toml

/-- A run of digits, in which an underscore may stand between two digits. -/
def isDigits (isDigit : Char → Bool) : List Char → Bool
  | [] => false
  | [c] => isDigit c
  | c :: '_' :: cs => isDigit c && isDigits isDigit cs
  | c :: cs => isDigit c && isDigits isDigit cs

/-- The number that a run of digits writes in `base`. -/
def digitsValue (base : Nat) (cs : List Char) : Nat :=
  cs.foldl (fun n c =>
    match hexDigit? c with
    | some d => base * n + d
    | none => n) 0

/-- A run of decimal digits without a zero in front of others. -/
def isWhole (cs : List Char) : Bool :=
  isDigits Char.isDigit cs && (cs == ['0'] || cs.head? != some '0')

def sign : List Char → Int × List Char
  | '-' :: cs => (-1, cs)
  | '+' :: cs => (1, cs)
  | cs => (1, cs)

/-- An integer within the range of sixty-four bits. -/
def word? (n : Int) : Option Int :=
  if -0x8000000000000000 ≤ n ∧ n < 0x8000000000000000 then some n else none

/-- An integer.  Only decimal ones have a sign. -/
def integer? (cs : List Char) : Option Int :=
  let radix (base : Nat) (isDigit : Char → Bool) (digits : List Char) : Option Int :=
    if isDigits isDigit digits then word? (digitsValue base digits) else none
  match cs with
  | '0' :: 'x' :: digits => radix 16 (fun c => (hexDigit? c).isSome) digits
  | '0' :: 'o' :: digits => radix 8 (fun c => '0' ≤ c && c ≤ '7') digits
  | '0' :: 'b' :: digits => radix 2 (fun c => c == '0' || c == '1') digits
  | _ =>
    let (s, digits) := sign cs
    if isWhole digits then word? (s * digitsValue 10 digits) else none

/-- The parts of a number with a fraction or an exponent. -/
structure Decimal where
  whole : List Char
  fraction : Option (List Char)
  exponent : Option (List Char)

/-- A number without its sign, cut at its point and at its exponent mark. -/
def decimal (cs : List Char) : Decimal :=
  let isMark (c : Char) : Bool := c == 'e' || c == 'E'
  let mantissa := cs.takeWhile (!isMark ·)
  let whole := mantissa.takeWhile (· != '.')
  ⟨whole, (mantissa.drop whole.length).tail?, (cs.drop mantissa.length).tail?⟩

namespace Decimal

def isWellFormed (d : Decimal) : Bool :=
  isWhole d.whole && (d.fraction.isSome || d.exponent.isSome) &&
    d.fraction.all (isDigits Char.isDigit) &&
    d.exponent.all fun e => isDigits Char.isDigit (sign e).2

/-- All digits, as a number. -/
def coefficient (d : Decimal) : Nat := digitsValue 10 (d.whole ++ d.fraction.getD [])

/-- The power of ten that the coefficient is taken to. -/
def scale (d : Decimal) : Int :=
  let (s, digits) := sign (d.exponent.getD [])
  s * digitsValue 10 digits - ((d.fraction.getD []).countP Char.isDigit : Nat)

/-- The number is rounded to infinity in double precision: it is at least half a step past the
largest finite number.  A number far from that bound is settled by its count of digits. -/
def overflows (d : Decimal) : Bool :=
  let digits : Int := (Nat.toDigits 10 d.coefficient).length
  if d.coefficient = 0 then false
  else if digits + d.scale > 310 then true
  else if digits + d.scale < 300 then false
  else
    let bound := (1 <<< 1024) - (1 <<< 970)
    decide (bound * Nat.pow 10 (-d.scale).toNat ≤ d.coefficient * Nat.pow 10 d.scale.toNat)

end Decimal

/-- A number with a fraction or an exponent, infinity, or no number at all. -/
def isFloat (cs : List Char) : Bool :=
  let unsigned := (sign cs).2
  unsigned == "inf".toList || unsigned == "nan".toList ||
    let d := decimal unsigned
    d.isWellFormed && !d.overflows

end LogLift.Toml
