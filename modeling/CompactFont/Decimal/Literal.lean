set_option autoImplicit false

namespace CompactFont.Decimal

structure Literal where
  negative : Bool
  digits : Nat
  power : Int
deriving DecidableEq, Repr

namespace Literal

def digitsValue (digits : List Char) : Nat :=
  digits.foldl (fun total digit => total * 10 + (digit.toNat - '0'.toNat)) 0

def exponent? : List Char → Option Int
  | [] => some 0
  | 'E' :: '-' :: digits => (magnitude? digits).map fun power => -power
  | 'E' :: digits => (magnitude? digits).map fun power => power
  | _ => none
where
  magnitude? (digits : List Char) : Option Nat :=
    if digits ≠ [] ∧ digits.all Char.isDigit then some (digitsValue digits) else none

def unsigned? (negative : Bool) (text : List Char) : Option Literal := do
  let (whole, rest) := text.span Char.isDigit
  let (fraction, rest) :=
    match rest with
    | '.' :: rest => rest.span Char.isDigit
    | rest => ([], rest)
  if whole ++ fraction = [] then none
  else do
    let power ← exponent? rest
    some { negative, digits := digitsValue (whole ++ fraction), power := power - fraction.length }

def ofText? : List Char → Option Literal
  | '-' :: text => unsigned? true text
  | text => unsigned? false text

-- The nearest binary number. Powers beyond `bound` already give zero or infinity for a literal of
-- a few hundred digits.
def toFloat (literal : Literal) : Float :=
  let bound := 1000
  let size :=
    if literal.power < 0 then Float.ofScientific literal.digits true (min bound literal.power.natAbs)
    else Float.ofScientific literal.digits false (min bound literal.power.natAbs)
  if literal.negative then -size else size

end Literal

end CompactFont.Decimal
