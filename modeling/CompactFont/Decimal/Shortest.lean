set_option autoImplicit false

namespace CompactFont.Decimal

def twoTo (places : Nat) : Nat := Nat.pow 2 places

def tenTo (places : Nat) : Nat := Nat.pow 10 places

structure BinaryFormat where
  fractionBits : Nat
  exponentBits : Nat
  maxDigits : Nat

def binary64 : BinaryFormat := ⟨52, 11, 17⟩

def binary32 : BinaryFormat := ⟨23, 8, 9⟩

structure Interval where
  low : Nat
  value : Nat
  high : Nat
  denominator : Nat
  closed : Bool

-- The interval around `mantissa · 2 ^ exponent`. Below the smallest mantissa of a binade the
-- neighbour is half as far away.
def Interval.around (mantissa : Nat) (exponent : Int) (halfBelow : Bool) : Interval :=
  let up := twoTo (exponent - 2).toNat
  { low := (4 * mantissa - if halfBelow then 1 else 2) * up
    value := 4 * mantissa * up
    high := (4 * mantissa + 2) * up
    denominator := twoTo (2 - exponent).toNat
    closed := mantissa % 2 = 0 }

def digitCount (number : Nat) : Nat := (Nat.toDigits 10 number).length

-- The power of ten just above the value: the number of digits before the point, or minus the
-- number of zeros that follow it.
def Interval.magnitude (interval : Interval) : Int :=
  if interval.denominator ≤ interval.value then digitCount (interval.value / interval.denominator)
  else 1 - digitCount ((interval.denominator - 1) / interval.value)

def Interval.contains (interval : Interval) (numerator denominator : Nat) : Bool :=
  let point := numerator * interval.denominator
  let low := interval.low * denominator
  let high := interval.high * denominator
  if interval.closed then low ≤ point && point ≤ high else low < point && point < high

def Interval.withDigits? (interval : Interval) (digits : Nat) : Option (Nat × Int) :=
  let power := interval.magnitude - digits
  let scale := tenTo power.toNat
  let parts := tenTo (-power).toNat
  let unit := interval.denominator * scale
  let below := interval.value * parts / unit
  let remainder := interval.value * parts % unit
  let inside (multiple : Nat) := interval.contains (multiple * scale) parts
  match inside below, inside (below + 1) with
  | true, true => some (if unit ≤ 2 * remainder then below + 1 else below, power)
  | true, false => some (below, power)
  | false, true => some (below + 1, power)
  | false, false => none

def Interval.shortest (interval : Interval) (maxDigits : Nat) : Nat × Int :=
  ((List.range maxDigits).findSome? fun fewer => interval.withDigits? (fewer + 1)).getD (0, 0)

def positional (multiple : Nat) (power : Int) : String :=
  let digits := Nat.toDigits 10 multiple
  let places := (-power).toNat
  if places = 0 then String.ofList (digits ++ List.replicate power.toNat '0')
  else
    let padded := digits.leftpad (places + 1) '0'
    let whole := padded.take (padded.length - places)
    let fraction := (padded.drop (padded.length - places)).reverse.dropWhile (· = '0') |>.reverse
    String.ofList (if fraction.isEmpty then whole else whole ++ '.' :: fraction)

def BinaryFormat.text (format : BinaryFormat) (bits : Nat) : String :=
  let fraction := bits % twoTo format.fractionBits
  let exponent := bits / twoTo format.fractionBits % twoTo format.exponentBits
  let sign := if bits / twoTo (format.fractionBits + format.exponentBits) = 0 then "" else "-"
  let bias : Int := twoTo (format.exponentBits - 1) - 1 + format.fractionBits
  if exponent = twoTo format.exponentBits - 1 then
    if fraction = 0 then sign ++ "inf" else "NaN"
  else if exponent = 0 then
    if fraction = 0 then sign ++ "0"
    else
      let (multiple, power) := (Interval.around fraction (1 - bias) false).shortest format.maxDigits
      sign ++ positional multiple power
  else
    let (multiple, power) := (Interval.around (fraction + twoTo format.fractionBits)
      (exponent - bias) (fraction = 0 && exponent ≠ 1)).shortest format.maxDigits
    sign ++ positional multiple power

def ofFloat (number : Float) : String := binary64.text number.toBits.toNat

def ofFloat32 (number : Float32) : String := binary32.text number.toBits.toNat

end CompactFont.Decimal
