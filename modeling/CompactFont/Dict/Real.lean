import CompactFont.Decimal.Literal
import CompactFont.Report

set_option autoImplicit false

namespace CompactFont.Dict

structure Real where
  bytes : Bytes
deriving DecidableEq, Repr

namespace Real

def terminator : Nat := 15

-- The longest text a further half byte may be added to.
def maxText : Nat := 63

def nibbles (real : Real) : List Nat :=
  (real.bytes.flatMap fun byte => [byte.toNat / 16, byte.toNat % 16]).takeWhile (· ≠ terminator)

structure Spelling where
  reversed : List Char
  hasExponent : Bool
  awaitsDigit : Bool

namespace Spelling

def start : Spelling := ⟨[], false, false⟩

def add (spelling : Spelling) (nibble : Nat) : Attempt ReadError Spelling :=
  if maxText < spelling.reversed.length then throw .limitExceeded
  else if nibble < 10 then
    pure { spelling with
      reversed := Char.ofNat ('0'.toNat + nibble) :: spelling.reversed, awaitsDigit := false }
  else if nibble = 10 then pure { spelling with reversed := '.' :: spelling.reversed }
  else if nibble = 11 ∨ nibble = 12 then
    if spelling.hasExponent then do
      Report.note .repeatedExponent
      pure spelling
    else
      let mark := if nibble = 11 then ['E'] else ['-', 'E']
      pure { reversed := mark ++ spelling.reversed, hasExponent := true, awaitsDigit := true }
  else if nibble = 13 then pure spelling
  else pure { spelling with reversed := '-' :: spelling.reversed }

-- The finished text: an exponent without digits is 0, and a minus sign at the end is dropped.
def text (spelling : Spelling) : List Char :=
  let complete := if spelling.awaitsDigit then '0' :: spelling.reversed else spelling.reversed
  match complete with
  | '-' :: before :: rest => (before :: rest).reverse
  | _ => complete.reverse

end Spelling

def text (real : Real) : Attempt ReadError (List Char) :=
  Spelling.text <$> real.nibbles.foldlM Spelling.add Spelling.start

def literalValue (text : List Char) : Except ReadError Float :=
  if text = [] ∨ text = ['E', '-', '0'] then .ok 0.0
  else
    match Decimal.Literal.ofText? text with
    | some literal => .ok literal.toFloat
    | none => .error .badValue

def toFloat (real : Real) : Attempt ReadError Float := do
  let text ← real.text
  literalValue text

end Real

end CompactFont.Dict
