import CompactFont.Bytes
import CompactFont.Charstring.Operator

set_option autoImplicit false

namespace CompactFont

inductive Token (O N : Type) where
  | number (value : N)
  | operator (op : O)
  | mask (bytes : Bytes)
deriving DecidableEq, Repr

namespace Token

variable {O N M : Type}

def isNumber : Token O N → Bool
  | .number _ => true
  | _ => false

def mapNumber (f : N → M) : Token O N → Token O M
  | .number value => .number (f value)
  | .operator op => .operator op
  | .mask bytes => .mask bytes

def pending (stack : List (Token O N)) : Nat := (stack.takeWhile isNumber).length

def dropPending (stack : List (Token O N)) : List (Token O N) := stack.dropWhile isNumber

@[simp] theorem pending_nil : pending ([] : List (Token O N)) = 0 := rfl

@[simp] theorem pending_number (value : N) (stack : List (Token O N)) :
    pending (.number value :: stack) = pending stack + 1 := rfl

@[simp] theorem pending_operator (op : O) (stack : List (Token O N)) :
    pending (.operator op :: stack) = 0 := rfl

end Token

-- A number in a Type 2 charstring: an integer, or one in 16.16 form, whose fraction counts
-- 65535ths.
inductive Number where
  | integer (value : Int)
  | fixed (whole : Int) (fraction : Nat)
deriving DecidableEq, Repr

namespace Number

def toFloat : Number → Float
  | .integer value => Float.ofInt value
  | .fixed whole fraction => Float.ofInt whole + Float.ofNat fraction / 65535.0

def truncate : Number → Int
  | .integer value => value
  | .fixed whole fraction => Int.tdiv (whole * 65535 + fraction) 65535

end Number

end CompactFont
