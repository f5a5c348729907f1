import CompactFont.Charstring.Token
import CompactFont.Integer

set_option autoImplicit false

namespace CompactFont

inductive Lexeme (N : Type) where
  | number (value : N)
  | command (key : Key)
deriving DecidableEq, Repr

def maxArguments : Nat := 48

def maxNesting : Nat := 10

def Key.readFrom (first : Nat) : Reader Key :=
  if first = 12 then (fun second => .escape (UInt8.ofNat second)) <$> Field.u8.read
  else pure (.single (UInt8.ofNat first))

theorem Key.consumes_read_from (first : Nat) : Reader.Consumes 0 (Key.readFrom first) := by
  unfold Key.readFrom
  split
  · exact Reader.consumes_map _ (Reader.consumes_mono (Nat.zero_le _) (Field.consumes_read _))
  · exact Reader.consumes_pure _

namespace Lexeme

def type1From (first : Nat) : Reader (Lexeme Int) :=
  if first < 32 then command <$> Key.readFrom first
  else if first = 255 then number <$> Field.i32.read
  else number <$> Integer.read first

def readType1 : Reader (Lexeme Int) := Field.u8.read >>= type1From

def type2From (first : Nat) : Reader (Lexeme Number) :=
  if first = 28 then (fun value => number (.integer value)) <$> Field.i16.read
  else if first = 255 then
    (fun (whole, fraction) => number (.fixed whole fraction)) <$>
      (Field.i16.pair Field.u16).read
  else if first < 32 then command <$> Key.readFrom first
  else (fun value => number (.integer value)) <$> Integer.read first

def readType2 : Reader (Lexeme Number) := Field.u8.read >>= type2From

theorem consumes_type1_from (first : Nat) : Reader.Consumes 0 (type1From first) := by
  unfold type1From
  repeat' split
  · exact Reader.consumes_map _ (Key.consumes_read_from _)
  · exact Reader.consumes_map _ (Reader.consumes_mono (Nat.zero_le _) (Field.consumes_read _))
  · exact Reader.consumes_map _ (Integer.consumes_read _)

theorem consumes_type2_from (first : Nat) : Reader.Consumes 0 (type2From first) := by
  unfold type2From
  repeat' split
  · exact Reader.consumes_map _ (Reader.consumes_mono (Nat.zero_le _) (Field.consumes_read _))
  · exact Reader.consumes_map _ (Reader.consumes_mono (Nat.zero_le _) (Field.consumes_read _))
  · exact Reader.consumes_map _ (Key.consumes_read_from _)
  · exact Reader.consumes_map _ (Integer.consumes_read _)

theorem consumes_read_type1 : Reader.Consumes 1 readType1 :=
  Reader.consumes_bind (Field.consumes_read Field.u8) consumes_type1_from

theorem consumes_read_type2 : Reader.Consumes 1 readType2 :=
  Reader.consumes_bind (Field.consumes_read Field.u8) consumes_type2_from

end Lexeme

def Token.push {O N : Type} (value : N) (stack : List (Token O N)) :
    Except CharstringError (List (Token O N)) :=
  if maxArguments ≤ Token.pending stack then .error .argumentLimit
  else .ok (.number value :: stack)

theorem Token.push_ok {O N : Type} {value : N} {stack next : List (Token O N)}
    (done : Token.push value stack = .ok next) :
    Token.pending stack < maxArguments ∧ next = .number value :: stack := by
  rw [Token.push] at done
  split at done
  · cases done
  · rename_i room
    exact ⟨Nat.lt_of_not_le room, (Except.ok.inj done).symm⟩

theorem Token.push_of_pending_lt {O N : Type} (value : N) {stack : List (Token O N)}
    (room : Token.pending stack < maxArguments) :
    Token.push value stack = .ok (.number value :: stack) := by
  rw [Token.push, if_neg (Nat.not_le_of_lt room)]

end CompactFont
