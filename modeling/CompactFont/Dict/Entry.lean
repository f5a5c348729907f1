import CompactFont.Dict.Operator
import CompactFont.Dict.Real
import CompactFont.Integer

set_option autoImplicit false

namespace CompactFont.Dict

inductive Operand where
  | integer (value : Int)
  | offset (value : Int)
  | real (value : Real)
deriving DecidableEq, Repr

namespace Operand

def isOffset : Operand → Bool
  | .offset _ => true
  | _ => false

def toFloat : Operand → Attempt ReadError Float
  | .integer value => pure (Float.ofInt value)
  | .offset value => pure (Float.ofInt value)
  | .real value => value.toFloat

end Operand

structure Entry where
  operator : Operator
  operands : List Operand
deriving DecidableEq, Repr

def maxOperands : Nat := 48

-- Marks the operands of an entry that are offsets. The encodings 0 and 1 are predefined and no
-- offsets.
def locate : Operator → List Operand → List Operand
  | .encoding, [.integer value] => if 1 < value then [.offset value] else [.integer value]
  | .charset, [.integer value] => [.offset value]
  | .charStrings, [.integer value] => [.offset value]
  | .subrs, [.integer value] => [.offset value]
  | .fdArray, [.integer value] => [.offset value]
  | .fdSelect, [.integer value] => [.offset value]
  | .privateDict, [.integer length, .integer value] => [.offset length, .offset value]
  | _, operands => operands

inductive Item where
  | operator (operator : Operator)
  | operand (operand : Operand)
  | unknown (code : Nat)
  | reserved (byte : Nat)
deriving DecidableEq, Repr

namespace Item

def ofOperatorCode (code : Nat) : Item :=
  match Operator.ofCode? code with
  | some known => .operator known
  | none => .unknown code

def ofInteger (value : Int) : Item := .operand (.integer value)

def readFrom (first : Nat) : Reader Item :=
  if first = 12 then (fun second => ofOperatorCode (12 * 256 + second)) <$> Field.u8.read
  else if first ≤ 21 then pure (ofOperatorCode first)
  else if first = 28 then ofInteger <$> Field.i16.read
  else if first = 29 then ofInteger <$> Field.i32.read
  else if first = 30 then
    (fun bytes => .operand (.real ⟨bytes⟩)) <$> Reader.takeThroughNibble Real.terminator
  else if 32 ≤ first ∧ first ≤ 254 then ofInteger <$> Integer.read first
  else pure (.reserved first)

def read : Reader Item := Field.u8.read >>= readFrom

theorem consumes_read_from (first : Nat) : Reader.Consumes 0 (readFrom first) := by
  have field {α : Type} (field : Field α) : Reader.Consumes 0 field.read :=
    Reader.consumes_mono (Nat.zero_le _) (Field.consumes_read field)
  unfold readFrom
  repeat' split
  · exact Reader.consumes_map _ (field _)
  · exact Reader.consumes_pure _
  · exact Reader.consumes_map _ (field _)
  · exact Reader.consumes_map _ (field _)
  · exact Reader.consumes_map _ (Reader.consumes_take_through_nibble _)
  · exact Reader.consumes_map _ (Integer.consumes_read _)
  · exact Reader.consumes_pure _

theorem consumes_read : Reader.Consumes 1 read :=
  Reader.consumes_bind (Field.consumes_read Field.u8) consumes_read_from

end Item

-- The entries from here to the end of the data, `pending` being the operands that still wait for
-- their operator, the latest first.
def readEntries (pending : List Operand) (data : Bytes) : Attempt ReadError (List Entry) :=
  if data = [] then pure []
  else
    match _found : Item.read data with
    | .error error => throw error
    | .ok (.operator operator, rest) => do
        let entries ← readEntries [] rest
        pure (⟨operator, locate operator pending.reverse⟩ :: entries)
    | .ok (.operand operand, rest) =>
        if maxOperands ≤ pending.length then throw .limitExceeded
        else readEntries (operand :: pending) rest
    | .ok (.unknown code, rest) => do
        Report.note (.unknownDictOperator code)
        readEntries [] rest
    | .ok (.reserved byte, rest) => do
        Report.note (.reservedDictByte byte)
        readEntries [] rest
termination_by data.length
decreasing_by all_goals exact Reader.length_lt_of_consumes Item.consumes_read _found

end CompactFont.Dict
