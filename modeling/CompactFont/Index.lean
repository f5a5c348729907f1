import CompactFont.Field

set_option autoImplicit false

namespace CompactFont

def slice? (bytes : Array UInt8) (start finish : Nat) : Option Bytes :=
  if start ≤ finish ∧ finish ≤ bytes.size then some (bytes.extract start finish).toList else none

-- A list of byte strings, kept as it is stored. There is one offset more than there are objects, and
-- offsets count from the byte before the data, so the smallest is 1.
structure Index where
  count : Nat
  offsetSize : Nat
  offsets : Array UInt8
  data : Array UInt8
deriving DecidableEq, Repr

namespace Index

def empty : Index := ⟨0, 1, #[], #[]⟩

def isEmpty (index : Index) : Bool := index.count == 0

def dataLength (index : Index) : Nat := index.data.size

def offsetAt? (offsetSize : Nat) (offsets : Array UInt8) (place : Nat) : Option Nat :=
  let start := place * offsetSize
  (slice? offsets start (start + offsetSize)).bind fun bytes =>
    if 1 ≤ offsetSize ∧ offsetSize ≤ 4 then some (bigEndian bytes) else none

def inData? : Nat → Option Nat
  | 0 => none
  | offset + 1 => some offset

def get? (index : Index) (place : Nat) : Option Bytes :=
  if place < index.count then do
    let start ← offsetAt? index.offsetSize index.offsets place
    let finish ← offsetAt? index.offsetSize index.offsets (place + 1)
    slice? index.data (← inData? start) (← inData? finish)
  else none

-- Objects that cannot be had are left out.
def toList (index : Index) : List Bytes := (List.range index.count).filterMap index.get?

def object (index : Index) (place : Nat) : Except ReadError Bytes :=
  match index.get? place with
  | some object => .ok object
  | none => .error .badIndex

def checkOffset (offsetSize : Nat) (offsets : Array UInt8) (available least place : Nat) :
    Except ReadError Nat :=
  match offsetAt? offsetSize offsets place with
  | none => .error .malformedIndex
  | some offset =>
      if offset < least ∨ available < offset - 1 then .error .malformedIndex else .ok offset

def lastOffset (offsetSize : Nat) (offsets : Array UInt8) (available count : Nat) :
    Except ReadError Nat :=
  (List.range (count + 1)).foldlM (checkOffset offsetSize offsets available) 1

def readFrom (count offsetSize : Nat) : Reader Index := do
  let offsets ← Reader.take ((count + 1) * offsetSize)
  let available ← List.length <$> get
  let last ← lastOffset offsetSize offsets.toArray available count
  let data ← Reader.take (last - 1)
  pure ⟨count, offsetSize, offsets.toArray, data.toArray⟩

def read : Reader Index := do
  let count ← Field.u16.read
  if count = 0 then pure empty
  else do
    let offsetSize ← Field.u8.read
    if 1 ≤ offsetSize ∧ offsetSize ≤ 4 then readFrom count offsetSize else throw .badValue

end Index

end CompactFont
