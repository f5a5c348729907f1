import CompactFont.Dict.Entry
import CompactFont.Window

set_option autoImplicit false

namespace CompactFont

namespace Dict

inductive Kind where
  | top
  | font
  | privateData
deriving DecidableEq, Repr

def Operator.ofCode (code : Nat) : Except ReadError Operator :=
  match Operator.ofCode? code with
  | some operator => .ok operator
  | none => .error .badValue

def real (bytes : Bytes) : Operand := .real ⟨bytes⟩

-- 0.001
def thousandth : Operand := real [0x0a, 0x00, 0x1f]

def default? : Kind → Operator → Option (List Operand)
  | .top, .isFixedPitch => some [.integer 0]
  | .top, .italicAngle => some [.integer 0]
  | .top, .underlinePosition => some [.integer (-100)]
  | .top, .underlineThickness => some [.integer 50]
  | .top, .paintType => some [.integer 0]
  | .top, .charstringType => some [.integer 2]
  | .top, .fontMatrix =>
      some [thousandth, .integer 0, .integer 0, thousandth, .integer 0, .integer 0]
  | .top, .fontBBox => some [.integer 0, .integer 0, .integer 0, .integer 0]
  | .top, .strokeWidth => some [.integer 0]
  | .top, .charset => some [.offset 0]
  | .top, .encoding => some [.offset 0]
  | .top, .cidFontVersion => some [.integer 0]
  | .top, .cidFontRevision => some [.integer 0]
  | .top, .cidFontType => some [.integer 0]
  | .top, .cidCount => some [.integer 8720]
  | .privateData, .blueScale => some [real [0x0a, 0x03, 0x96, 0x25, 0xff]]
  | .privateData, .blueShift => some [.integer 7]
  | .privateData, .blueFuzz => some [.integer 1]
  | .privateData, .forceBold => some [.integer 0]
  | .privateData, .languageGroup => some [.integer 0]
  | .privateData, .expansionFactor => some [real [0x0a, 0x06, 0xff]]
  | .privateData, .initialRandomSeed => some [.integer 0]
  | .privateData, .strokeWidth => some [.integer 0]
  | .privateData, .defaultWidthX => some [.integer 0]
  | .privateData, .nominalWidthX => some [.integer 0]
  | _, _ => none

def natural (value : Int) : Except ReadError Nat :=
  if 0 ≤ value then .ok value.toNat else .error .badValue

def runningSums : Float → List Float → List Float
  | _, [] => []
  | total, value :: rest => (total + value) :: runningSums (total + value) rest

end Dict

structure Dict (kind : Dict.Kind) where
  entries : List Dict.Entry
deriving DecidableEq, Repr

namespace Dict

variable {kind : Kind}

def empty : Dict kind := ⟨[]⟩

def ofBytes (data : Bytes) : Attempt ReadError (Dict kind) := mk <$> readEntries [] data

def find? (dict : Dict kind) (operator : Operator) : Option (List Operand) :=
  (dict.entries.find? fun entry => entry.operator = operator).map Entry.operands

def get? (dict : Dict kind) (operator : Operator) : Option (List Operand) :=
  dict.find? operator <|> default? kind operator

def integer? (dict : Dict kind) (operator : Operator) : Except ReadError (Option Int) :=
  match dict.get? operator with
  | none => .ok none
  | some [.integer value] => .ok (some value)
  | some [.offset value] => .ok (some value)
  | some _ => .error .badValue

def requiredInteger (dict : Dict kind) (operator : Operator) : Except ReadError Int := do
  match ← dict.integer? operator with
  | some value => pure value
  | none => throw .missingValue

def number? (dict : Dict kind) (operator : Operator) : Attempt ReadError (Option Float) :=
  match dict.get? operator with
  | none => pure none
  | some [operand] => some <$> operand.toFloat
  | some _ => throw .badValue

def numbers? (dict : Dict kind) (operator : Operator) : Attempt ReadError (Option (List Float)) :=
  match dict.get? operator with
  | none => pure none
  | some operands => some <$> operands.mapM Operand.toFloat

def deltas? (dict : Dict kind) (operator : Operator) : Attempt ReadError (Option (List Float)) :=
  (Option.map (runningSums 0.0)) <$> dict.numbers? operator

def privateRange (dict : Dict kind) : Except ReadError (Nat × Nat) :=
  match dict.get? .privateDict with
  | none => .error .missingValue
  | some [.offset length, .offset offset] => do
      let offset ← natural offset
      let length ← natural length
      pure (offset, length)
  | some _ => .error .badValue

def readPrivate (dict : Dict kind) (program : Window) :
    Attempt ReadError (Dict .privateData × Nat) := do
  let (offset, length) ← dict.privateRange
  let window ← program.part offset length
  let privateDict ← ofBytes window.data
  pure (privateDict, offset)

end Dict

end CompactFont
