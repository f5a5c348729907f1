import CompactFont.Dict.Basic
import CompactFont.Encoding.Basic
import CompactFont.FontDictSelect
import CompactFont.Header

set_option autoImplicit false

namespace CompactFont

-- The affine map from glyph space, `(x, y)` to `(a x + c y + tx, b x + d y + ty)`.
structure Matrix where
  a : Float
  b : Float
  c : Float
  d : Float
  tx : Float
  ty : Float

namespace Matrix

def perThousand : Matrix := ⟨0.001, 0.0, 0.0, 0.001, 0.0, 0.0⟩

def andThen (first second : Matrix) : Matrix where
  a := first.a * second.a + first.b * second.c
  b := first.a * second.b + first.b * second.d
  c := first.c * second.a + first.d * second.c
  d := first.c * second.b + first.d * second.d
  tx := first.tx * second.a + first.ty * second.c + second.tx
  ty := first.tx * second.b + first.ty * second.d + second.ty

def toList (matrix : Matrix) : List Float :=
  [matrix.a, matrix.b, matrix.c, matrix.d, matrix.tx, matrix.ty]

def ofOperands (operands : List Dict.Operand) : Attempt ReadError Matrix := do
  match ← operands.mapM Dict.Operand.toFloat with
  | [a, b, c, d, tx, ty] => pure ⟨a, b, c, d, tx, ty⟩
  | _ => throw .badValue

end Matrix

inductive Dialect where
  | type1
  | type2
deriving DecidableEq, Repr

def Dialect.ofNumber (number : Int) : Except ReadError Dialect :=
  match number with
  | 1 => .ok .type1
  | 2 => .ok .type2
  | _ => .error .notImplemented

structure PrivateData where
  dict : Dict .privateData
  subrs? : Option Index

structure FontDicts where
  dicts : Array (Dict .font)
  privateDicts : Array (Dict .privateData)
  subrs : Array (Option Index)

structure CidData where
  registry : Nat
  ordering : Nat
  supplement : Int
  index : Index
  fontDicts : FontDicts
  select : FontDictSelect

inductive Keying where
  | names (encoding : Encoding) (privateData : PrivateData)
  | cids (data : CidData)

structure Font where
  name : String
  top : Dict .top
  charstrings : Index
  charset : Charset
  keying : Keying
  matrix : Matrix
  dialect : Dialect
  globalSubrs : Index
  strings : Strings

structure FontProgram where
  header : Header
  names : Index
  strings : Index
  globalSubrs : Index
  fonts : List Font
  data : Bytes

def CidData.fontDict (data : CidData) (place : Nat) : Except ReadError (Dict .font) :=
  match data.fontDicts.dicts[place]? with
  | some dict => .ok dict
  | none => .error .badIndex

namespace Font

def glyphCount (font : Font) : Nat := font.charstrings.count

def cidData? (font : Font) : Option CidData :=
  match font.keying with
  | .names _ _ => none
  | .cids data => some data

def isCidKeyed (font : Font) : Bool := font.cidData?.isSome

def privateDataOf (font : Font) (glyph : Nat) : Option (Dict .privateData) × Option Index :=
  match font.keying with
  | .names _ privateData => (some privateData.dict, privateData.subrs?)
  | .cids data =>
      match data.select.fontDictOf? glyph with
      | some place => (data.fontDicts.privateDicts[place]?, data.fontDicts.subrs[place]?.join)
      | none => (none, none)

def glyphOfName (font : Font) (name : String) : Except ReadError Nat :=
  font.charset.glyphOfName font.strings name

def glyphOfCid (font : Font) (cid : Nat) : Except ReadError Nat := font.charset.glyphOfCid cid

def glyphOfCode (font : Font) (code : Nat) : Except ReadError Nat :=
  match font.keying with
  | .names encoding _ => .ok (encoding.glyphOf font.charset code)
  | .cids _ => .error .wrongKind

def nameOf? (font : Font) (glyph : Nat) : Except ReadError (Option String) :=
  font.charset.nameOf? font.strings glyph

def hasGlyph (font : Font) (name : String) : Bool :=
  match font.glyphOfName name with
  | .ok glyph => glyph ≠ 0
  | .error _ => false

end Font

end CompactFont
