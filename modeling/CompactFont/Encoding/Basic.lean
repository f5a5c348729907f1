import CompactFont.Charset.Basic
import CompactFont.Encoding.Predefined

set_option autoImplicit false

namespace CompactFont

structure CodeRange where
  first : Nat
  left : Nat
deriving DecidableEq, Repr

structure Supplement where
  code : Nat
  nameId : Nat
deriving DecidableEq, Repr

def CodeRange.field : Field CodeRange :=
  (Field.u8.pair Field.u8).map fun (first, left) => ⟨first, left⟩

def Supplement.field : Field Supplement :=
  (Field.u8.pair Field.u16).map fun (code, nameId) => ⟨code, nameId⟩

-- The glyph of a code, the first range beginning at `glyph`. A range that runs past the last code
-- still takes up a glyph for each of its places.
def CodeRange.glyphOf? (code : Nat) : List CodeRange → Nat → Option Nat
  | [], _ => none
  | range :: rest, glyph =>
      if range.first ≤ code ∧ code ≤ range.first + range.left then some (glyph + code - range.first)
      else glyphOf? code rest (glyph + range.left + 1)

inductive CodeTable where
  | codes (stored : List Nat)
  | ranges (stored : List CodeRange)
deriving DecidableEq, Repr

def CodeTable.glyphOf? : CodeTable → Nat → Option Nat
  | .codes stored, code => (stored.findIdx? (· == code)).map (· + 1)
  | .ranges stored, code => CodeRange.glyphOf? code stored 1

structure CustomEncoding where
  table : CodeTable
  supplements : List Supplement
deriving DecidableEq, Repr

namespace CustomEncoding

def readCounted {α : Type} (field : Field α) : Reader (List α) := do
  let count ← Field.u8.read
  field.readArray count

def readTable (format : Nat) : Reader CodeTable :=
  match format with
  | 0 => CodeTable.codes <$> readCounted Field.u8
  | 1 => CodeTable.ranges <$> readCounted CodeRange.field
  | _ => throw .badValue

def read : Reader CustomEncoding := do
  let format ← Field.u8.read
  let table ← readTable (format % 128)
  let supplements ← if 128 ≤ format then readCounted Supplement.field else pure []
  pure { table, supplements }

end CustomEncoding

inductive Encoding where
  | standard
  | expert
  | custom (encoding : CustomEncoding)
deriving DecidableEq, Repr

namespace Encoding

def glyphOfNameId (charset : Charset) (id : Nat) : Nat := (charset.glyphOfNameId id).toOption.getD 0

def glyphOf (encoding : Encoding) (charset : Charset) (code : Nat) : Nat :=
  match encoding with
  | .standard => glyphOfNameId charset (standardEncoding[code]?.getD 0)
  | .expert => glyphOfNameId charset (expertEncoding[code]?.getD 0)
  | .custom encoding =>
      match encoding.supplements.find? fun supplement => supplement.code = code with
      | some supplement => glyphOfNameId charset supplement.nameId
      | none => ((encoding.table.glyphOf? code).bind asId?).getD 0

end Encoding

end CompactFont
