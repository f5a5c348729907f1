import CompactFont.Charset.Predefined
import CompactFont.Field
import CompactFont.Name.Strings

set_option autoImplicit false

namespace CompactFont

structure IdRange where
  first : Nat
  left : Nat
deriving DecidableEq, Repr

namespace IdRange

def size (range : IdRange) : Nat := range.left + 1

def field (wide : Bool) : Field IdRange :=
  (Field.u16.pair (if wide then Field.u16 else Field.u8)).map fun (first, left) => ⟨first, left⟩

def ids (range : IdRange) : List Nat :=
  List.range' range.first (min (range.first + range.left) maxId + 1 - range.first)

def idAt? : List IdRange → Nat → Option Nat
  | [], _ => none
  | range :: rest, position =>
      if position ≤ range.left then asId? (range.first + position)
      else idAt? rest (position - range.size)

def glyphOf? (id : Nat) : List IdRange → Nat → Option Nat
  | [], _ => none
  | range :: rest, glyph =>
      if range.first ≤ id ∧ id ≤ range.first + range.left then asId? (glyph + id - range.first)
      else glyphOf? id rest (glyph + range.size)

def countCovering (wide : Bool) (needed covered count : Nat) : Reader Nat :=
  if covered < needed then do
    let range ← (field wide).read
    countCovering wide needed (covered + range.size) (count + 1)
  else pure count
termination_by needed - covered
decreasing_by
  simp only [size]
  omega

-- The ranges are counted on a reader of its own and then read from where that one started.
def readCovering (wide : Bool) (needed : Nat) : Reader (List IdRange) := fun bytes => do
  let (count, _) ← countCovering wide needed 0 0 bytes
  (field wide).readArray count bytes

end IdRange

inductive CustomCharset where
  | ids (stored : Array Nat)
  | ranges (wide : Bool) (stored : List IdRange)
deriving DecidableEq, Repr

namespace CustomCharset

def read (glyphs : Nat) : Reader CustomCharset :=
  if glyphs = 0 then throw .badValue
  else do
    match ← Field.u8.read with
    | 0 => (ids ·.toArray) <$> Field.u16.readArray (glyphs - 1)
    | 1 => ranges false <$> IdRange.readCovering false (glyphs - 1)
    | 2 => ranges true <$> IdRange.readCovering true (glyphs - 1)
    | _ => throw .badValue

def toList : CustomCharset → List Nat
  | .ids stored => 0 :: stored.toList
  | .ranges _ stored => 0 :: stored.flatMap IdRange.ids

def idOf? (charset : CustomCharset) (glyph : Nat) : Option Nat :=
  if glyph = 0 then some 0
  else
    match charset with
    | .ids stored => stored[glyph - 1]?
    | .ranges _ stored => IdRange.idAt? stored (glyph - 1)

def glyphOf? (charset : CustomCharset) (id : Nat) : Option Nat :=
  if id = 0 then some 0
  else
    match charset with
    | .ids stored => (stored.findIdx? (· == id)).bind fun place => asId? (place + 1)
    | .ranges _ stored => IdRange.glyphOf? id stored 1

end CustomCharset

inductive Charset where
  | isoAdobe
  | expert
  | expertSubset
  | custom (charset : CustomCharset)
  | identity (glyphs : Nat)
  | cid (charset : CustomCharset)
deriving DecidableEq, Repr

namespace Charset

def isCid : Charset → Bool
  | .identity _ => true
  | .cid _ => true
  | _ => false

def idOf? : Charset → Nat → Option Nat
  | .isoAdobe, glyph => if glyph ≤ isoAdobeLast then some glyph else none
  | .expert, glyph => expertCharset[glyph]?
  | .expertSubset, glyph => expertSubsetCharset[glyph]?
  | .custom charset, glyph => charset.idOf? glyph
  | .identity glyphs, glyph => if glyph < glyphs then some glyph else none
  | .cid charset, glyph => charset.idOf? glyph

def glyphOf? (charset : Charset) (id : Nat) : Option Nat :=
  if id = 0 then some 0
  else
    match charset with
    | .isoAdobe => if id ≤ isoAdobeLast then some id else none
    | .expert => (expertCharset.findIdx? (· == id)).bind asId?
    | .expertSubset => (expertSubsetCharset.findIdx? (· == id)).bind asId?
    | .custom charset => charset.glyphOf? id
    | .identity glyphs => if id < glyphs then some id else none
    | .cid charset => charset.glyphOf? id

def requireNames (charset : Charset) : Except ReadError Unit :=
  if charset.isCid then .error .wrongKind else .ok ()

def requireCids (charset : Charset) : Except ReadError Unit :=
  if charset.isCid then .ok () else .error .wrongKind

def nameIdOf (charset : Charset) (glyph : Nat) : Except ReadError Nat := do
  charset.requireNames
  pure ((charset.idOf? glyph).getD 0)

def glyphOfNameId (charset : Charset) (id : Nat) : Except ReadError Nat := do
  charset.requireNames
  pure ((charset.glyphOf? id).getD 0)

def cidOf (charset : Charset) (glyph : Nat) : Except ReadError Nat := do
  charset.requireCids
  pure ((charset.idOf? glyph).getD 0)

def glyphOfCid (charset : Charset) (cid : Nat) : Except ReadError Nat := do
  charset.requireCids
  pure ((charset.glyphOf? cid).getD 0)

def nameOf? (charset : Charset) (strings : Strings) (glyph : Nat) :
    Except ReadError (Option String) := do
  charset.requireNames
  pure ((charset.idOf? glyph).map strings.get)

def nameId (charset : Charset) (strings : Strings) (name : String) : Except ReadError Nat := do
  charset.requireNames
  pure ((strings.idOf? name).getD 0)

def glyphOfName (charset : Charset) (strings : Strings) (name : String) :
    Except ReadError Nat := do
  let id ← charset.nameId strings name
  if id = 0 then pure 0 else charset.glyphOfNameId id

end Charset

end CompactFont
