import CompactFont.Font.Load

set_option autoImplicit false

namespace CompactFont

structure Collection where
  registry : String
  ordering : String
  supplement : Int
deriving DecidableEq, Repr

structure FontInfo where
  name : String
  version : Option String
  notice : Option String
  copyright : Option String
  fullName : Option String
  familyName : Option String
  weight : Option String
  isFixedPitch : Bool
  italicAngle : Float
  underlinePosition : Float
  underlineThickness : Float
  box : List Float
  matrix : Matrix
  charstringType : Int
  collection : Option Collection

namespace Font

def dictStringId? {kind : Dict.Kind} (dict : Dict kind) (operator : Dict.Operator) :
    Except ReadError (Option Nat) :=
  match dict.find? operator with
  | none => .ok none
  | some [.integer value] => some <$> stringId value
  | some _ => .error .badValue

def dictString? {kind : Dict.Kind} (font : Font) (dict : Dict kind) (operator : Dict.Operator) :
    Except ReadError (Option String) :=
  (Option.map font.strings.get) <$> dictStringId? dict operator

def collection? (font : Font) : Option Collection :=
  font.cidData?.map fun data =>
    { registry := font.strings.get data.registry
      ordering := font.strings.get data.ordering
      supplement := data.supplement }

def topNumber (font : Font) (operator : Dict.Operator) : Attempt ReadError Float := do
  match ← font.top.number? operator with
  | some number => pure number
  | none => throw .missingValue

def info (font : Font) : Attempt ReadError FontInfo := do
  let box ← font.top.numbers? .fontBBox
  let version ← font.dictString? font.top .version
  let notice ← font.dictString? font.top .notice
  let copyright ← font.dictString? font.top .copyright
  let fullName ← font.dictString? font.top .fullName
  let familyName ← font.dictString? font.top .familyName
  let weight ← font.dictString? font.top .weight
  let fixedPitch ← font.top.requiredInteger .isFixedPitch
  let italicAngle ← font.topNumber .italicAngle
  let underlinePosition ← font.topNumber .underlinePosition
  let underlineThickness ← font.topNumber .underlineThickness
  let box := box.getD []
  if box.length ≠ 4 then throw .badValue
  let charstringType ← font.top.requiredInteger .charstringType
  pure
    { name := font.name
      version, notice, copyright, fullName, familyName, weight
      isFixedPitch := fixedPitch ≠ 0
      italicAngle, underlinePosition, underlineThickness, box
      matrix := font.matrix
      charstringType
      collection := font.collection? }

def fontDictName? (font : Font) (place : Nat) : Except ReadError (Option String) :=
  match font.cidData? with
  | none => .error .wrongKind
  | some data => do
      let fontDict ← data.fontDict place
      font.dictString? fontDict .fontName

end Font

end CompactFont
