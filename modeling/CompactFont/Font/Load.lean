import CompactFont.Container
import CompactFont.Font.Basic

set_option autoImplicit false

namespace CompactFont

def stringId (value : Int) : Except ReadError Nat :=
  if 0 ≤ value ∧ value ≤ maxId then .ok value.toNat else .error .badValue

def Window.readAt {α : Type} (program : Window) (offset : Int) (reader : Reader α) :
    Except ReadError α := do
  let offset ← Dict.natural offset
  (program.startingAt offset).read reader

-- A number as a 32-bit integer, toward zero; the nearest such integer for one outside.
def clampedInteger (number : Float) : Int := number.toInt32.toInt

namespace PrivateData

def readSubrs (program : Window) (dict : Dict .privateData) (dictOffset : Nat) :
    Except ReadError (Option Index) := do
  match ← dict.integer? .subrs with
  | some offset =>
      if 0 < offset then some <$> program.readAt (dictOffset + offset) Index.read else pure none
  | none => pure none

def read {kind : Dict.Kind} (program : Window) (dict : Dict kind) :
    Attempt ReadError PrivateData := do
  let (privateDict, offset) ← dict.readPrivate program
  let subrs? ← readSubrs program privateDict offset
  pure { dict := privateDict, subrs? }

end PrivateData

namespace FontDicts

def empty : FontDicts := ⟨#[], #[], #[]⟩

def add (program : Window) (fontDicts : FontDicts) (object : Bytes) :
    Attempt ReadError FontDicts := do
  let dict ← Dict.ofBytes object
  let privateData ← PrivateData.read program dict
  pure
    { dicts := fontDicts.dicts.push dict
      privateDicts := fontDicts.privateDicts.push privateData.dict
      subrs := fontDicts.subrs.push privateData.subrs? }

def read (program : Window) (objects : List Bytes) : Attempt ReadError FontDicts :=
  objects.foldlM (add program) empty

end FontDicts

namespace CidData

def readCollection (top : Dict .top) : Attempt ReadError (Nat × Nat × Int) :=
  match top.find? .ros with
  | some [.integer registry, .integer ordering, supplement] => do
      let registry ← stringId registry
      let ordering ← stringId ordering
      let supplement ← supplement.toFloat
      pure (registry, ordering, clampedInteger supplement)
  | _ => throw .badValue

def read (program : Window) (top : Dict .top) (glyphs : Nat) : Attempt ReadError CidData := do
  let (registry, ordering, supplement) ← readCollection top
  let index ← program.readAt (← top.requiredInteger .fdArray) Index.read
  if index.isEmpty then throw .missingValue
  let select ← program.readAt (← top.requiredInteger .fdSelect) (FontDictSelect.read glyphs)
  let fontDicts ← FontDicts.read program index.toList
  pure { registry, ordering, supplement, index, fontDicts, select }

end CidData

def Encoding.load (program : Window) (top : Dict .top) : Except ReadError Encoding := do
  match ← top.requiredInteger .encoding with
  | 0 => pure .standard
  | 1 => pure .expert
  | offset => custom <$> program.readAt offset CustomEncoding.read

def Charset.load (program : Window) (top : Dict .top) (glyphs : Nat) (isCid : Bool) :
    Except ReadError Charset :=
  let located (offset : Int) : Except ReadError Charset := do
    if isCid then cid <$> program.readAt offset (CustomCharset.read glyphs)
    else
      match offset with
      | 0 => pure .isoAdobe
      | 1 => pure .expert
      | 2 => pure .expertSubset
      | _ => custom <$> program.readAt offset (CustomCharset.read glyphs)
  match top.find? .charset with
  | none => .ok (if isCid then .identity glyphs else .isoAdobe)
  | some [.integer offset] => located offset
  | some [.offset offset] => located offset
  | some _ => .error .badValue

namespace Font

def readMatrix? {kind : Dict.Kind} (dict : Dict kind) : Attempt ReadError (Option Matrix) :=
  match dict.find? .fontMatrix with
  | none => pure none
  | some operands => some <$> Matrix.ofOperands operands

def combineMatrices : Option Matrix → Option Matrix → Option Matrix
  | some outer, some inner => some (outer.andThen inner)
  | outer, inner => outer <|> inner

def readKeying (program : Window) (top : Dict .top) (glyphs : Nat) :
    Attempt ReadError (Keying × Option Matrix) := do
  if (top.find? .ros).isSome then
    let data ← CidData.read program top glyphs
    let inner ←
      match data.fontDicts.dicts[0]? with
      | some first => readMatrix? first
      | none => pure none
    pure (.cids data, inner)
  else
    let privateData ← PrivateData.read program top
    let encoding ← Encoding.load program top
    pure (.names encoding privateData, none)

def load (program : Window) (name : String) (top : Dict .top) (globalSubrs : Index)
    (strings : Strings) : Attempt ReadError Font := do
  if (top.find? .syntheticBase).isSome then throw .notImplemented
  let charstrings ← program.readAt (← top.requiredInteger .charStrings) Index.read
  if charstrings.isEmpty then throw .missingValue
  let dialect ← Dialect.ofNumber (← top.requiredInteger .charstringType)
  let outer ← readMatrix? top
  let (keying, inner) ← readKeying program top charstrings.count
  let charset ← Charset.load program top charstrings.count (top.find? .ros).isSome
  let matrix := (combineMatrices outer inner).getD .perThousand
  pure { name, top, charstrings, charset, keying, matrix, dialect, globalSubrs, strings }

end Font

namespace FontProgram

structure Opening where
  header : Header
  names : Index
  tops : Index
  strings : Index
  globalSubrs : Index

def Opening.read : Reader Opening := do
  let header ← Header.read
  let names ← Index.read
  let tops ← Index.read
  let strings ← Index.read
  let globalSubrs ← Index.read
  pure { header, names, tops, strings, globalSubrs }

def readFont (program : Window) (opening : Opening) (place : Nat) : Attempt ReadError Font := do
  let name ← opening.names.object place
  let data ← opening.tops.object place
  let top ← Dict.ofBytes data
  Font.load program (latin1 name) top opening.globalSubrs ⟨opening.strings⟩

def read (program : Window) : Attempt ReadError FontProgram := do
  let opening ← program.read Opening.read
  if opening.names.isEmpty || opening.tops.isEmpty then throw .missingValue
  let fonts ← (List.range opening.names.count).mapM (readFont program opening)
  pure
    { header := opening.header
      names := opening.names
      strings := opening.strings
      globalSubrs := opening.globalSubrs
      fonts
      data := program.data }

def ofBytes (data : Bytes) : Attempt ReadError FontProgram := do
  let program ← (Window.whole data).fontProgram
  read program

def string (program : FontProgram) (id : Nat) : String := Strings.get ⟨program.strings⟩ id

end FontProgram

end CompactFont
