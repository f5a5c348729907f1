import CompactFont.Window

set_option autoImplicit false

namespace CompactFont

structure TableRecord where
  tag : Tag
  checksum : Nat
  offset : Nat
  length : Nat
deriving DecidableEq, Repr

structure TableDirectory where
  version : Tag
  searchRange : Nat
  entrySelector : Nat
  rangeShift : Nat
  records : List TableRecord
deriving Repr

namespace TableRecord

def field : Field TableRecord :=
  ((Field.u32.pair Field.u32).pair (Field.u32.pair Field.u32)).map
    fun ((tag, checksum), (offset, length)) => ⟨⟨tag⟩, checksum, offset, length⟩

def table (record : TableRecord) (container : Window) : Except ReadError Window :=
  container.part record.offset record.length

end TableRecord

namespace TableDirectory

def unsupported : List Tag := [.trueTypeOne, .collection, .trueTypeApple]

def read : Reader TableDirectory := do
  let version : Tag := ⟨← Field.u32.read⟩
  if version = .openType then
    let count ← Field.u16.read
    let searchRange ← Field.u16.read
    let entrySelector ← Field.u16.read
    let rangeShift ← Field.u16.read
    let records ← TableRecord.field.readArray count
    pure { version, searchRange, entrySelector, rangeShift, records }
  else if version ∈ unsupported then throw (.unsupportedContainer version)
  else throw .badVersion

def find? (directory : TableDirectory) (tag : Tag) : Option TableRecord :=
  directory.records.find? fun record => record.tag = tag

end TableDirectory

def Window.fontProgram (data : Window) : Except ReadError Window :=
  match data.read Field.u32.read with
  | .error _ => .ok data
  | .ok magic =>
      if (⟨magic⟩ : Tag) ∈ Tag.openType :: TableDirectory.unsupported then do
        let directory ← data.read TableDirectory.read
        match directory.find? .compactFont with
        | some record => record.table data
        | none => throw (.missingTable .compactFont)
      else .ok data

end CompactFont
