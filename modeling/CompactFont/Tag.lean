import CompactFont.Bytes

set_option autoImplicit false

namespace CompactFont

structure Tag where
  code : Nat
deriving DecidableEq, Repr

namespace Tag

def openType : Tag := ⟨0x4f54544f⟩

def trueTypeOne : Tag := ⟨0x00010000⟩

def trueTypeApple : Tag := ⟨0x74727565⟩

def collection : Tag := ⟨0x74746366⟩

def compactFont : Tag := ⟨0x43464620⟩

def characters (tag : Tag) : List Char :=
  (toBigEndian 4 tag.code).map fun byte => Char.ofNat byte.toNat

def hexDigits (width number : Nat) : List Char :=
  (Nat.toDigits 16 number).leftpad width '0'

def text (tag : Tag) : String :=
  if tag.characters.all fun c => 0x20 ≤ c.toNat && c.toNat < 0x7f then
    String.ofList tag.characters
  else "0x" ++ String.ofList (hexDigits 8 tag.code)

def quoted (tag : Tag) : String :=
  let inner := tag.text.toList.flatMap fun c => if c = '"' ∨ c = '\\' then ['\\', c] else [c]
  String.ofList ('"' :: inner ++ ['"'])

example : compactFont.text = "CFF " ∧ trueTypeOne.text = "0x00010000" := by decide

end Tag

end CompactFont
