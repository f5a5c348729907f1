import CompactFont.Cursor

set_option autoImplicit false

namespace CompactFont

structure PackedArray {α : Type} (field : Field α) where
  window : Window
  count : Nat
deriving DecidableEq, Repr

namespace PackedArray

variable {α : Type} {field : Field α}

def isEmpty (array : PackedArray field) : Bool := array.count == 0

def checkIndex (array : PackedArray field) (index : Nat) : Except ReadError Unit :=
  Reader.checkIndex array.count index

def get? (array : PackedArray field) (index : Nat) : Option α :=
  if index < array.count then
    match array.window.part (index * field.size) field.size with
    | .ok piece => ((Cursor.decode field).perform (.ofWindow piece)).1.toOption
    | .error _ => none
  else none

def next? (array : PackedArray field) (index : Nat) : Option α :=
  let rest := array.window.startingAt (index * field.size)
  ((Cursor.takeValue field).perform (.ofWindow rest)).1.toOption

def itemsFrom (array : PackedArray field) : Nat → Nat → List α
  | _, 0 => []
  | index, left + 1 =>
      match array.next? index with
      | some item => item :: itemsFrom array (index + 1) left
      | none => []

def toList (array : PackedArray field) : List α := array.itemsFrom 0 array.count

end PackedArray

namespace Cursor

variable {α : Type}

def takeArray (field : Field α) (count : Nat) : Steps Cursor (PackedArray field) := do
  if Field.maxArraySize < count * field.size then throw .limitExceeded
  else
    let window ← takeWindow (count * field.size)
    pure ⟨window, count⟩

end Cursor

end CompactFont
