import CompactFont.Index
import CompactFont.Name.Standard

set_option autoImplicit false

namespace CompactFont

def maxId : Nat := 0xffff

def asId? (number : Nat) : Option Nat := if number ≤ maxId then some number else none

structure Strings where
  custom : Index

namespace Strings

def count (strings : Strings) : Nat := standardStrings.size + strings.custom.count

def lookup? (strings : Strings) (id : Nat) : Option String :=
  match standardStrings[id]? with
  | some string => some string
  | none => (strings.custom.get? (id - standardStrings.size)).map latin1

def get (strings : Strings) (id : Nat) : String :=
  (strings.lookup? id).getD ("SID" ++ toString id)

def idOf? (strings : Strings) (name : String) : Option Nat :=
  match standardStrings.findIdx? (· == name) with
  | some id => some id
  | none =>
      (strings.custom.toList.findIdx? fun bytes => latin1 bytes == name).bind
        fun place => asId? (place + standardStrings.size)

end Strings

end CompactFont
