import CompactFont.Field

set_option autoImplicit false

namespace CompactFont

structure Header where
  major : Nat
  minor : Nat
  size : Nat
  offsetSize : Nat
deriving DecidableEq, Repr

def Header.read : Reader Header := do
  let major ← Field.u8.read
  if major = 1 then
    let minor ← Field.u8.read
    let size ← Field.u8.read
    let offsetSize ← Field.u8.read
    if 4 ≤ size ∧ 1 ≤ offsetSize ∧ offsetSize ≤ 4 then
      let _ ← Reader.take (size - 4)
      pure { major, minor, size, offsetSize }
    else throw .badValue
  else throw .badVersion

end CompactFont
