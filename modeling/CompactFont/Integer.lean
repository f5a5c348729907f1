import CompactFont.Field

set_option autoImplicit false

namespace CompactFont.Integer

def read (first : Nat) : Reader Int :=
  if first < 32 then throw .badValue
  else if first ≤ 246 then pure (first - 139)
  else if first ≤ 250 then do
    let second ← Field.u8.read
    pure ((first - 247) * 256 + second + 108)
  else if first ≤ 254 then do
    let second ← Field.u8.read
    pure (-(first - 251) * 256 - second - 108)
  else throw .badValue

theorem consumes_read (first : Nat) : Reader.Consumes 0 (read first) := by
  have second := Reader.consumes_mono (Nat.zero_le _) (Field.consumes_read Field.u8)
  unfold read
  split
  · exact Reader.consumes_throw _ _
  · split
    · exact Reader.consumes_pure _
    · split
      · exact Reader.consumes_bind second fun _ => Reader.consumes_pure _
      · split
        · exact Reader.consumes_bind second fun _ => Reader.consumes_pure _
        · exact Reader.consumes_throw _ _

end CompactFont.Integer
