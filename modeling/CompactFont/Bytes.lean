set_option autoImplicit false

namespace CompactFont

abbrev Bytes := List UInt8

def bigEndian (bytes : Bytes) : Nat :=
  bytes.foldl (fun total byte => total * 256 + byte.toNat) 0

def byteSpan (width : Nat) : Nat := Nat.pow 256 width

def signedBigEndian (bytes : Bytes) : Int :=
  Int.bmod (bigEndian bytes) (byteSpan bytes.length)

-- The `width` bytes of a number, the high bytes of a larger one dropped.
def toBigEndian : Nat → Nat → Bytes
  | 0, _ => []
  | width + 1, number => toBigEndian width (number / 256) ++ [UInt8.ofNat number]

def latin1 (bytes : Bytes) : String :=
  String.ofList (bytes.map fun byte => Char.ofNat byte.toNat)

theorem byte_span_zero : byteSpan 0 = 1 := rfl

theorem byte_span_succ (width : Nat) : byteSpan (width + 1) = byteSpan width * 256 := rfl

theorem big_endian_append_singleton (bytes : Bytes) (byte : UInt8) :
    bigEndian (bytes ++ [byte]) = bigEndian bytes * 256 + byte.toNat := by
  simp [bigEndian]

theorem foldl_big_endian_lt (bytes : Bytes) (total : Nat) :
    bytes.foldl (fun total byte => total * 256 + byte.toNat) total
      < (total + 1) * byteSpan bytes.length := by
  induction bytes generalizing total with
  | nil => simp [byte_span_zero]
  | cons byte rest ih =>
      have small := byte.toNat_lt
      have step : (total * 256 + byte.toNat + 1) * byteSpan rest.length
          ≤ (total + 1) * 256 * byteSpan rest.length := Nat.mul_le_mul_right _ (by omega)
      have next := ih (total * 256 + byte.toNat)
      rw [List.foldl_cons, List.length_cons, byte_span_succ, Nat.mul_comm (byteSpan _) 256,
        ← Nat.mul_assoc]
      exact Nat.lt_of_lt_of_le next step

theorem big_endian_lt (bytes : Bytes) : bigEndian bytes < byteSpan bytes.length := by
  simpa [bigEndian] using foldl_big_endian_lt bytes 0

theorem length_to_big_endian (width number : Nat) : (toBigEndian width number).length = width := by
  induction width generalizing number with
  | zero => rfl
  | succ width ih => simp [toBigEndian, ih]

theorem big_endian_to_big_endian (width number : Nat) :
    bigEndian (toBigEndian width number) = number % byteSpan width := by
  induction width generalizing number with
  | zero => simp [toBigEndian, bigEndian, byte_span_zero, Nat.mod_one]
  | succ width ih =>
      rw [toBigEndian, big_endian_append_singleton, ih, byte_span_succ, Nat.mul_comm (byteSpan width),
        Nat.mod_mul]
      simp [UInt8.toNat_ofNat']
      omega

end CompactFont
