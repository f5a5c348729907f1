import Mathlib.Data.List.Forall2
import Mathlib.Data.List.Induction
import CompactFont.CursorStack
import CompactFont.Proofs.Spelling

set_option autoImplicit false

namespace CompactFont

theorem to_big_endian_big_endian (bytes : Bytes) : toBigEndian bytes.length (bigEndian bytes) = bytes := by
  induction bytes using List.reverseRecOn with
  | nil => rfl
  | append_singleton front last ih =>
      have small := last.toNat_lt
      have high : (bigEndian front * 256 + last.toNat) / 256 = bigEndian front := by omega
      have low : UInt8.ofNat (bigEndian front * 256 + last.toNat) = last := by
        rw [← UInt8.toNat_inj, UInt8.toNat_ofNat']
        omega
      rw [big_endian_append_singleton, List.length_append, List.length_singleton, toBigEndian, high,
        low, ih]

theorem twos_complement_signed_big_endian (bytes : Bytes) :
    twosComplement bytes.length (signedBigEndian bytes) = bytes := by
  have small := big_endian_lt bytes
  have same : (signedBigEndian bytes % byteSpan bytes.length).toNat = bigEndian bytes := by
    rw [signedBigEndian, Int.bmod_emod, ← Int.natCast_emod, Int.toNat_natCast,
      Nat.mod_eq_of_lt small]
  rw [twosComplement, same, to_big_endian_big_endian]

namespace ItemLayout

inductive Writes : ItemLayout → Bytes → ItemValue → Prop
  | unsigned {size number : Nat} (small : number < byteSpan size) :
      Writes (.unsigned size) (toBigEndian size number) (.number number)
  | signed {size : Nat} {value : Int} (low : -(byteSpan size : Int) ≤ value * 2)
      (high : value * 2 < byteSpan size) :
      Writes (.signed size) (twosComplement size value) (.number value)
  | pair {first second : ItemLayout} {front back : Bytes} {one other : ItemValue}
      (before : Writes first front one) (behind : Writes second back other) :
      Writes (.pair first second) (front ++ back) (.pair one other)

variable {layout : ItemLayout} {bytes : Bytes}

theorem writes_unsigned (bytes : Bytes) :
    Writes (.unsigned bytes.length) bytes (.number (bigEndian bytes)) := by
  have written := Writes.unsigned (big_endian_lt bytes)
  rwa [to_big_endian_big_endian] at written

theorem writes_signed (bytes : Bytes) :
    Writes (.signed bytes.length) bytes (.number (signedBigEndian bytes)) := by
  have positive : 0 < byteSpan bytes.length := Nat.lt_of_le_of_lt (Nat.zero_le _) (big_endian_lt bytes)
  have low : -(byteSpan bytes.length / 2 : Int) ≤ signedBigEndian bytes := Int.le_bmod positive
  have high : signedBigEndian bytes < (byteSpan bytes.length + 1) / 2 := Int.bmod_lt positive
  have written := @Writes.signed bytes.length (signedBigEndian bytes) (by omega) (by omega)
  rwa [twos_complement_signed_big_endian] at written

theorem writes_decode (sized : bytes.length = layout.field.size) :
    layout.Writes bytes (layout.field.decode bytes) := by
  induction layout generalizing bytes with
  | unsigned size =>
      obtain rfl : bytes.length = size := sized
      exact writes_unsigned bytes
  | signed size =>
      obtain rfl : bytes.length = size := sized
      exact writes_signed bytes
  | pair first second ihFirst ihSecond =>
      have total : bytes.length = first.field.size + second.field.size := sized
      have front : (bytes.take first.field.size).length = first.field.size := by
        rw [List.length_take]
        omega
      have back : (bytes.drop first.field.size).length = second.field.size := by
        rw [List.length_drop]
        omega
      have written := Writes.pair (ihFirst front) (ihSecond back)
      rwa [List.take_append_drop] at written

-- By induction on the items, the bytes of the first in front.
theorem exists_pieces {count : Nat} (sized : bytes.length = count * layout.field.size) :
    ∃ pieces : List Bytes, pieces.flatten = bytes ∧
      List.Forall₂ layout.Writes pieces (layout.field.items count bytes) := by
  induction count generalizing bytes with
  | zero =>
      rw [Nat.zero_mul, List.length_eq_zero_iff] at sized
      exact ⟨[], sized.symm, .nil⟩
  | succ count ih =>
      rw [Nat.succ_mul] at sized
      have first : (bytes.take layout.field.size).length = layout.field.size := by
        rw [List.length_take]
        omega
      have others : (bytes.drop layout.field.size).length = count * layout.field.size := by
        rw [List.length_drop]
        omega
      obtain ⟨pieces, rest, written⟩ := ih others
      refine ⟨bytes.take layout.field.size :: pieces, ?_, .cons (writes_decode first) written⟩
      rw [List.flatten_cons, rest, List.take_append_drop]

end ItemLayout

end CompactFont
