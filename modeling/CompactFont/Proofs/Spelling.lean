import CompactFont.Integer
import CompactFont.Proofs.Reading

set_option autoImplicit false

namespace CompactFont

def twosComplement (width : Nat) (value : Int) : Bytes :=
  toBigEndian width (value % byteSpan width).toNat

theorem big_endian_of_lt {width number : Nat} (small : number < byteSpan width) :
    bigEndian (toBigEndian width number) = number := by
  rw [big_endian_to_big_endian, Nat.mod_eq_of_lt small]

theorem length_twos_complement (width : Nat) (value : Int) :
    (twosComplement width value).length = width := length_to_big_endian _ _

theorem signed_big_endian_twos_complement {width : Nat} {value : Int}
    (low : -(byteSpan width : Int) ≤ value * 2) (high : value * 2 < byteSpan width) :
    signedBigEndian (twosComplement width value) = value := by
  have positive : (0 : Int) < byteSpan width := by omega
  have least := Int.emod_nonneg value (Int.ne_of_gt positive)
  have small := Int.emod_lt_of_pos value positive
  have fits : (value % byteSpan width).toNat < byteSpan width := by omega
  rw [signedBigEndian, length_twos_complement, twosComplement, big_endian_of_lt fits,
    Int.toNat_of_nonneg least, Int.emod_bmod]
  exact Int.bmod_eq_of_le_mul_two low high

theorem twos_complement_natural {width number : Nat} (small : number < byteSpan width) :
    twosComplement width number = toBigEndian width number := by
  have same : ((number : Int) % byteSpan width).toNat = number := by
    rw [← Int.natCast_emod, Int.toNat_natCast, Nat.mod_eq_of_lt small]
  rw [twosComplement, same]

theorem to_big_endian_one (byte : UInt8) : toBigEndian 1 byte.toNat = [byte] := by
  simp [toBigEndian]

namespace Reader

variable {α β : Type} {reader : Reader α} {bytes : Bytes} {value : α}

-- The reader takes these bytes for this value, whatever bytes follow them.
def Reads (reader : Reader α) (bytes : Bytes) (value : α) : Prop :=
  ∀ tail, reader (bytes ++ tail) = .ok (value, tail)

theorem reads_pure (value : α) : Reads (pure value) [] value := fun _ => rfl

theorem reads_bind {next : α → Reader β} {more : Bytes} {result : β}
    (first : Reads reader bytes value) (second : Reads (next value) more result) :
    Reads (reader >>= next) (bytes ++ more) result := by
  intro tail
  rw [List.append_assoc]
  rw [bind_of_ok (first (more ++ tail))]
  exact second tail

theorem reads_map (f : α → β) (read : Reads reader bytes value) :
    Reads (f <$> reader) bytes (f value) := by
  rw [map_eq_pure_bind, ← List.append_nil bytes]
  exact reads_bind read (reads_pure (f value))

theorem reads_take (bytes : Bytes) : Reads (take bytes.length) bytes bytes := take_append bytes

theorem reads_take_through_nibble {nibble : Nat} {front : Bytes} {last : UInt8}
    (without : ∀ byte ∈ front, byte.toNat / 16 ≠ nibble ∧ byte.toNat % 16 ≠ nibble)
    (has : last.toNat / 16 = nibble ∨ last.toNat % 16 = nibble) :
    Reads (takeThroughNibble nibble) (front ++ [last]) (front ++ [last]) := by
  intro tail
  have found : ((front ++ [last]) ++ tail).findIdx?
      (fun byte => byte.toNat / 16 == nibble || byte.toNat % 16 == nibble) = some front.length := by
    have none : front.findIdx?
        (fun byte => byte.toNat / 16 == nibble || byte.toNat % 16 == nibble) = none := by
      rw [List.findIdx?_eq_none_iff]
      intro byte member
      simp [without byte member]
    simp [List.findIdx?_append, List.findIdx?_cons, none, has]
  have length : front.length + 1 = (front ++ [last]).length := by simp
  simp only [takeThroughNibble, found, length]
  exact take_append _ _

end Reader

namespace Field

open Reader

variable {α β : Type} {field : Field α} {bytes : Bytes} {value : α}

structure Spells (field : Field α) (bytes : Bytes) (value : α) : Prop where
  sized : bytes.length = field.size
  means : field.decode bytes = value

theorem Spells.reads (spells : field.Spells bytes value) : Reads field.read bytes value := by
  have taken := reads_map field.decode (reads_take bytes)
  rwa [spells.sized, spells.means] at taken

theorem Spells.pair {other : Field β} {more : Bytes} {last : β} (first : field.Spells bytes value)
    (second : other.Spells more last) : (field.pair other).Spells (bytes ++ more) (value, last) where
  sized := by rw [List.length_append, first.sized, second.sized, Field.pair]
  means := by
    simp only [Field.pair, List.take_left' first.sized, List.drop_left' first.sized, first.means,
      second.means]

theorem Spells.map (f : α → β) (spells : field.Spells bytes value) :
    (field.map f).Spells bytes (f value) :=
  ⟨spells.sized, congrArg f spells.means⟩

theorem spells_unsigned {size number : Nat} (small : number < byteSpan size) :
    (unsigned size).Spells (toBigEndian size number) number :=
  ⟨length_to_big_endian size number, big_endian_of_lt small⟩

theorem spells_signed {size : Nat} {value : Int} (low : -(byteSpan size : Int) ≤ value * 2)
    (high : value * 2 < byteSpan size) : (signed size).Spells (twosComplement size value) value :=
  ⟨length_twos_complement size value, signed_big_endian_twos_complement low high⟩

theorem reads_u8 (byte : UInt8) : Reads u8.read [byte] byte.toNat := by
  rw [← to_big_endian_one]
  exact (spells_unsigned byte.toNat_lt).reads

theorem reads_unsigned {size number : Nat} (small : number < byteSpan size) :
    Reads (unsigned size).read (toBigEndian size number) number :=
  (spells_unsigned small).reads

theorem reads_signed {size : Nat} {value : Int} (low : -(byteSpan size : Int) ≤ value * 2)
    (high : value * 2 < byteSpan size) : Reads (signed size).read (twosComplement size value) value :=
  (spells_signed low high).reads

section Arrays

variable {write : α → Bytes} {values : List α}

theorem length_flat_map_of_spells (spells : ∀ value ∈ values, field.Spells (write value) value) :
    (values.flatMap write).length = values.length * field.size := by
  induction values with
  | nil => simp
  | cons value rest ih =>
      have later := ih fun other member => spells other (List.mem_cons_of_mem _ member)
      rw [List.flatMap_cons, List.length_append, later, (spells value List.mem_cons_self).sized,
        List.length_cons, Nat.succ_mul, Nat.add_comm]

theorem items_of_spells (spells : ∀ value ∈ values, field.Spells (write value) value) :
    field.items values.length (values.flatMap write) = values := by
  induction values with
  | nil => rfl
  | cons value rest ih =>
      have first := spells value List.mem_cons_self
      have later := ih fun other member => spells other (List.mem_cons_of_mem _ member)
      rw [List.flatMap_cons, List.length_cons, items, List.take_left' first.sized,
        List.drop_left' first.sized, first.means, later]

theorem reads_array (spells : ∀ value ∈ values, field.Spells (write value) value)
    (fits : values.length * field.size ≤ maxArraySize) :
    Reads (field.readArray values.length) (values.flatMap write) values := by
  have taken := reads_map (field.items values.length) (reads_take (values.flatMap write))
  rw [length_flat_map_of_spells spells, items_of_spells spells] at taken
  rw [readArray, if_neg (Nat.not_lt.mpr fits)]
  exact taken

end Arrays

theorem reads_unsigned_array {size : Nat} {numbers : List Nat}
    (small : ∀ number ∈ numbers, number < byteSpan size)
    (fits : numbers.length * size ≤ maxArraySize) :
    Reads ((unsigned size).readArray numbers.length) (numbers.flatMap (toBigEndian size)) numbers :=
  reads_array (fun number member => spells_unsigned (small number member)) fits

theorem reads_u8_array (bytes : Bytes) (fits : bytes.length ≤ maxArraySize) :
    Reads (u8.readArray bytes.length) bytes (bytes.map UInt8.toNat) := by
  have small : ∀ number ∈ bytes.map UInt8.toNat, number < byteSpan 1 := by
    intro number member
    obtain ⟨byte, -, rfl⟩ := List.mem_map.mp member
    exact byte.toNat_lt
  have same : (bytes.map UInt8.toNat).flatMap (toBigEndian 1) = bytes := by
    simp [List.flatMap_map, to_big_endian_one]
  have read := reads_unsigned_array small (by simpa using fits)
  rwa [same, List.length_map] at read

end Field

namespace Integer

open Reader

def short (value : Int) : Bytes :=
  if value < -107 then
    [UInt8.ofNat (251 + (-value - 108).toNat / 256), UInt8.ofNat ((-value - 108).toNat % 256)]
  else if value ≤ 107 then [UInt8.ofNat (value + 139).toNat]
  else [UInt8.ofNat (247 + (value - 108).toNat / 256), UInt8.ofNat ((value - 108).toNat % 256)]

theorem reads_single (first : Nat) (low : 32 ≤ first) (high : first ≤ 246) :
    Reads (read first) [] (first - 139) := by
  rw [read, if_neg (by omega), if_pos high]
  exact reads_pure _

theorem reads_positive (first second : Nat) (low : 247 ≤ first) (high : first ≤ 250)
    (small : second < 256) :
    Reads (read first) [UInt8.ofNat second] ((first - 247) * 256 + second + 108) := by
  have byte := Field.reads_u8 (UInt8.ofNat second)
  rw [UInt8.toNat_ofNat_of_lt' small] at byte
  rw [read, if_neg (by omega), if_neg (by omega), if_pos high]
  exact reads_bind byte (reads_pure _)

theorem reads_negative (first second : Nat) (low : 251 ≤ first) (high : first ≤ 254)
    (small : second < 256) :
    Reads (read first) [UInt8.ofNat second] (-(first - 251) * 256 - second - 108) := by
  have byte := Field.reads_u8 (UInt8.ofNat second)
  rw [UInt8.toNat_ofNat_of_lt' small] at byte
  rw [read, if_neg (by omega), if_neg (by omega), if_neg (by omega), if_pos high]
  exact reads_bind byte (reads_pure _)

theorem short_shape {value : Int} (low : -1131 ≤ value) (high : value ≤ 1131) :
    ∃ first rest, short value = UInt8.ofNat first :: rest ∧ 32 ≤ first ∧ first ≤ 254 ∧
      Reads (read first) rest value := by
  by_cases negative : value < -107
  · have read := reads_negative (251 + (-value - 108).toNat / 256)
      ((-value - 108).toNat % 256) (by omega) (by omega) (by omega)
    have same : -(((251 + (-value - 108).toNat / 256 : Nat) : Int) - 251) * 256 -
        ((-value - 108).toNat % 256 : Nat) - 108 = value := by omega
    rw [same] at read
    exact ⟨_, _, by rw [short, if_pos negative], by omega, by omega, read⟩
  · by_cases single : value ≤ 107
    · have read := reads_single (value + 139).toNat (by omega) (by omega)
      have same : ((value + 139).toNat : Int) - 139 = value := by omega
      rw [same] at read
      exact ⟨_, _, by rw [short, if_neg negative, if_pos single], by omega, by omega, read⟩
    · have read := reads_positive (247 + (value - 108).toNat / 256)
        ((value - 108).toNat % 256) (by omega) (by omega) (by omega)
      have same : (((247 + (value - 108).toNat / 256 : Nat) : Int) - 247) * 256 +
          ((value - 108).toNat % 256 : Nat) + 108 = value := by omega
      rw [same] at read
      exact ⟨_, _, by rw [short, if_neg negative, if_neg single], by omega, by omega, read⟩

theorem short_reads {value : Int} (low : -1131 ≤ value) (high : value ≤ 1131) :
    ∃ first rest, short value = first :: rest ∧ 32 ≤ first.toNat ∧ first.toNat ≤ 254 ∧
      Reads (read first.toNat) rest value := by
  obtain ⟨first, rest, shape, least, most, read⟩ := short_shape low high
  have same : (UInt8.ofNat first).toNat = first :=
    UInt8.toNat_ofNat_of_lt' (Nat.lt_of_le_of_lt most (by decide))
  refine ⟨UInt8.ofNat first, rest, shape, ?_, ?_, ?_⟩ <;> rwa [same]

end Integer

end CompactFont
