import Mathlib.Data.List.Nodup
import Mathlib.Data.Nat.Find
import Mathlib.Order.Bounds.Basic
import CompactFont.Proofs.IndexReading
import CompactFont.Proofs.NameLookup

set_option autoImplicit false

namespace CompactFont

section Standard

def spelling (string : String) : Nat :=
  string.toByteArray.data.toList.foldl (fun number byte => 256 * number + byte.toNat) 1

-- Whether no number comes twice, or comes that was seen before. What was seen is kept as bits.
def allFresh (seen : Nat) : List Nat → Bool
  | [] => true
  | number :: rest => !seen.testBit number && allFresh (seen ||| 1 <<< number) rest

theorem nodup_of_all_fresh {seen : Nat} {numbers : List Nat} (fresh : allFresh seen numbers = true) :
    numbers.Nodup ∧ ∀ number ∈ numbers, seen.testBit number = false := by
  induction numbers generalizing seen with
  | nil => exact ⟨.nil, nofun⟩
  | cons number rest ih =>
      rw [allFresh, Bool.and_eq_true, Bool.not_eq_true'] at fresh
      obtain ⟨distinct, unseen⟩ := ih fresh.2
      have apart : ∀ other ∈ rest, seen.testBit other = false ∧ number ≠ other := by
        intro other member
        have clear := unseen other member
        rw [Nat.testBit_or, Bool.or_eq_false_iff, Nat.one_shiftLeft, Nat.testBit_two_pow] at clear
        exact ⟨clear.1, by simpa using clear.2⟩
      refine ⟨List.nodup_cons.mpr ⟨fun member => (apart number member).2 rfl, distinct⟩, ?_⟩
      rw [List.forall_mem_cons]
      exact ⟨fresh.1, fun other member => (apart other member).1⟩

-- Already the remainders of the spellings are different.
theorem nodup_standard_strings : standardStrings.toList.Nodup := by
  have fresh : allFresh 0 (standardStrings.toList.map fun string => spelling string % 9991) = true := by
    decide +kernel
  exact List.Nodup.of_map _ (nodup_of_all_fresh fresh).1

end Standard

section Latin1

theorem to_nat_of_nat_byte (byte : UInt8) : (Char.ofNat byte.toNat).toNat = byte.toNat := by
  have small := byte.toNat_lt
  have valid : byte.toNat.isValidChar := .inl (by omega)
  rw [Char.ofNat, dif_pos valid]
  rfl

theorem to_nat_latin1 (bytes : Bytes) :
    (latin1 bytes).toList.map Char.toNat = bytes.map UInt8.toNat := by
  simp [latin1, to_nat_of_nat_byte]

theorem utf8_encode_char_ascii {char : Char} (small : char.toNat < 128) :
    String.utf8EncodeChar char = [UInt8.ofNat char.toNat] := by
  have single : char.utf8Size = 1 := by
    rw [Char.utf8Size_eq_one_iff, UInt32.le_iff_toNat_le]
    exact Nat.lt_succ_iff.mp small
  rw [String.utf8EncodeChar_eq_singleton single]
  rfl

theorem to_byte_array_latin1 {bytes : Bytes} (ascii : ∀ byte ∈ bytes, byte.toNat < 128) :
    (latin1 bytes).toByteArray = bytes.toByteArray := by
  have each : bytes.flatMap (fun byte => String.utf8EncodeChar (Char.ofNat byte.toNat)) = bytes := by
    induction bytes with
    | nil => rfl
    | cons byte rest ih =>
        obtain ⟨first, later⟩ := List.forall_mem_cons.mp ascii
        rw [← to_nat_of_nat_byte] at first
        rw [List.flatMap_cons, utf8_encode_char_ascii first, to_nat_of_nat_byte, UInt8.ofNat_toNat, ih later,
          List.singleton_append]
  rw [latin1, String.toByteArray_ofList, List.utf8Encode, List.flatMap_map, each]

theorem from_utf8_ascii {bytes : Bytes} (ascii : ∀ byte ∈ bytes, byte.toNat < 128) :
    String.fromUTF8? bytes.toByteArray = some (latin1 bytes) := by
  rw [← to_byte_array_latin1 ascii, String.fromUTF8?, dif_pos (latin1 bytes).isValidUTF8]
  rfl

end Latin1

namespace Strings

variable (strings : Strings)

theorem lookup_custom (place : Nat) :
    strings.lookup? (standardStrings.size + place) = (strings.custom.get? place).map latin1 := by
  unfold lookup?
  generalize standardStrings = table
  rw [Array.getElem?_eq_none (Nat.le_add_right ..), Nat.add_sub_cancel_left]

theorem lookup_standard {id : Nat} {name : String} (standard : standardStrings[id]? = some name) :
    strings.lookup? id = some name := by
  unfold lookup?
  generalize standardStrings = table at standard ⊢
  rw [standard]

theorem id_of_standard {id : Nat} {name : String} (standard : standardStrings[id]? = some name) :
    strings.idOf? name = some id := by
  have found : standardStrings.findIdx? (· == name) = some id := by
    have distinct := nodup_standard_strings
    generalize standardStrings = table at standard distinct ⊢
    obtain ⟨inside, rfl⟩ := Array.getElem?_eq_some_iff.mp standard
    refine Array.findIdx?_eq_some_iff_getElem.mpr ⟨inside, beq_self_eq_true _, ?_⟩
    intro earlier before
    rw [Bool.not_eq_true, beq_eq_false_iff_ne]
    intro same
    exact absurd (distinct.getElem_inj_iff.mp same) (Nat.ne_of_lt before)
  rw [idOf?, found]

theorem id_of_get {id : Nat} (standard : id < standardStrings.size) :
    strings.idOf? (strings.get id) = some id := by
  have stands : standardStrings[id]? = some standardStrings[id] := Array.getElem?_eq_getElem standard
  rw [get_of_lookup (strings.lookup_standard stands), strings.id_of_standard stands]

section Whole

variable {strings : Strings} (whole : strings.custom.Whole)

include whole

theorem id_of_eq_some_iff_is_least {name : String} {id : Nat} :
    strings.idOf? name = some id ↔ IsLeast {id | id ≤ maxId ∧ strings.lookup? id = some name} id := by
  rw [id_of_eq_some_iff whole]
  constructor
  · rintro ⟨small, named, first⟩
    refine ⟨⟨small, named⟩, fun other stands => ?_⟩
    by_contra before
    exact first other (Nat.not_le.mp before) stands.2
  · rintro ⟨⟨small, named⟩, least⟩
    refine ⟨small, named, fun earlier before also => ?_⟩
    exact Nat.not_le.mpr before (least ⟨Nat.le_trans (Nat.le_of_lt before) small, also⟩)

theorem id_of_eq_none_iff {name : String} :
    strings.idOf? name = none ↔ ∀ id ≤ maxId, strings.lookup? id ≠ some name := by
  refine ⟨fun absent id small named => ?_, id_of_eq_none whole⟩
  have place : ∃ id, id ≤ maxId ∧ strings.lookup? id = some name := ⟨id, small, named⟩
  have least : IsLeast {id | id ≤ maxId ∧ strings.lookup? id = some name} (Nat.find place) :=
    ⟨Nat.find_spec place, fun other stands => Nat.find_min' place stands⟩
  cases absent.symm.trans ((id_of_eq_some_iff_is_least whole).mpr least)

end Whole

theorem names_are_found_by_least_id {bytes rest : Bytes} {strings : Strings}
    (read : Index.read bytes = .ok (strings.custom, rest)) :
    strings.count = standardStrings.size + Index.storedCount bytes ∧
    (∀ id, (strings.lookup? id).isSome ↔ id < strings.count) ∧
    (∀ place < Index.storedCount bytes, ∃ string,
      strings.lookup? (standardStrings.size + place) = some string ∧
      string.toList.map Char.toNat = (Index.storedObject bytes place).map UInt8.toNat ∧
      ((∀ byte ∈ Index.storedObject bytes place, byte.toNat < 128) →
        String.fromUTF8? (Index.storedObject bytes place).toByteArray = some string)) ∧
    (∀ name id, strings.idOf? name = some id ↔
      IsLeast {id | id ≤ maxId ∧ strings.lookup? id = some name} id) ∧
    (∀ name, strings.idOf? name = none ↔ ∀ id ≤ maxId, strings.lookup? id ≠ some name) ∧
    ∀ id name, standardStrings[id]? = some name →
      strings.lookup? id = some name ∧ strings.idOf? name = some id := by
  have holds := (Index.stored_in_of_read read).holds
  have whole := holds.whole
  refine ⟨congrArg (standardStrings.size + ·) holds.count_stored, is_some_lookup_iff whole,
    fun place inside => ?_, fun name id => id_of_eq_some_iff_is_least whole,
    fun name => id_of_eq_none_iff whole, fun id name standard =>
      ⟨strings.lookup_standard standard, strings.id_of_standard standard⟩⟩
  refine ⟨latin1 (Index.storedObject bytes place), ?_, to_nat_latin1 _, from_utf8_ascii⟩
  rw [strings.lookup_custom, holds.found inside]
  rfl

def ownStrings : Strings := ⟨3, 1, #[1, 2, 3, 4], #[65, 233, 233]⟩

theorem three_strings_are_found :
    Index.read [0, 3, 1, 1, 2, 3, 4, 65, 233, 233] = .ok (ownStrings.custom, []) ∧
      ownStrings.idOf? "A" = some 34 ∧
      ∃ string, ownStrings.lookup? 393 = some string ∧
        string.toList.map Char.toNat = [233] := by
  have read : Index.read [0, 3, 1, 1, 2, 3, 4, 65, 233, 233] = .ok (ownStrings.custom, []) :=
    Attempt.ok_of_to_option (by decide)
  obtain ⟨-, -, own, -, -, standard⟩ := names_are_found_by_least_id read
  have size : standardStrings.size = 391 := by decide +kernel
  obtain ⟨string, named, characters, -⟩ := own 2 (by decide)
  rw [size] at named
  exact ⟨read, (standard 34 "A" (by decide +kernel)).2, string, named, characters⟩

end Strings

end CompactFont
