import CompactFont.Proofs.IndexLayout
import CompactFont.Proofs.Spelling

set_option autoImplicit false

namespace CompactFont.Index

structure ReadWhole (bytes : Bytes) (index : Index) (rest : Bytes) : Prop where
  objects : index.toList = (List.range (storedCount bytes)).map (storedObject bytes)
  found : ∀ place < storedCount bytes, index.get? place = some (storedObject bytes place)
  missing : ∀ place, storedCount bytes ≤ place → index.get? place = none
  enough : position bytes (storedCount bytes) ≤ bytes.length
  rest : rest = bytes.drop (position bytes (storedCount bytes))
  dataLength : index.dataLength = storedOffset bytes (storedCount bytes) - 1

theorem read_whole_of_valid {bytes : Bytes} (wide : 1 ≤ offsetWidth bytes)
    (narrow : offsetWidth bytes ≤ 4) (complete : objectsStart bytes ≤ bytes.length)
    (valid : ValidOffsets bytes) :
    ReadWhole bytes (storedIndex bytes) (bytes.drop (position bytes (storedCount bytes))) := by
  have holds := holds_stored_index wide narrow complete valid
  have last := valid.within _ (Nat.le_refl _)
  refine ⟨holds.toList, fun _ => holds.found, fun place outside => ?_, ?_, rfl, ?_⟩
  · exact get_of_count_le outside
  · rw [position]
    omega
  · simp only [dataLength, storedIndex, List.size_toArray, List.length_take, List.length_drop]
    omega

section Written

def offsetsFrom : Nat → List Bytes → List Nat
  | start, [] => [start]
  | start, object :: rest => start :: offsetsFrom (start + object.length) rest

def write (width : Nat) (objects : List Bytes) : Bytes :=
  if objects = [] then toBigEndian 2 0
  else
    toBigEndian 2 objects.length ++ UInt8.ofNat width ::
      (offsetsFrom 1 objects).flatMap (toBigEndian width) ++ objects.flatten

def ofObjects (width : Nat) (objects : List Bytes) : Index :=
  if objects = [] then empty
  else
    { count := objects.length
      offsetSize := width
      offsets := ((offsetsFrom 1 objects).flatMap (toBigEndian width)).toArray
      data := objects.flatten.toArray }

theorem count_of_objects (width : Nat) (objects : List Bytes) :
    (ofObjects width objects).count = objects.length := by
  rw [ofObjects]
  split
  · rename_i none
    rw [none]
    rfl
  · rfl

theorem is_empty_of_objects (width : Nat) (objects : List Bytes) :
    (ofObjects width objects).isEmpty = objects.isEmpty := by
  rw [isEmpty, count_of_objects]
  cases objects <;> rfl

theorem length_offsets_from (start : Nat) (objects : List Bytes) :
    (offsetsFrom start objects).length = objects.length + 1 := by
  induction objects generalizing start with
  | nil => rfl
  | cons object rest ih => simp [offsetsFrom, ih]

theorem get_offsets_from (start : Nat) {objects : List Bytes} {place : Nat}
    (inside : place ≤ objects.length) :
    (offsetsFrom start objects)[place]? = some (start + (objects.take place).flatten.length) := by
  induction objects generalizing start place with
  | nil =>
      obtain rfl := Nat.le_zero.mp inside
      rfl
  | cons object rest ih =>
      cases place with
      | zero => rfl
      | succ place =>
          rw [offsetsFrom, List.getElem?_cons_succ, ih _ (Nat.le_of_succ_le_succ inside),
            List.take_succ_cons, List.flatten_cons, List.length_append, Nat.add_assoc]

theorem length_flatten_take_le (objects : List Bytes) (place : Nat) :
    (objects.take place).flatten.length ≤ objects.flatten.length := by
  conv => rhs; rw [← List.take_append_drop place objects, List.flatten_append, List.length_append]
  exact Nat.le_add_right ..

theorem flatten_take_succ {objects : List Bytes} {place : Nat} (inside : place < objects.length) :
    (objects.take (place + 1)).flatten = (objects.take place).flatten ++ objects[place] := by
  rw [List.take_succ_eq_append_getElem inside, List.flatten_append, List.flatten_singleton]

theorem extract_flatten {objects : List Bytes} {place : Nat} (inside : place < objects.length)
    (tail : Bytes) :
    (objects.flatten ++ tail).extract (objects.take place).flatten.length
      (objects.take (place + 1)).flatten.length = objects[place] := by
  have shape : objects.flatten ++ tail = (objects.take place).flatten ++
      (objects[place] ++ ((objects.drop (place + 1)).flatten ++ tail)) := by
    conv => lhs; rw [← List.take_append_drop (place + 1) objects, List.flatten_append]
    rw [flatten_take_succ inside]
    simp only [List.append_assoc]
  rw [shape, List.extract_eq_take_drop, List.drop_left, flatten_take_succ inside,
    List.length_append, Nat.add_sub_cancel_left, List.take_left]

variable {width : Nat} (narrow : width ≤ 4) {objects : List Bytes} (some : objects ≠ [])
  (few : objects.length ≤ 65535) (large : 1 + objects.flatten.length < byteSpan width)
  (tail : Bytes)

include some in
theorem write_append_eq : write width objects ++ tail = toBigEndian 2 objects.length ++
    ([UInt8.ofNat width] ++ ((offsetsFrom 1 objects).flatMap (toBigEndian width) ++
      (objects.flatten ++ tail))) := by
  rw [write, if_neg some]
  simp

theorem length_table : ((offsetsFrom 1 objects).flatMap (toBigEndian width)).length =
    (objects.length + 1) * width := by
  simp [length_to_big_endian, List.map_const', length_offsets_from]

include some few in
theorem stored_count_write : storedCount (write width objects ++ tail) = objects.length := by
  rw [storedCount, write_append_eq some, List.take_left' (length_to_big_endian 2 _)]
  exact big_endian_of_lt (Nat.lt_of_le_of_lt few (by decide))

include some narrow in
theorem offset_width_write : offsetWidth (write width objects ++ tail) = width := by
  rw [offsetWidth, write_append_eq some, List.drop_left' (length_to_big_endian 2 _),
    List.take_left' (by rfl)]
  simpa [bigEndian] using Nat.lt_of_le_of_lt narrow (by decide : 4 < 256)

include some in
theorem drop_three_write : (write width objects ++ tail).drop 3 =
    (offsetsFrom 1 objects).flatMap (toBigEndian width) ++ (objects.flatten ++ tail) := by
  rw [write_append_eq some, ← List.append_assoc, List.drop_left' (by simp [length_to_big_endian])]

include some narrow large in
theorem stored_offset_write {place : Nat} (inside : place ≤ objects.length) :
    storedOffset (write width objects ++ tail) place =
      1 + (objects.take place).flatten.length := by
  have small : ∀ offset ∈ offsetsFrom 1 objects, offset < byteSpan width := by
    intro offset member
    obtain ⟨other, here, rfl⟩ := List.getElem_of_mem member
    have found := get_offsets_from 1 (Nat.le_of_lt_succ (length_offsets_from 1 objects ▸ here))
    rw [List.getElem?_eq_getElem here, Option.some.injEq] at found
    rw [found]
    exact Nat.lt_of_le_of_lt (Nat.add_le_add_left (length_flatten_take_le objects other) 1) large
  have items := Field.items_of_spells (fun offset member => Field.spells_unsigned (small offset member))
  have here : place < (offsetsFrom 1 objects).length := by
    rw [length_offsets_from]
    exact Nat.lt_succ_of_le inside
  have decoded := Field.get_elem_items (Field.unsigned width) here
    ((offsetsFrom 1 objects).flatMap (toBigEndian width))
  rw [items, get_offsets_from 1 inside, Option.some.injEq] at decoded
  have fits : place * width + width ≤ ((offsetsFrom 1 objects).flatMap (toBigEndian width)).length := by
    rw [length_table, ← Nat.succ_mul]
    exact Nat.mul_le_mul_right _ (Nat.succ_le_succ inside)
  rw [storedOffset, offset_width_write narrow some, ← List.drop_drop, drop_three_write some,
    List.drop_append_of_le_length (by omega), List.take_append_of_le_length
      (by rw [List.length_drop]; omega), decoded]
  rfl

include some narrow few in
theorem drop_objects_start_write :
    (write width objects ++ tail).drop (objectsStart (write width objects ++ tail)) =
      objects.flatten ++ tail := by
  rw [objectsStart, stored_count_write some few, offset_width_write narrow some, ← List.drop_drop,
    drop_three_write some, List.drop_left' length_table]

include some narrow few in
theorem complete_write :
    objectsStart (write width objects ++ tail) ≤ (write width objects ++ tail).length := by
  rw [objectsStart, stored_count_write some few, offset_width_write narrow some,
    write_append_eq some]
  simp only [List.length_append, length_to_big_endian, length_table, List.length_singleton]
  omega

include some narrow few large in
theorem stored_index_write : storedIndex (write width objects ++ tail) = ofObjects width objects := by
  rw [storedIndex, stored_count_write some few, offset_width_write narrow some,
    drop_objects_start_write narrow some few, drop_three_write some,
    stored_offset_write narrow some large tail (Nat.le_refl _), List.take_length,
    Nat.add_sub_cancel_left, List.take_left, List.take_left' length_table, ofObjects, if_neg some]

include some narrow few large in
theorem stored_objects_write : storedObjects (write width objects ++ tail) = objects := by
  have count : storedCount (write width objects ++ tail) = objects.length :=
    stored_count_write some few tail
  refine List.ext_getElem (by simp [storedObjects, count]) fun place _ inside => ?_
  simp only [storedObjects, List.getElem_map, List.getElem_range]
  rw [storedObject, drop_objects_start_write narrow some few,
    stored_offset_write narrow some large tail (Nat.le_of_lt inside),
    stored_offset_write narrow some large tail inside, Nat.add_sub_cancel_left,
    Nat.add_sub_cancel_left, extract_flatten inside]

include some narrow few large in
theorem valid_write : ValidOffsets (write width objects ++ tail) := by
  have length : (write width objects ++ tail).length - objectsStart (write width objects ++ tail) =
      objects.flatten.length + tail.length := by
    rw [← List.length_drop, drop_objects_start_write narrow some few, List.length_append]
  rw [ValidOffsets, stored_count_write some few, length]
  refine ⟨?_, fun place inside => ?_, fun place inside => ?_⟩
  · rw [stored_offset_write narrow some large tail (Nat.zero_le _)]
    exact Nat.le_add_right 1 _
  · rw [stored_offset_write narrow some large tail (Nat.le_of_lt inside),
      stored_offset_write narrow some large tail inside, flatten_take_succ inside,
      List.length_append]
    omega
  · rw [stored_offset_write narrow some large tail inside]
    have part := length_flatten_take_le objects place
    omega

include narrow few large

variable (wide : 1 ≤ width)

include wide

theorem reads_write : Reader.Reads read (write width objects) (ofObjects width objects) := by
  intro tail
  by_cases none : objects = []
  · subst none
    rfl
  · have count : storedCount (write width objects ++ tail) = objects.length :=
      stored_count_write none few tail
    have valid := valid_write narrow none few large tail
    have read := read_of_valid (count ▸ List.length_pos_iff.mpr none)
      ((offset_width_write narrow none tail).symm ▸ wide)
      ((offset_width_write narrow none tail).symm ▸ narrow) (complete_write narrow none few tail) valid
    have ends : (write width objects ++ tail).drop
        (position (write width objects ++ tail) objects.length) = tail := by
      rw [position, ← List.drop_drop, drop_objects_start_write narrow none few,
        stored_offset_write narrow none large tail (Nat.le_refl _), List.take_length,
        Nat.add_sub_cancel_left, List.drop_left]
    rwa [stored_index_write narrow none few large, count, ends] at read

theorem holds_of_objects : (ofObjects width objects).Holds objects := by
  by_cases none : objects = []
  · subst none
    exact holds_empty
  · have holds := holds_stored_index ((offset_width_write narrow none []).symm ▸ wide)
      ((offset_width_write narrow none []).symm ▸ narrow) (complete_write narrow none few [])
      (valid_write narrow none few large [])
    rwa [stored_index_write narrow none few large, stored_objects_write narrow none few large] at holds

end Written

theorem read_exactly_valid_indexes :
    (∀ bytes : Bytes, 0 < storedCount bytes → 1 ≤ offsetWidth bytes → offsetWidth bytes ≤ 4 →
      objectsStart bytes ≤ bytes.length →
        ((∃ index rest, read bytes = .ok (index, rest)) ↔ ValidOffsets bytes) ∧
        (¬ ValidOffsets bytes → read bytes = .error .malformedIndex) ∧
        ∀ index rest, read bytes = .ok (index, rest) → ReadWhole bytes index rest) ∧
    ∀ (objects : List Bytes) (width : Nat) (tail : Bytes), objects.length ≤ 65535 → 1 ≤ width →
      width ≤ 4 → 1 + objects.flatten.length < byteSpan width →
        read (write width objects ++ tail) = .ok (ofObjects width objects, tail) ∧
          (ofObjects width objects).Holds objects := by
  constructor
  · intro bytes some wide narrow complete
    by_cases valid : ValidOffsets bytes
    · have accepted := read_of_valid some wide narrow complete valid
      refine ⟨iff_of_true ⟨_, _, accepted⟩ valid, absurd valid, fun index rest read => ?_⟩
      obtain ⟨rfl, rfl⟩ := Prod.mk.inj (Except.ok.inj (accepted.symm.trans read))
      exact read_whole_of_valid wide narrow complete valid
    · have malformed := read_of_not_valid some wide narrow complete valid
      refine ⟨iff_of_false ?_ valid, fun _ => malformed, ?_⟩
      · rintro ⟨index, rest, read⟩
        cases malformed.symm.trans read
      · intro index rest read
        cases malformed.symm.trans read
  · intro objects width tail few wide narrow large
    exact ⟨reads_write narrow few large wide tail, holds_of_objects narrow few large wide⟩

theorem two_objects_are_read :
    (∃ index rest, read [0, 2, 1, 1, 3, 4, 10, 11, 12, 99] = .ok (index, rest) ∧
      ReadWhole [0, 2, 1, 1, 3, 4, 10, 11, 12, 99] index rest) ∧
    read [0, 1, 1, 2, 1, 7] = .error .malformedIndex ∧
    read (write 1 [[10, 11], [12]] ++ [99]) = .ok (ofObjects 1 [[10, 11], [12]], [99]) ∧
    (ofObjects 1 [[10, 11], [12]]).Holds [[10, 11], [12]] := by
  obtain ⟨stored, written⟩ := read_exactly_valid_indexes
  refine ⟨?_, ?_, written _ 1 [99] (by decide) (by decide) (by decide) (by decide)⟩
  · obtain ⟨accepted, -, whole⟩ :=
      stored [0, 2, 1, 1, 3, 4, 10, 11, 12, 99] (by decide) (by decide) (by decide) (by decide)
    obtain ⟨index, rest, read⟩ := accepted.mpr ⟨by decide, by decide, by decide⟩
    exact ⟨index, rest, read, whole index rest read⟩
  · obtain ⟨-, malformed, -⟩ :=
      stored [0, 1, 1, 2, 1, 7] (by decide) (by decide) (by decide) (by decide)
    apply malformed
    intro valid
    exact absurd (valid.ordered 0 (by decide)) (by decide)

end CompactFont.Index
