import CompactFont.PackedArray
import CompactFont.Proofs.Reading

set_option autoImplicit false

namespace CompactFont

variable {α : Type} {field : Field α}

namespace Field

theorem items_take (field : Field α) (count : Nat) (bytes : Bytes) :
    field.items count (bytes.take (count * field.size)) = field.items count bytes := by
  induction count generalizing bytes with
  | zero => rfl
  | succ count ih =>
      have more : (count + 1) * field.size - field.size = count * field.size := by
        rw [Nat.succ_mul, Nat.add_sub_cancel]
      have first : field.size ≤ (count + 1) * field.size := by
        rw [Nat.succ_mul]
        exact Nat.le_add_left _ _
      rw [items, items, List.take_take, Nat.min_eq_left first, List.drop_take, more, ih]

end Field

namespace PackedArray

structure HasItems (array : PackedArray field) (values : List α) : Prop where
  inOrder : array.toList = values
  byPlace : ∀ index, array.get? index = values[index]?
  refused : ∀ index, array.get? index = none ↔ values.length ≤ index
  accepted : ∀ index, array.checkIndex index = .ok () ↔ index < values.length
  outside : ∀ index, values.length ≤ index → array.checkIndex index = .error .badIndex

section Sized

variable {array : PackedArray field} (sized : array.window.data.length = array.count * field.size)

include sized

theorem place_fits {index : Nat} (inside : index < array.count) :
    index * field.size + field.size ≤ array.window.data.length := by
  rw [sized, ← Nat.succ_mul]
  exact Nat.mul_le_mul_right _ inside

theorem get_eq (index : Nat) :
    array.get? index = (field.items array.count array.window.data)[index]? := by
  by_cases inside : index < array.count
  · have piece := Window.part_of_le (.inr (place_fits sized inside))
    rw [get?, if_pos inside, piece, field.get_elem_items inside]
    simp only [Cursor.perform_decode, Cursor.ofWindow, Cursor.ahead, List.drop_zero,
      List.take_take, Nat.min_self]
    rfl
  · rw [get?, if_neg inside, List.getElem?_eq_none]
    rw [field.length_items]
    exact Nat.not_lt.mp inside

theorem next_eq {index : Nat} (inside : index < array.count) :
    array.next? index =
      some (field.decode ((array.window.data.drop (index * field.size)).take field.size)) := by
  have fits := place_fits sized inside
  have enough : 0 + field.size ≤ (array.window.data.drop (index * field.size)).length := by
    rw [List.length_drop]
    omega
  simp only [next?]
  rw [Cursor.perform_take_value_of_le enough]
  rfl

-- By induction on how many places are left.
theorem items_from_eq {index left : Nat} (within : index + left ≤ array.count) :
    array.itemsFrom index left = field.items left (array.window.data.drop (index * field.size)) := by
  induction left generalizing index with
  | zero => rfl
  | succ left ih =>
      have later := @ih (index + 1) (by omega)
      rw [itemsFrom, next_eq sized (by omega), Field.items, List.drop_drop, ← Nat.succ_mul]
      exact congrArg _ later

theorem to_list_eq : array.toList = field.items array.count array.window.data := by
  rw [toList, items_from_eq sized (Nat.le_of_eq (Nat.zero_add _)), Nat.zero_mul, List.drop_zero]

theorem has_items : array.HasItems (field.items array.count array.window.data) where
  inOrder := to_list_eq sized
  byPlace := get_eq sized
  refused index := by rw [get_eq sized, List.getElem?_eq_none_iff]
  accepted index := by
    by_cases inside : index < array.count <;>
      simp [checkIndex, Reader.checkIndex, Reader.check, field.length_items, inside]
  outside index past := by
    rw [field.length_items] at past
    simp [checkIndex, Reader.checkIndex, Reader.check, Nat.not_lt.mpr past]

end Sized

end PackedArray

namespace Cursor

def takeValues (field : Field α) : Nat → Steps Cursor (List α)
  | 0 => pure []
  | count + 1 => do
      let value ← takeValue field
      let rest ← takeValues field count
      pure (value :: rest)

variable {cursor : Cursor} {count : Nat}

theorem perform_take_values_of_le
    (enough : count = 0 ∨ cursor.position + count * field.size ≤ cursor.window.data.length) :
    (takeValues field count).perform cursor =
      (.ok (field.items count cursor.ahead), cursor.seek (cursor.position + count * field.size)) := by
  induction count generalizing cursor with
  | zero =>
      rw [Nat.zero_mul]
      rfl
  | succ count ih =>
      rw [Nat.succ_mul] at enough
      have here : cursor.position + field.size ≤ cursor.window.data.length := by omega
      have next : (cursor.position + field.size) + count * field.size ≤ cursor.window.data.length := by
        omega
      have later := @ih (cursor.seek (cursor.position + field.size)) (.inr next)
      have reached : cursor.position + field.size + count * field.size =
          cursor.position + (count + 1) * field.size := by
        rw [Nat.succ_mul]
        omega
      rw [takeValues, Steps.perform_bind_ok (perform_take_value_of_le here),
        Steps.perform_bind_ok later, Steps.perform_pure, ahead_seek]
      simp only [seek, Field.items, reached]

theorem perform_take_values_of_lt (some : count ≠ 0)
    (short : cursor.window.data.length < cursor.position + count * field.size) :
    ∃ between, (takeValues field count).perform cursor = (.error .endOfData, between) := by
  induction count generalizing cursor with
  | zero => exact absurd rfl some
  | succ count ih =>
      rw [Nat.succ_mul] at short
      by_cases here : cursor.position + field.size ≤ cursor.window.data.length
      · have none : count ≠ 0 := by
          rintro rfl
          omega
        have next : cursor.window.data.length <
            (cursor.position + field.size) + count * field.size := by omega
        obtain ⟨between, failed⟩ := @ih (cursor.seek (cursor.position + field.size)) none next
        refine ⟨between, ?_⟩
        rw [takeValues, Steps.perform_bind_ok (perform_take_value_of_le here),
          Steps.perform_bind_error failed]
      · refine ⟨cursor, ?_⟩
        rw [takeValues, Steps.perform_bind_error (perform_take_value_of_lt (Nat.not_le.mp here))]

theorem perform_take_array_of_le (fits : count * field.size ≤ Field.maxArraySize)
    (enough : count * field.size = 0 ∨
      cursor.position + count * field.size ≤ cursor.window.data.length) :
    (takeArray field count).perform cursor =
      (.ok ⟨⟨cursor.window.base + cursor.position, cursor.ahead.take (count * field.size)⟩, count⟩,
        cursor.seek (cursor.position + count * field.size)) := by
  rw [takeArray, if_neg (Nat.not_lt.mpr fits),
    Steps.perform_bind_ok (perform_take_window_of_le enough), Steps.perform_pure]

theorem perform_take_array_of_lt (fits : count * field.size ≤ Field.maxArraySize)
    (some : count * field.size ≠ 0)
    (short : cursor.window.data.length < cursor.position + count * field.size) :
    (takeArray field count).perform cursor = (.error .endOfData, cursor) := by
  rw [takeArray, if_neg (Nat.not_lt.mpr fits),
    Steps.perform_bind_error (perform_take_window_of_lt some short)]

theorem exists_array_of_le (fits : count * field.size ≤ Field.maxArraySize)
    (enough : count * field.size = 0 ∨
      cursor.position + count * field.size ≤ cursor.window.data.length) :
    ∃ array : PackedArray field,
      (takeArray field count).perform cursor =
          (.ok array, cursor.seek (cursor.position + count * field.size)) ∧
        array.HasItems (field.items count cursor.ahead) := by
  have sized : (cursor.ahead.take (count * field.size)).length = count * field.size := by
    rw [List.length_take, length_ahead]
    omega
  refine ⟨_, perform_take_array_of_le fits enough, ?_⟩
  rw [← field.items_take count cursor.ahead]
  exact PackedArray.has_items sized

theorem read_read_array (fits : count * field.size ≤ Field.maxArraySize) :
    cursor.read (field.readArray count) =
      match (takeArray field count).perform cursor with
      | (.ok array, after) => .ok (array.toList, after)
      | (.error error, _) => .error error := by
  have left := cursor.length_ahead
  by_cases enough : count * field.size ≤ cursor.ahead.length
  · have room : count * field.size = 0 ∨
        cursor.position + count * field.size ≤ cursor.window.data.length := by omega
    obtain ⟨array, taken, items⟩ := exists_array_of_le fits room
    have used : cursor.ahead.length - (cursor.ahead.drop (count * field.size)).length =
        count * field.size := by
      rw [List.length_drop]
      omega
    rw [taken]
    simp only [read, Field.read_array_of_le fits enough, bind, Except.bind, pure, Except.pure, used,
      field.items_take, items.inOrder]
  · rw [perform_take_array_of_lt fits (by omega) (by omega)]
    simp only [read, Field.read_array_of_lt fits (Nat.not_le.mp enough), bind, Except.bind]

end Cursor

theorem arrays_are_successive_values (field : Field α) (some : 0 < field.size) (cursor : Cursor)
    (count : Nat) (fits : count * field.size ≤ Field.maxArraySize) :
    ((∃ array after, (Cursor.takeArray field count).perform cursor = (.ok array, after)) ↔
        ∃ values after, (Cursor.takeValues field count).perform cursor = (.ok values, after)) ∧
      (∀ values after, (Cursor.takeValues field count).perform cursor = (.ok values, after) →
        values.length = count ∧ ∃ array : PackedArray field,
          (Cursor.takeArray field count).perform cursor = (.ok array, after) ∧
            array.HasItems values) ∧
      (∀ error after, (Cursor.takeArray field count).perform cursor = (.error error, after) →
        after = cursor ∧ count ≠ 0) ∧
      cursor.read (field.readArray count) =
        match (Cursor.takeArray field count).perform cursor with
        | (.ok array, after) => .ok (array.toList, after)
        | (.error error, _) => .error error := by
  have none : count * field.size = 0 ↔ count = 0 := by
    rw [Nat.mul_eq_zero]
    omega
  have listed := @Cursor.read_read_array α field cursor count fits
  by_cases enough : count * field.size = 0 ∨
      cursor.position + count * field.size ≤ cursor.window.data.length
  · obtain ⟨array, read, items⟩ := Cursor.exists_array_of_le fits enough
    have values := Cursor.perform_take_values_of_le (enough.imp_left none.mp)
    refine ⟨⟨fun _ => ⟨_, _, values⟩, fun _ => ⟨_, _, read⟩⟩, ?_, ?_, listed⟩
    · intro found after taken
      obtain ⟨same, rfl⟩ := Prod.mk.inj (values.symm.trans taken)
      obtain rfl := Except.ok.inj same
      exact ⟨field.length_items count _, array, read, items⟩
    · intro error after failed
      cases read.symm.trans failed
  · obtain ⟨more, short⟩ := not_or.mp enough
    rw [Nat.not_le] at short
    have refused := Cursor.perform_take_array_of_lt fits more short
    obtain ⟨between, values⟩ := Cursor.perform_take_values_of_lt (mt none.mpr more) short
    refine ⟨⟨?_, ?_⟩, ?_, ?_, listed⟩
    · rintro ⟨found, after, taken⟩
      cases refused.symm.trans taken
    · rintro ⟨found, after, taken⟩
      cases values.symm.trans taken
    · intro found after taken
      cases values.symm.trans taken
    · intro error after failed
      obtain ⟨-, rfl⟩ := Prod.mk.inj (refused.symm.trans failed)
      exact ⟨rfl, mt none.mpr more⟩

theorem records_fit_twice :
    (∃ array : PackedArray (Field.u16.pair Field.u8),
        (Cursor.takeArray (Field.u16.pair Field.u8) 2).perform
            ⟨⟨7, [0, 0, 1, 2, 3, 4, 5, 6, 9]⟩, 2⟩ =
          (.ok array, ⟨⟨7, [0, 0, 1, 2, 3, 4, 5, 6, 9]⟩, 8⟩) ∧
        array.HasItems [(258, 3), (1029, 6)]) ∧
      ¬ ∃ array after, (Cursor.takeArray (Field.u16.pair Field.u8) 3).perform
        ⟨⟨7, [0, 0, 1, 2, 3, 4, 5, 6, 9]⟩, 2⟩ = (.ok array, after) := by
  obtain ⟨-, reads, -⟩ := arrays_are_successive_values (Field.u16.pair Field.u8) (by decide)
    ⟨⟨7, [0, 0, 1, 2, 3, 4, 5, 6, 9]⟩, 2⟩ 2 (by decide)
  obtain ⟨only, -⟩ := arrays_are_successive_values (Field.u16.pair Field.u8) (by decide)
    ⟨⟨7, [0, 0, 1, 2, 3, 4, 5, 6, 9]⟩, 2⟩ 3 (by decide)
  refine ⟨(reads [(258, 3), (1029, 6)] _ rfl).2, fun read => ?_⟩
  obtain ⟨values, after, taken⟩ := only.mp read
  cases taken

end CompactFont
