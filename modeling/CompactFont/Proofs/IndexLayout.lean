import CompactFont.Index
import CompactFont.Proofs.Outcome
import CompactFont.Proofs.Reading

set_option autoImplicit false

namespace CompactFont

theorem slice_of_le {bytes : Array UInt8} {start finish : Nat} (ordered : start ≤ finish)
    (inside : finish ≤ bytes.size) :
    slice? bytes start finish = some (bytes.toList.extract start finish) := by
  rw [slice?, if_pos ⟨ordered, inside⟩, Array.toList_extract]

theorem extract_take_of_le {α : Type} (items : List α) {start finish front : Nat}
    (inside : finish ≤ front) : (items.take front).extract start finish = items.extract start finish := by
  rw [List.extract_eq_take_drop, List.extract_eq_take_drop, List.drop_take, List.take_take]
  congr 1
  omega

namespace Index

structure InOrder (offset : Nat → Nat) (available count : Nat) : Prop where
  first : 1 ≤ offset 0
  ordered : ∀ place < count, offset place ≤ offset (place + 1)
  within : ∀ place ≤ count, offset place ≤ 1 + available

def Lists (offsetSize : Nat) (offsets : Array UInt8) (count : Nat) (offset : Nat → Nat) : Prop :=
  ∀ place ≤ count, offsetAt? offsetSize offsets place = some (offset place)

-- The INDEX answers with these objects, at each place and in order, and with no others.
structure Holds (index : Index) (objects : List Bytes) : Prop where
  count : index.count = objects.length
  get : ∀ place, index.get? place = objects[place]?
  toList : index.toList = objects

theorem filter_map_get_elem_range (objects : List Bytes) :
    (List.range objects.length).filterMap (fun place => objects[place]?) = objects := by
  induction objects with
  | nil => rfl
  | cons object rest ih =>
      rw [List.length_cons, List.range_succ_eq_map, List.filterMap_cons, List.filterMap_map]
      exact congrArg (object :: ·) ih

theorem holds_of_get {index : Index} {objects : List Bytes} (count : index.count = objects.length)
    (get : ∀ place, index.get? place = objects[place]?) : index.Holds objects where
  count
  get
  toList := by
    rw [Index.toList, count, funext get]
    exact filter_map_get_elem_range objects

def Whole (index : Index) : Prop := index.Holds index.toList

theorem Holds.whole {index : Index} {objects : List Bytes} (holds : index.Holds objects) :
    index.Whole := by
  rw [Whole, holds.toList]
  exact holds

theorem Whole.found_of_lt {index : Index} (whole : index.Whole) {place : Nat}
    (inside : place < index.count) : ∃ object, index.get? place = some object := by
  have listed : place < index.toList.length := whole.count ▸ inside
  exact ⟨_, (whole.get place).trans (List.getElem?_eq_getElem listed)⟩

theorem get_of_count_le {index : Index} {place : Nat} (outside : index.count ≤ place) :
    index.get? place = none := if_neg (Nat.not_lt.mpr outside)

theorem lt_count_of_get {index : Index} {place : Nat} {object : Bytes}
    (found : index.get? place = some object) : place < index.count := by
  refine Nat.lt_of_not_le fun outside => ?_
  rw [get_of_count_le outside] at found
  cases found

theorem object_of_get {index : Index} {place : Nat} {object : Bytes}
    (found : index.get? place = some object) : index.object place = .ok object := by
  rw [Index.object, found]

theorem get_of_object {index : Index} {place : Nat} {object : Bytes}
    (had : index.object place = .ok object) : index.get? place = some object := by
  unfold Index.object at had
  split at had
  · rename_i found
    rw [found, Except.ok.inj had]
  · cases had

theorem is_empty_of_pos {index : Index} (some : 0 < index.count) : index.isEmpty = false :=
  beq_eq_false_iff_ne.mpr (Nat.ne_of_gt some)

theorem is_empty_of_get {index : Index} {place : Nat} {object : Bytes}
    (found : index.get? place = some object) : index.isEmpty = false :=
  is_empty_of_pos (Nat.zero_lt_of_lt (lt_count_of_get found))

theorem pos_of_is_empty {index : Index} (some : ¬ index.isEmpty = true) : 0 < index.count :=
  Nat.pos_of_ne_zero fun none => some (beq_iff_eq.mpr none)

section Offsets

variable {offsetSize available count : Nat} {offsets : Array UInt8} {offset : Nat → Nat}

theorem InOrder.monotone (inOrder : InOrder offset available count) {place later : Nat}
    (before : place ≤ later) (inside : later ≤ count) : offset place ≤ offset later := by
  induction later with
  | zero =>
      obtain rfl := Nat.le_zero.mp before
      exact Nat.le_refl _
  | succ later ih =>
      rcases Nat.le_or_eq_of_le_succ before with earlier | rfl
      · exact Nat.le_trans (ih earlier (Nat.le_of_succ_le inside)) (inOrder.ordered later inside)
      · exact Nat.le_refl _

theorem InOrder.positive (inOrder : InOrder offset available count) {place : Nat}
    (inside : place ≤ count) : 1 ≤ offset place :=
  Nat.le_trans inOrder.first (inOrder.monotone (Nat.zero_le place) inside)

theorem check_offset_ok_iff {least place current last : Nat}
    (listed : offsetAt? offsetSize offsets place = some current) (positive : 1 ≤ least) :
    checkOffset offsetSize offsets available least place = .ok last ↔
      last = current ∧ least ≤ current ∧ current ≤ 1 + available := by
  simp only [checkOffset, listed]
  split
  · rename_i bad
    refine iff_of_false nofun ?_
    omega
  · rename_i good
    rw [Except.ok.injEq]
    omega

theorem check_offset_error {least place : Nat} {error : ReadError}
    (failed : checkOffset offsetSize offsets available least place = .error error) :
    error = .malformedIndex := by
  unfold checkOffset at failed
  split at failed
  · exact (Except.error.inj failed).symm
  · split at failed
    · exact (Except.error.inj failed).symm
    · cases failed

theorem last_offset_succ (offsetSize : Nat) (offsets : Array UInt8) (available count : Nat) :
    lastOffset offsetSize offsets available (count + 1) =
      lastOffset offsetSize offsets available count >>= fun least =>
        checkOffset offsetSize offsets available least (count + 1) := by
  rw [lastOffset, List.range_succ, List.foldlM_append]
  simp [lastOffset]

theorem last_offset_zero (offsetSize : Nat) (offsets : Array UInt8) (available : Nat) :
    lastOffset offsetSize offsets available 0 =
      checkOffset offsetSize offsets available 1 0 := by
  simp [lastOffset]

-- The loop over the offsets ends with the last of them just if they are in order.
theorem last_offset_ok_iff (lists : Lists offsetSize offsets count offset) {last : Nat} :
    lastOffset offsetSize offsets available count = .ok last ↔
      last = offset count ∧ InOrder offset available count := by
  induction count generalizing last with
  | zero =>
      rw [last_offset_zero, check_offset_ok_iff (lists 0 (Nat.le_refl 0)) (Nat.le_refl 1)]
      constructor
      · rintro ⟨rfl, first, within⟩
        refine ⟨rfl, first, nofun, fun place inside => ?_⟩
        rwa [Nat.le_zero.mp inside]
      · rintro ⟨rfl, inOrder⟩
        exact ⟨rfl, inOrder.first, inOrder.within 0 (Nat.le_refl 0)⟩
  | succ count ih =>
      have earlier : Lists offsetSize offsets count offset :=
        fun place inside => lists place (Nat.le_succ_of_le inside)
      have listed := lists (count + 1) (Nat.le_refl _)
      rw [last_offset_succ]
      constructor
      · intro checked
        obtain ⟨least, before, next⟩ := Attempt.except_bind_ok checked
        obtain ⟨rfl, inOrder⟩ := (ih earlier).mp before
        obtain ⟨rfl, grows, within⟩ :=
          (check_offset_ok_iff listed (inOrder.positive (Nat.le_refl count))).mp next
        refine ⟨rfl, inOrder.first, fun place inside => ?_, fun place inside => ?_⟩
        · rcases Nat.lt_succ_iff_lt_or_eq.mp inside with before | rfl
          · exact inOrder.ordered place before
          · exact grows
        · rcases Nat.le_or_eq_of_le_succ inside with before | rfl
          · exact inOrder.within place before
          · exact within
      · rintro ⟨rfl, inOrder⟩
        have front : InOrder offset available count :=
          ⟨inOrder.first, fun place inside => inOrder.ordered place (Nat.lt_succ_of_lt inside),
            fun place inside => inOrder.within place (Nat.le_succ_of_le inside)⟩
        rw [(ih earlier).mpr ⟨rfl, front⟩]
        exact (check_offset_ok_iff listed (front.positive (Nat.le_refl count))).mpr
          ⟨rfl, inOrder.ordered count (Nat.lt_succ_self count), inOrder.within _ (Nat.le_refl _)⟩

theorem last_offset_error {error : ReadError}
    (failed : lastOffset offsetSize offsets available count = .error error) :
    error = .malformedIndex := by
  induction count generalizing error with
  | zero =>
      rw [last_offset_zero] at failed
      exact check_offset_error failed
  | succ count ih =>
      rw [last_offset_succ] at failed
      rcases Attempt.except_bind_error failed with before | ⟨least, -, last⟩
      · exact ih before
      · exact check_offset_error last

theorem last_offset_of_not_in_order (lists : Lists offsetSize offsets count offset)
    (disorder : ¬ InOrder offset available count) :
    lastOffset offsetSize offsets available count = .error .malformedIndex := by
  cases checked : lastOffset offsetSize offsets available count with
  | error error => rw [last_offset_error checked]
  | ok last => exact absurd ((last_offset_ok_iff lists).mp checked).2 disorder

-- With offsets in order an object is found at every place, by the offsets computed a second time.
theorem holds_of_in_order {index : Index}
    (lists : Lists index.offsetSize index.offsets index.count offset)
    (inOrder : InOrder offset index.data.size index.count) :
    index.Holds ((List.range index.count).map fun place =>
      index.data.toList.extract (offset place - 1) (offset (place + 1) - 1)) := by
  refine holds_of_get (by simp) fun place => ?_
  by_cases inside : place < index.count
  · obtain ⟨start, starts⟩ := Nat.exists_eq_add_of_le' (inOrder.positive (Nat.le_of_lt inside))
    obtain ⟨finish, ends⟩ := Nat.exists_eq_add_of_le' (inOrder.positive inside)
    have grows := inOrder.ordered place inside
    have within := inOrder.within (place + 1) inside
    rw [ends] at within
    rw [starts, ends] at grows
    have piece : slice? index.data start finish = some (index.data.toList.extract start finish) :=
      slice_of_le (by omega) (by omega)
    simp [get?, inside, lists place (Nat.le_of_lt inside), lists (place + 1) inside, starts, ends,
      inData?, piece]
  · rw [get_of_count_le (Nat.le_of_not_lt inside), List.getElem?_eq_none (by simpa using inside)]

end Offsets

section Stored

variable {bytes rest : Bytes} {index : Index}

def storedCount (bytes : Bytes) : Nat := bigEndian (bytes.take 2)

def offsetWidth (bytes : Bytes) : Nat := bigEndian ((bytes.drop 2).take 1)

def storedOffset (bytes : Bytes) (place : Nat) : Nat :=
  bigEndian ((bytes.drop (3 + place * offsetWidth bytes)).take (offsetWidth bytes))

def objectsStart (bytes : Bytes) : Nat := 3 + (storedCount bytes + 1) * offsetWidth bytes

def position (bytes : Bytes) (place : Nat) : Nat :=
  objectsStart bytes + (storedOffset bytes place - 1)

def storedObject (bytes : Bytes) (place : Nat) : Bytes :=
  (bytes.drop (objectsStart bytes)).extract (storedOffset bytes place - 1)
    (storedOffset bytes (place + 1) - 1)

def storedObjects (bytes : Bytes) : List Bytes :=
  (List.range (storedCount bytes)).map (storedObject bytes)

abbrev ValidOffsets (bytes : Bytes) : Prop :=
  InOrder (storedOffset bytes) (bytes.length - objectsStart bytes) (storedCount bytes)

structure StoredIn (index : Index) (bytes : Bytes) : Prop where
  holds : index.Holds (storedObjects bytes)
  ordered : ∀ place < storedCount bytes, position bytes place ≤ position bytes (place + 1)
  within : ∀ place < storedCount bytes, position bytes (place + 1) ≤ bytes.length

def storedIndex (bytes : Bytes) : Index where
  count := storedCount bytes
  offsetSize := offsetWidth bytes
  offsets := ((bytes.drop 3).take ((storedCount bytes + 1) * offsetWidth bytes)).toArray
  data := ((bytes.drop (objectsStart bytes)).take (storedOffset bytes (storedCount bytes) - 1)).toArray

theorem stored_count_le (bytes : Bytes) : storedCount bytes ≤ 65535 := by
  have small := big_endian_lt (bytes.take 2)
  have few : byteSpan (bytes.take 2).length ≤ byteSpan 2 :=
    Nat.pow_le_pow_right (by decide) (List.length_take_le ..)
  exact Nat.le_of_lt_succ (Nat.lt_of_lt_of_le small few)

theorem Holds.count_stored (holds : index.Holds (storedObjects bytes)) :
    index.count = storedCount bytes := by
  rw [holds.count, storedObjects, List.length_map, List.length_range]

theorem Holds.found (holds : index.Holds (storedObjects bytes)) {place : Nat}
    (inside : place < storedCount bytes) : index.get? place = some (storedObject bytes place) := by
  rw [holds.get, storedObjects, List.getElem?_map, List.getElem?_range inside]
  rfl

theorem lists_stored_index (wide : 1 ≤ offsetWidth bytes) (narrow : offsetWidth bytes ≤ 4)
    (complete : objectsStart bytes ≤ bytes.length) :
    Lists (offsetWidth bytes) (storedIndex bytes).offsets (storedCount bytes)
      (storedOffset bytes) := by
  intro place inside
  have fits : place * offsetWidth bytes + offsetWidth bytes ≤
      (storedCount bytes + 1) * offsetWidth bytes := by
    rw [← Nat.succ_mul]
    exact Nat.mul_le_mul_right _ (Nat.succ_le_succ inside)
  rw [objectsStart] at complete
  have piece : slice? (storedIndex bytes).offsets (place * offsetWidth bytes)
      (place * offsetWidth bytes + offsetWidth bytes) =
        some ((bytes.drop (3 + place * offsetWidth bytes)).take (offsetWidth bytes)) := by
    rw [slice_of_le (Nat.le_add_right ..) (by simp [storedIndex]; omega), storedIndex,
      List.toList_toArray, extract_take_of_le _ fits, List.extract_eq_take_drop, List.drop_drop,
      Nat.add_sub_cancel_left]
  simp only [offsetAt?, piece, Option.bind_some, if_pos (And.intro wide narrow)]
  rfl

theorem holds_stored_index (wide : 1 ≤ offsetWidth bytes) (narrow : offsetWidth bytes ≤ 4)
    (complete : objectsStart bytes ≤ bytes.length) (valid : ValidOffsets bytes) :
    (storedIndex bytes).Holds (storedObjects bytes) := by
  have last := valid.within _ (Nat.le_refl _)
  have size : (storedIndex bytes).data.size = storedOffset bytes (storedCount bytes) - 1 := by
    simp [storedIndex]
    omega
  have inOrder : InOrder (storedOffset bytes) (storedIndex bytes).data.size (storedCount bytes) := by
    refine ⟨valid.first, valid.ordered, fun place inside => ?_⟩
    have before := valid.monotone inside (Nat.le_refl _)
    omega
  have holds := holds_of_in_order (lists_stored_index wide narrow complete) inOrder
  have same : ((List.range (storedCount bytes)).map fun place =>
      (storedIndex bytes).data.toList.extract (storedOffset bytes place - 1)
        (storedOffset bytes (place + 1) - 1)) = storedObjects bytes := by
    refine List.map_congr_left fun place member => ?_
    have before := valid.monotone (List.mem_range.mp member) (Nat.le_refl (storedCount bytes))
    rw [storedIndex, List.toList_toArray, extract_take_of_le _ (Nat.sub_le_sub_right before 1)]
    rfl
  exact same ▸ holds

theorem holds_empty : empty.Holds [] := holds_of_get rfl fun _ => rfl

inductive Accepted (bytes : Bytes) : Index → Bytes → Prop
  | none (none : storedCount bytes = 0) : Accepted bytes empty (bytes.drop 2)
  | stored (some : 0 < storedCount bytes) (wide : 1 ≤ offsetWidth bytes)
      (narrow : offsetWidth bytes ≤ 4) (complete : objectsStart bytes ≤ bytes.length)
      (valid : ValidOffsets bytes) :
      Accepted bytes (storedIndex bytes) (bytes.drop (position bytes (storedCount bytes)))

section Reading

variable (some : 0 < storedCount bytes) (wide : 1 ≤ offsetWidth bytes)
  (narrow : offsetWidth bytes ≤ 4) (complete : objectsStart bytes ≤ bytes.length)

include some wide narrow complete

theorem read_eq_of_complete : read bytes = (do
    let last ← lastOffset (offsetWidth bytes) (storedIndex bytes).offsets
      (bytes.length - objectsStart bytes) (storedCount bytes)
    let data ← Reader.take (last - 1)
    pure ⟨storedCount bytes, offsetWidth bytes, (storedIndex bytes).offsets, data.toArray⟩ :
      Reader Index) (bytes.drop (objectsStart bytes)) := by
  rw [objectsStart] at complete
  have counted : Field.u16.read bytes = .ok (storedCount bytes, bytes.drop 2) :=
    Field.read_of_le (show 2 ≤ bytes.length by omega)
  have measured : Field.u8.read (bytes.drop 2) = .ok (offsetWidth bytes, bytes.drop 3) := by
    have read := @Field.read_of_le _ Field.u8 (bytes.drop 2)
      (show 1 ≤ (bytes.drop 2).length by rw [List.length_drop]; omega)
    rwa [List.drop_drop] at read
  have taken := @Reader.take_of_le (bytes.drop 3) ((storedCount bytes + 1) * offsetWidth bytes)
    (by rw [List.length_drop]; omega)
  rw [List.drop_drop] at taken
  rw [read, Reader.bind_of_ok counted, if_neg (Nat.ne_of_gt some), Reader.bind_of_ok measured,
    if_pos ⟨wide, narrow⟩, readFrom, Reader.bind_of_ok taken,
    Reader.bind_of_ok (Reader.length_left _), List.length_drop]
  rfl

theorem read_of_valid (valid : ValidOffsets bytes) :
    read bytes = .ok (storedIndex bytes, bytes.drop (position bytes (storedCount bytes))) := by
  have lists := lists_stored_index wide narrow complete
  have last := valid.within _ (Nat.le_refl _)
  have checked := (last_offset_ok_iff lists).mpr ⟨rfl, valid⟩
  have taken := @Reader.take_of_le (bytes.drop (objectsStart bytes))
    (storedOffset bytes (storedCount bytes) - 1) (by rw [List.length_drop]; omega)
  rw [List.drop_drop] at taken
  rw [read_eq_of_complete some wide narrow complete, Reader.bind_of_ok (Reader.lift_of_ok checked),
    Reader.bind_of_ok taken]
  rfl

theorem read_of_not_valid (invalid : ¬ ValidOffsets bytes) : read bytes = .error .malformedIndex := by
  have lists := lists_stored_index wide narrow complete
  have checked := last_offset_of_not_in_order lists invalid
  rw [read_eq_of_complete some wide narrow complete,
    Reader.bind_of_error (Reader.lift_of_error checked)]

end Reading

theorem accepted_of_read (read : Index.read bytes = .ok (index, rest)) :
    Accepted bytes index rest := by
  have whole := read
  obtain ⟨count, afterCount, counted, read⟩ := Reader.bind_ok read
  obtain ⟨isCount, rfl, -⟩ := Field.read_eq counted
  obtain rfl : count = storedCount bytes := isCount
  split at read
  · rename_i none
    obtain ⟨rfl, rfl⟩ := Prod.mk.inj (Except.ok.inj read)
    exact .none none
  · rename_i some
    obtain ⟨width, afterWidth, measured, read⟩ := Reader.bind_ok read
    obtain ⟨isWidth, rfl, enough⟩ := Field.read_eq measured
    obtain rfl : width = offsetWidth bytes := isWidth
    split at read
    · rename_i wide
      obtain ⟨offsets, afterOffsets, taken, -⟩ := Reader.bind_ok read
      obtain ⟨-, -, complete⟩ := Reader.take_eq taken
      have positive := Nat.pos_of_ne_zero some
      have two : Field.u16.size = 2 := rfl
      have one : Field.u8.size = 1 := rfl
      have complete : objectsStart bytes ≤ bytes.length := by
        rw [List.length_drop, two, one] at enough
        rw [List.length_drop, List.length_drop, two, one] at complete
        rw [objectsStart]
        omega
      by_cases valid : ValidOffsets bytes
      · rw [read_of_valid positive wide.1 wide.2 complete valid] at whole
        obtain ⟨rfl, rfl⟩ := Prod.mk.inj (Except.ok.inj whole)
        exact .stored positive wide.1 wide.2 complete valid
      · rw [read_of_not_valid positive wide.1 wide.2 complete valid] at whole
        cases whole
    · cases read

theorem stored_in_of_read (read : Index.read bytes = .ok (index, rest)) : index.StoredIn bytes := by
  cases accepted_of_read read with
  | none none =>
      have holds : storedObjects bytes = [] := by rw [storedObjects, none]; rfl
      have nowhere {property : Nat → Prop} : ∀ place < storedCount bytes, property place := by
        intro place inside
        rw [none] at inside
        cases inside
      exact ⟨holds ▸ holds_empty, nowhere, nowhere⟩
  | stored some wide narrow complete valid =>
      refine ⟨holds_stored_index wide narrow complete valid, fun place inside => ?_,
        fun place inside => ?_⟩
      · have grows := valid.ordered place inside
        rw [position, position]
        omega
      · have within := valid.within (place + 1) inside
        rw [position]
        omega

end Stored

end Index

end CompactFont
