import CompactFont.Field

set_option autoImplicit false

namespace CompactFont

theorem drop_take_of_le {α : Type} (items : List α) {start length front : Nat}
    (inside : start + length ≤ front) :
    ((items.take front).drop start).take length = (items.drop start).take length := by
  rw [List.drop_take, List.take_take, Nat.min_eq_left (by omega)]

namespace Reader

variable {α β : Type} {bytes rest : Bytes}

theorem bind_ok {reader : Reader α} {next : α → Reader β} {value : β}
    (read : (reader >>= next) bytes = .ok (value, rest)) :
    ∃ middle left, reader bytes = .ok (middle, left) ∧ next middle left = .ok (value, rest) := by
  simp only [bind, StateT.bind, Except.bind] at read
  split at read
  · cases read
  · rename_i result first
    exact ⟨result.1, result.2, first, read⟩

theorem bind_of_ok {reader : Reader α} {next : α → Reader β} {value : α}
    (read : reader bytes = .ok (value, rest)) : (reader >>= next) bytes = next value rest := by
  simp only [bind, StateT.bind, Except.bind, read]

theorem map_ok {reader : Reader α} {f : α → β} {value : β}
    (read : (f <$> reader) bytes = .ok (value, rest)) :
    ∃ middle, reader bytes = .ok (middle, rest) ∧ value = f middle := by
  rw [map_eq_pure_bind] at read
  obtain ⟨middle, left, first, last⟩ := bind_ok read
  obtain ⟨rfl, rfl⟩ := Prod.mk.inj (Except.ok.inj last)
  exact ⟨middle, first, rfl⟩

theorem bind_of_error {reader : Reader α} {next : α → Reader β} {error : ReadError}
    (failed : reader bytes = .error error) : (reader >>= next) bytes = .error error := by
  simp only [bind, StateT.bind, Except.bind, failed]

theorem map_of_ok {reader : Reader α} {value : α} (f : α → β)
    (read : reader bytes = .ok (value, rest)) : (f <$> reader) bytes = .ok (f value, rest) := by
  rw [map_eq_pure_bind, bind_of_ok read]
  rfl

theorem map_of_error {reader : Reader α} {error : ReadError} (f : α → β)
    (failed : reader bytes = .error error) : (f <$> reader) bytes = .error error := by
  rw [map_eq_pure_bind, bind_of_error failed]

theorem length_left (bytes : Bytes) :
    (List.length <$> get : Reader Nat) bytes = .ok (bytes.length, bytes) := rfl

theorem lift_of_ok {result : Except ReadError α} {value : α} (done : result = .ok value) :
    (liftM result : Reader α) bytes = .ok (value, bytes) := by
  subst done
  rfl

theorem lift_of_error {result : Except ReadError α} {error : ReadError}
    (failed : result = .error error) : (liftM result : Reader α) bytes = .error error := by
  subst failed
  rfl

theorem take_eq {count : Nat} {head : Bytes} (read : take count bytes = .ok (head, rest)) :
    head = bytes.take count ∧ rest = bytes.drop count ∧ count ≤ bytes.length := by
  simp only [take] at read
  split at read
  · rename_i enough
    obtain ⟨rfl, rfl⟩ := Prod.mk.inj (Except.ok.inj read)
    rw [List.length_take] at enough
    exact ⟨rfl, rfl, by omega⟩
  · cases read

theorem take_of_le {count : Nat} (enough : count ≤ bytes.length) :
    take count bytes = .ok (bytes.take count, bytes.drop count) := by
  simp [take, enough]

theorem take_of_lt {count : Nat} (short : bytes.length < count) :
    take count bytes = .error .endOfData := by
  rw [take, if_neg]
  rw [List.length_take]
  omega

def FailsOnly (expected : ReadError → Prop) (reader : Reader α) : Prop :=
  ∀ bytes error, reader bytes = .error error → expected error

section Failures

variable {expected : ReadError → Prop}

theorem fails_only_pure (value : α) : FailsOnly expected (pure value : Reader α) := by
  intro bytes error failed
  cases failed

theorem fails_only_throw {error : ReadError} (has : expected error) :
    FailsOnly expected (throw error : Reader α) := by
  intro bytes other failed
  cases failed
  exact has

theorem fails_only_bind {reader : Reader α} {next : α → Reader β} (head : FailsOnly expected reader)
    (tail : ∀ value, FailsOnly expected (next value)) : FailsOnly expected (reader >>= next) := by
  intro bytes error failed
  simp only [bind, StateT.bind, Except.bind] at failed
  split at failed
  · rename_i first
    cases failed
    exact head bytes error first
  · exact tail _ _ error failed

theorem fails_only_map {reader : Reader α} (f : α → β) (fails : FailsOnly expected reader) :
    FailsOnly expected (f <$> reader) := by
  rw [map_eq_pure_bind]
  exact fails_only_bind fails fun value => fails_only_pure (f value)

theorem fails_only_take (ends : expected .endOfData) (count : Nat) :
    FailsOnly expected (take count) := by
  intro bytes error failed
  simp only [take] at failed
  split at failed
  · cases failed
  · cases failed
    exact ends

end Failures

def Yields (expected : α → Prop) (reader : Reader α) : Prop :=
  ∀ bytes value rest, reader bytes = .ok (value, rest) → expected value

section Values

variable {expected : α → Prop} {final : β → Prop}

theorem yields_pure {value : α} (has : expected value) : Yields expected (pure value : Reader α) := by
  intro bytes value' rest read
  obtain ⟨rfl, -⟩ := Prod.mk.inj (Except.ok.inj read)
  exact has

theorem yields_throw (error : ReadError) : Yields expected (throw error : Reader α) := by
  intro bytes value rest read
  cases read

theorem yields_bind {reader : Reader α} {next : α → Reader β} (head : Yields expected reader)
    (tail : ∀ value, expected value → Yields final (next value)) : Yields final (reader >>= next) := by
  intro bytes value rest read
  obtain ⟨middle, left, first, last⟩ := bind_ok read
  exact tail middle (head bytes middle left first) left value rest last

theorem yields_mono {weaker : α → Prop} {reader : Reader α}
    (implies : ∀ value, expected value → weaker value) (yields : Yields expected reader) :
    Yields weaker reader :=
  fun bytes value rest read => implies value (yields bytes value rest read)

theorem yields_map {reader : Reader α} {f : α → β} (yields : Yields expected reader)
    (implies : ∀ value, expected value → final (f value)) : Yields final (f <$> reader) := by
  intro bytes value rest read
  obtain ⟨middle, first, rfl⟩ := map_ok read
  exact implies middle (yields bytes middle rest first)

end Values

end Reader

namespace Field

variable {α : Type} {field : Field α} {bytes rest : Bytes}

theorem read_eq {value : α} (read : field.read bytes = .ok (value, rest)) :
    value = field.decode (bytes.take field.size) ∧ rest = bytes.drop field.size ∧
      field.size ≤ bytes.length := by
  obtain ⟨head, taken, rfl⟩ := Reader.map_ok read
  obtain ⟨rfl, rfl, enough⟩ := Reader.take_eq taken
  exact ⟨rfl, rfl, enough⟩

theorem read_of_le (enough : field.size ≤ bytes.length) :
    field.read bytes = .ok (field.decode (bytes.take field.size), bytes.drop field.size) :=
  Reader.map_of_ok _ (Reader.take_of_le enough)

theorem read_of_lt (short : bytes.length < field.size) : field.read bytes = .error .endOfData :=
  Reader.map_of_error _ (Reader.take_of_lt short)

theorem read_array_of_le {count : Nat} (fits : count * field.size ≤ maxArraySize)
    (enough : count * field.size ≤ bytes.length) :
    field.readArray count bytes =
      .ok (field.items count (bytes.take (count * field.size)), bytes.drop (count * field.size)) := by
  rw [readArray, if_neg (Nat.not_lt.mpr fits)]
  exact Reader.map_of_ok _ (Reader.take_of_le enough)

theorem read_array_of_lt {count : Nat} (fits : count * field.size ≤ maxArraySize)
    (short : bytes.length < count * field.size) : field.readArray count bytes = .error .endOfData := by
  rw [readArray, if_neg (Nat.not_lt.mpr fits)]
  exact Reader.map_of_error _ (Reader.take_of_lt short)

theorem get_elem_items (field : Field α) {count place : Nat} (inside : place < count)
    (bytes : Bytes) :
    (field.items count bytes)[place]? =
      some (field.decode ((bytes.drop (place * field.size)).take field.size)) := by
  induction count generalizing place bytes with
  | zero => exact absurd inside (Nat.not_lt_zero place)
  | succ count ih =>
      cases place with
      | zero => simp [items]
      | succ place =>
          have shift : (place + 1) * field.size = field.size + place * field.size := by
            rw [Nat.succ_mul, Nat.add_comm]
          rw [items, List.getElem?_cons_succ, ih (Nat.lt_of_succ_lt_succ inside), List.drop_drop, shift]

theorem read_array_eq {count : Nat} {values : List α}
    (read : field.readArray count bytes = .ok (values, rest)) :
    values.length = count ∧ rest = bytes.drop (count * field.size) ∧
      count * field.size ≤ bytes.length ∧ ∀ place < count,
        values[place]? = some (field.decode ((bytes.drop (place * field.size)).take field.size)) := by
  unfold readArray at read
  split at read
  · cases read
  · obtain ⟨head, taken, rfl⟩ := Reader.map_ok read
    obtain ⟨rfl, rfl, enough⟩ := Reader.take_eq taken
    refine ⟨field.length_items count _, rfl, enough, fun place inside => ?_⟩
    have fits : place * field.size + field.size ≤ count * field.size := by
      rw [← Nat.succ_mul]
      exact Nat.mul_le_mul_right _ inside
    rw [field.get_elem_items inside, drop_take_of_le _ fits]

theorem mem_of_read_array {count : Nat} {values : List α}
    (read : field.readArray count bytes = .ok (values, rest)) :
    ∀ value ∈ values, ∃ piece, piece.length ≤ field.size ∧ value = field.decode piece := by
  obtain ⟨length, -, -, decoded⟩ := read_array_eq read
  intro value member
  obtain ⟨place, inside, same⟩ := List.getElem_of_mem member
  have stored := decoded place (length ▸ inside)
  rw [List.getElem?_eq_getElem inside, same, Option.some.injEq] at stored
  exact ⟨_, List.length_take_le _ _, stored⟩

theorem fails_only_read {expected : ReadError → Prop} (ends : expected .endOfData) (field : Field α) :
    Reader.FailsOnly expected field.read :=
  Reader.fails_only_map _ (Reader.fails_only_take ends _)

theorem yields_read {expected : α → Prop}
    (means : ∀ piece : Bytes, piece.length = field.size → expected (field.decode piece)) :
    Reader.Yields expected field.read := by
  intro bytes value rest read
  obtain ⟨rfl, -, enough⟩ := read_eq read
  exact means _ (by rw [List.length_take, Nat.min_eq_left enough])

theorem yields_unsigned (size : Nat) : Reader.Yields (· < byteSpan size) (unsigned size).read := by
  apply yields_read
  intro piece sized
  have bound := big_endian_lt piece
  rw [sized] at bound
  exact bound

theorem yields_u8 : Reader.Yields (· < 256) u8.read := yields_unsigned 1

theorem yields_u16 : Reader.Yields (· < 65536) u16.read := yields_unsigned 2

theorem yields_pair {β : Type} {other : Field β} {expected : α → Prop} {final : β → Prop}
    (head : Reader.Yields expected field.read) (tail : Reader.Yields final other.read) :
    Reader.Yields (fun both => expected both.1 ∧ final both.2) (field.pair other).read := by
  apply yields_read
  intro piece sized
  have sized : piece.length = field.size + other.size := sized
  have left : (piece.drop field.size).length = other.size := by
    rw [List.length_drop, sized, Nat.add_sub_cancel_left]
  have second := tail _ _ _ (read_of_le (Nat.le_of_eq left.symm))
  rw [List.take_of_length_le (Nat.le_of_eq left)] at second
  exact ⟨head piece _ _ (read_of_le (sized ▸ Nat.le_add_right ..)), second⟩

theorem yields_signed (size : Nat) : Reader.Yields
    (fun value => -(byteSpan size : Int) ≤ value * 2 ∧ value * 2 < byteSpan size)
    (signed size).read := by
  apply yields_read
  intro piece sized
  have sized : piece.length = size := sized
  have some : 0 < byteSpan size := Nat.pow_pos (by decide)
  have low := @Int.le_bmod (bigEndian piece) (byteSpan size) some
  have high := @Int.bmod_lt (bigEndian piece) (byteSpan size) some
  change -(byteSpan size : Int) ≤ signedBigEndian piece * 2 ∧ signedBigEndian piece * 2 < byteSpan size
  rw [signedBigEndian, sized]
  exact ⟨by omega, by omega⟩

end Field

end CompactFont
