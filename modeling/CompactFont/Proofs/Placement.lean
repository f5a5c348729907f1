import CompactFont.Font.Load
import CompactFont.Proofs.IndexReading

set_option autoImplicit false

namespace CompactFont

namespace Window

def Holds (program : Window) (start : Nat) (piece : Bytes) : Prop :=
  ∃ front tail, program.data = front ++ (piece ++ tail) ∧ front.length = start

variable {program : Window} {start : Nat} {piece first second : Bytes}

theorem holds_whole (data : Bytes) : (whole data).Holds 0 data := ⟨[], [], by simp [whole], rfl⟩

theorem Holds.left (held : program.Holds start (first ++ second)) : program.Holds start first := by
  obtain ⟨front, tail, shape, place⟩ := held
  exact ⟨front, second ++ tail, by rw [shape, List.append_assoc], place⟩

theorem Holds.right (held : program.Holds start (first ++ second)) :
    program.Holds (start + first.length) second := by
  obtain ⟨front, tail, shape, place⟩ := held
  exact ⟨front ++ first, tail, by simp [shape], by rw [List.length_append, place]⟩

theorem Holds.le (held : program.Holds start piece) :
    start + piece.length ≤ program.data.length := by
  obtain ⟨front, tail, shape, place⟩ := held
  rw [shape, List.length_append, List.length_append]
  omega

theorem Holds.drop_eq (held : program.Holds start piece) :
    ∃ tail, program.data.drop start = piece ++ tail := by
  obtain ⟨front, tail, shape, rfl⟩ := held
  exact ⟨tail, by rw [shape, List.drop_left]⟩

theorem Holds.read_at {α : Type} {reader : Reader α} {value : α} (held : program.Holds start piece)
    (reads : Reader.Reads reader piece value) : program.readAt start reader = .ok value := by
  obtain ⟨tail, ahead⟩ := held.drop_eq
  have natural : Dict.natural start = .ok start := by simp [Dict.natural]
  simp only [Window.readAt, natural, Window.read, Window.startingAt, ahead, bind, Except.bind,
    reads tail]
  rfl

theorem Holds.read {α : Type} {reader : Reader α} {value : α} (held : program.Holds 0 piece)
    (reads : Reader.Reads reader piece value) : program.read reader = .ok value := by
  obtain ⟨tail, ahead⟩ := held.drop_eq
  rw [List.drop_zero] at ahead
  rw [Window.read, ahead, reads tail]
  rfl

theorem Holds.part (held : program.Holds start piece) :
    program.part start piece.length = .ok ⟨program.base + start, piece⟩ := by
  obtain ⟨tail, ahead⟩ := held.drop_eq
  have some : ((piece ++ tail).isEmpty && piece.length != 0) = false := by
    cases piece <;> simp
  simp [Window.part, ahead, some]

end Window

theorem Index.length_flatten_le (width : Nat) (objects : List Bytes) :
    objects.flatten.length ≤ (Index.write width objects).length := by
  rw [Index.write]
  split
  · rename_i none
    subst none
    exact Nat.zero_le _
  · rw [List.length_append]
    omega

structure Index.Stores (index : Index) (objects : List Bytes) : Prop where
  written : index = .ofObjects 4 objects
  holds : index.Holds objects

namespace Window.Holds

variable {program : Window} {start : Nat} {objects : List Bytes}
  (held : program.Holds start (Index.write 4 objects)) (few : objects.length ≤ 65535)
  (small : program.data.length < 2147483648)

include held small

theorem fits_offset : 1 + objects.flatten.length < byteSpan 4 := by
  have span : byteSpan 4 = 4294967296 := rfl
  have within := held.le
  have length := Index.length_flatten_le 4 objects
  omega

include few

-- A program that 31 bits can reach all of is reached by offsets of four bytes.
theorem reads_index : Reader.Reads Index.read (Index.write 4 objects) (.ofObjects 4 objects) :=
  Index.reads_write (by decide) few (held.fits_offset small) (by decide)

theorem read_index : program.readAt start Index.read = .ok (.ofObjects 4 objects) :=
  held.read_at (held.reads_index few small)

theorem stores : (Index.ofObjects 4 objects).Stores objects :=
  ⟨rfl, Index.holds_of_objects (by decide) few (held.fits_offset small) (by decide)⟩

end Window.Holds

end CompactFont
