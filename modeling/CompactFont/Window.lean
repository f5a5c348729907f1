import CompactFont.Field

set_option autoImplicit false

namespace CompactFont

structure Window where
  base : Nat
  data : Bytes
deriving DecidableEq, Repr

namespace Window

def whole (data : Bytes) : Window := ⟨0, data⟩

-- All data from `offset` on; none, but still at that base, when it lies past the end.
def startingAt (window : Window) (offset : Nat) : Window :=
  ⟨window.base + offset, window.data.drop offset⟩

-- Exactly `length` bytes from `offset` on. No bytes can be taken anywhere.
def part (window : Window) (offset length : Nat) : Except ReadError Window :=
  let ahead := window.data.drop offset
  if ahead.isEmpty && length != 0 then .error .badOffset
  else
    let piece := ahead.take length
    if piece.length = length then .ok ⟨window.base + offset, piece⟩ else .error .endOfData

theorem part_of_le {window : Window} {offset length : Nat}
    (enough : length = 0 ∨ offset + length ≤ window.data.length) :
    window.part offset length = .ok ⟨window.base + offset, (window.data.drop offset).take length⟩ := by
  have some : ((window.data.drop offset).isEmpty && length != 0) = false := by
    by_cases none : length = 0
    · rw [none, bne_self_eq_false, Bool.and_false]
    · have more : window.data.drop offset ≠ [] := by
        rw [Ne, List.drop_eq_nil_iff]
        omega
      rw [List.isEmpty_eq_false_iff.mpr more, Bool.false_and]
  have whole : ((window.data.drop offset).take length).length = length := by
    rw [List.length_take, List.length_drop]
    omega
  rw [part]
  simp only [some, whole]
  rfl

theorem part_of_lt {window : Window} {offset length : Nat} (some : length ≠ 0)
    (short : window.data.length < offset + length) :
    ∃ error, window.part offset length = .error error := by
  have cut : ((window.data.drop offset).take length).length ≠ length := by
    rw [List.length_take, List.length_drop]
    omega
  simp only [part, if_neg cut]
  split
  · exact ⟨_, rfl⟩
  · exact ⟨_, rfl⟩

def read {α : Type} (window : Window) (reader : Reader α) : Except ReadError α :=
  Prod.fst <$> reader window.data

end Window

end CompactFont
