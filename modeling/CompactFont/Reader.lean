import CompactFont.Bytes
import CompactFont.Error

set_option autoImplicit false

namespace CompactFont

abbrev Reader := StateT Bytes (Except ReadError)

namespace Reader

def take (count : Nat) : Reader Bytes := fun bytes =>
  let head := bytes.take count
  if head.length = count then .ok (head, bytes.drop count) else .error .endOfData

def takeThroughNibble (nibble : Nat) : Reader Bytes := fun bytes =>
  match bytes.findIdx? fun byte => byte.toNat / 16 == nibble || byte.toNat % 16 == nibble with
  | some place => take (place + 1) bytes
  | none => .error .endOfData

def check (condition : Bool) (error : ReadError) : Except ReadError Unit :=
  if condition then .ok () else .error error

def checkIndex (count index : Nat) : Except ReadError Unit := check (index < count) .badIndex

-- Whatever is read leaves an end piece of the bytes, at least `count` bytes further on.
def Consumes {α : Type} (count : Nat) (reader : Reader α) : Prop :=
  ∀ bytes value rest, reader bytes = .ok (value, rest) →
    ∃ used, count ≤ used ∧ used ≤ bytes.length ∧ rest = bytes.drop used

theorem consumes_mono {α : Type} {few many : Nat} {reader : Reader α} (fewer : few ≤ many)
    (consumes : Consumes many reader) : Consumes few reader := by
  intro bytes value rest read
  obtain ⟨used, least, fits, eq⟩ := consumes bytes value rest read
  exact ⟨used, Nat.le_trans fewer least, fits, eq⟩

theorem length_lt_of_consumes {α : Type} {reader : Reader α} (consumes : Consumes 1 reader)
    {bytes rest : Bytes} {value : α} (read : reader bytes = .ok (value, rest)) :
    rest.length < bytes.length := by
  obtain ⟨used, least, fits, rfl⟩ := consumes bytes value rest read
  rw [List.length_drop]
  omega

theorem consumes_pure {α : Type} (value : α) : Consumes 0 (pure value : Reader α) := by
  intro bytes value' rest read
  have same : (value, bytes) = (value', rest) := Except.ok.inj read
  exact ⟨0, Nat.le_refl 0, Nat.zero_le _, (Prod.mk.inj same).2.symm⟩

theorem consumes_throw {α : Type} (count : Nat) (error : ReadError) :
    Consumes count (throw error : Reader α) := by
  intro bytes value rest read
  cases read

theorem consumes_bind {α β : Type} {first second : Nat} {reader : Reader α} {next : α → Reader β}
    (head : Consumes first reader) (tail : ∀ value, Consumes second (next value)) :
    Consumes (first + second) (reader >>= next) := by
  intro bytes value rest read
  simp only [bind, StateT.bind, Except.bind] at read
  split at read
  · cases read
  · rename_i result run
    obtain ⟨middle, left⟩ := result
    obtain ⟨used, least, fits, rfl⟩ := head bytes middle left run
    obtain ⟨more, leastMore, fitsMore, rfl⟩ := tail middle (bytes.drop used) value rest read
    rw [List.length_drop] at fitsMore
    exact ⟨used + more, by omega, by omega, List.drop_drop⟩

theorem consumes_map {α β : Type} {count : Nat} {reader : Reader α} (f : α → β)
    (consumes : Consumes count reader) : Consumes count (f <$> reader) := by
  rw [map_eq_pure_bind]
  exact consumes_bind consumes fun value => consumes_pure (f value)

theorem consumes_take (count : Nat) : Consumes count (take count) := by
  intro bytes value rest read
  simp only [take] at read
  split at read
  · rename_i enough
    obtain ⟨_, rfl⟩ := Prod.mk.inj (Except.ok.inj read)
    rw [List.length_take] at enough
    exact ⟨count, Nat.le_refl _, by omega, rfl⟩
  · cases read

theorem consumes_take_through_nibble (nibble : Nat) : Consumes 0 (takeThroughNibble nibble) := by
  intro bytes value rest read
  simp only [takeThroughNibble] at read
  split at read
  · exact consumes_mono (Nat.zero_le _) (consumes_take _) bytes value rest read
  · cases read

theorem take_append (head rest : Bytes) : take head.length (head ++ rest) = .ok (head, rest) := by
  simp [take]

end Reader

end CompactFont
