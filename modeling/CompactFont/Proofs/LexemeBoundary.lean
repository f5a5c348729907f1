import CompactFont.Charstring.Lexeme
import CompactFont.Proofs.Reading

set_option autoImplicit false

namespace CompactFont

namespace Reader

variable {α β : Type}

def Stable (reader : Reader α) : Prop :=
  ∀ bytes value rest tail, reader bytes = .ok (value, rest) →
    reader (bytes ++ tail) = .ok (value, rest ++ tail)

theorem stable_pure (value : α) : Stable (pure value : Reader α) := by
  intro bytes value' rest tail read
  have same : (value, bytes) = (value', rest) := Except.ok.inj read
  obtain ⟨rfl, rfl⟩ := Prod.mk.inj same
  rfl

theorem stable_throw (error : ReadError) : Stable (throw error : Reader α) := by
  intro bytes value rest tail read
  cases read

theorem stable_bind {reader : Reader α} {next : α → Reader β} (head : Stable reader)
    (rests : ∀ value, Stable (next value)) : Stable (reader >>= next) := by
  intro bytes value rest tail read
  obtain ⟨middle, left, first, read⟩ := bind_ok read
  rw [bind_of_ok (head bytes middle left tail first)]
  exact rests middle left value rest tail read

theorem stable_map {reader : Reader α} (f : α → β) (stable : Stable reader) :
    Stable (f <$> reader) := by
  rw [map_eq_pure_bind]
  exact stable_bind stable fun value => stable_pure (f value)

theorem take_ok {count : Nat} {bytes head rest : Bytes} (taken : take count bytes = .ok (head, rest)) :
    head.length = count ∧ bytes = head ++ rest := by
  obtain ⟨rfl, rfl, enough⟩ := take_eq taken
  exact ⟨List.length_take_of_le enough, (List.take_append_drop count bytes).symm⟩

theorem stable_take (count : Nat) : Stable (take count) := by
  intro bytes value rest tail read
  obtain ⟨rfl, rfl⟩ := take_ok read
  rw [List.append_assoc]
  exact take_append _ _

end Reader

theorem Field.stable_read {α : Type} (field : Field α) : Reader.Stable field.read :=
  Reader.stable_map _ (Reader.stable_take _)

theorem Integer.stable_read (first : Nat) : Reader.Stable (Integer.read first) := by
  unfold Integer.read
  split
  · exact Reader.stable_throw _
  · split
    · exact Reader.stable_pure _
    · split
      · exact Reader.stable_bind (Field.stable_read _) fun _ => Reader.stable_pure _
      · split
        · exact Reader.stable_bind (Field.stable_read _) fun _ => Reader.stable_pure _
        · exact Reader.stable_throw _

theorem Integer.yields_short (first : Nat) :
    Reader.Yields (fun value => -1131 ≤ value ∧ value ≤ 1131) (Integer.read first) := by
  unfold Integer.read
  split
  · exact Reader.yields_throw _
  · split
    · exact Reader.yields_pure ⟨by omega, by omega⟩
    · split
      · exact Reader.yields_bind Field.yields_u8 fun second _ =>
          Reader.yields_pure ⟨by omega, by omega⟩
      · split
        · exact Reader.yields_bind Field.yields_u8 fun second _ =>
            Reader.yields_pure ⟨by omega, by omega⟩
        · exact Reader.yields_throw _

theorem Key.stable_read_from (first : Nat) : Reader.Stable (Key.readFrom first) := by
  unfold Key.readFrom
  split
  · exact Reader.stable_map _ (Field.stable_read _)
  · exact Reader.stable_pure _

namespace Lexeme

theorem stable_type1_from (first : Nat) : Reader.Stable (type1From first) := by
  unfold type1From
  repeat' split
  · exact Reader.stable_map _ (Key.stable_read_from _)
  · exact Reader.stable_map _ (Field.stable_read _)
  · exact Reader.stable_map _ (Integer.stable_read _)

theorem stable_read_type1 : Reader.Stable readType1 :=
  Reader.stable_bind (Field.stable_read _) stable_type1_from

theorem stable_type2_from (first : Nat) : Reader.Stable (type2From first) := by
  unfold type2From
  repeat' split
  · exact Reader.stable_map _ (Field.stable_read _)
  · exact Reader.stable_map _ (Field.stable_read _)
  · exact Reader.stable_map _ (Key.stable_read_from _)
  · exact Reader.stable_map _ (Integer.stable_read _)

theorem stable_read_type2 : Reader.Stable readType2 :=
  Reader.stable_bind (Field.stable_read _) stable_type2_from

end Lexeme

end CompactFont
