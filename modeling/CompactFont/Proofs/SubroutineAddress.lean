import CompactFont.Proofs.Inlining
import CompactFont.Proofs.LexemeSpelling

set_option autoImplicit false

namespace CompactFont.Type2

section Selection

variable {index : Index} {operand : Number}

theorem subroutine_of_nowhere
    (nowhere : ∀ place < index.count, operand.truncate ≠ operandAt index.count place) :
    subroutine? index operand = none := by
  cases selected : subroutine? index operand with
  | none => rfl
  | some body =>
      obtain ⟨place, placed, stored⟩ := place_of_subroutine selected
      exact absurd placed (nowhere place (Index.lt_count_of_get stored))

def exactSubroutine? (index : Index) (operand : Number) : Option Bytes :=
  let place := operand.truncate + bias index.count
  if 0 ≤ place then index.get? place.toNat else none

theorem exact_of_place {place : Nat} (placed : operand.truncate = operandAt index.count place) :
    exactSubroutine? index operand = index.get? place := by
  have sum : operand.truncate + bias index.count = place := by
    rw [placed, operandAt]
    omega
  simp only [exactSubroutine?, sum, Int.toNat_natCast, if_pos (Int.natCast_nonneg place)]

theorem exact_of_nowhere
    (nowhere : ∀ place < index.count, operand.truncate ≠ operandAt index.count place) :
    exactSubroutine? index operand = none := by
  by_cases natural : 0 ≤ operand.truncate + bias index.count
  · obtain ⟨place, sum⟩ := Int.eq_ofNat_of_zero_le natural
    have placed : operand.truncate = operandAt index.count place := by
      rw [operandAt]
      omega
    rw [exact_of_place placed]
    exact Index.get_of_count_le (Nat.not_lt.mp fun inside => nowhere place inside placed)
  · simp only [exactSubroutine?, if_neg natural]

-- What 32 bits cannot hold is no place of a subroutine anyway.
theorem subroutine_eq_exact (few : index.count ≤ 65535) (operand : Number) :
    subroutine? index operand = exactSubroutine? index operand := by
  by_cases somewhere : ∃ place < index.count, operand.truncate = operandAt index.count place
  · obtain ⟨place, inside, placed⟩ := somewhere
    rw [subroutine_of_place placed (by omega), exact_of_place placed]
  · have nowhere : ∀ place < index.count, operand.truncate ≠ operandAt index.count place :=
      fun place inside placed => somewhere ⟨place, inside, placed⟩
    rw [subroutine_of_nowhere nowhere, exact_of_nowhere nowhere]

end Selection

section Calls

def CallEnters (index : Index) (operand : Number) (body : Bytes) : Prop :=
  ∀ subroutines byte, Calls subroutines byte index → ∀ enter state tail, state.ended = false →
    run (call enter) subroutines (byte :: tail)
        { state with tokens := .number operand :: state.tokens } =
      State.dropReturn <$> enter body state >>= run (call enter) subroutines tail

def CallIsSkipped (index : Index) (operand : Number) : Prop :=
  ∀ subroutines byte, Calls subroutines byte index → ∀ enter state tail, state.ended = false →
    run (call enter) subroutines (byte :: tail)
        { state with tokens := .number operand :: state.tokens } = (do
      Report.note (.noType2Subroutine operand)
      run (call enter) subroutines tail state)

variable {index : Index} {operand : Number} (present : index.isEmpty = false)

include present

theorem call_enters_of_found {body : Bytes} (found : subroutine? index operand = some body) :
    CallEnters index operand body := by
  intro subroutines byte calls enter state tail running
  rw [run_call_operator (call enter) calls present (by exact running) tail]
  simp only [call, found]

theorem call_is_skipped_of_not_found (missing : subroutine? index operand = none) :
    CallIsSkipped index operand := by
  intro subroutines byte calls enter state tail running
  rw [run_call_operator (call enter) calls present (by exact running) tail]
  simp only [call, missing, bind_assoc, pure_bind]

end Calls

theorem operands_address_subroutines {bytes rest : Bytes} {index : Index}
    (read : Index.read bytes = .ok (index, rest)) (present : 0 < index.count) :
    (∀ place < index.count, index.get? place = some (Index.storedObject bytes place) ∧
        -32768 ≤ operandAt index.count place ∧ operandAt index.count place ≤ 32767 ∧
        Reader.Reads Lexeme.readType2 (28 :: twosComplement 2 (operandAt index.count place))
          (.number (.integer (operandAt index.count place))) ∧
        ∀ operand : Number, operand.truncate = operandAt index.count place →
          subroutine? index operand = some (Index.storedObject bytes place) ∧
            CallEnters index operand (Index.storedObject bytes place)) ∧
      (∀ operand : Number,
        (∀ place < index.count, operand.truncate ≠ operandAt index.count place) →
          subroutine? index operand = none ∧ CallIsSkipped index operand) ∧
      ∀ operand : Number, subroutine? index operand = exactSubroutine? index operand := by
  have holds := (Index.stored_in_of_read read).holds
  have few : index.count ≤ 65535 := holds.count_stored ▸ Index.stored_count_le bytes
  have filled := Index.is_empty_of_pos present
  refine ⟨fun place inside => ?_, fun operand nowhere => ?_, subroutine_eq_exact few⟩
  · obtain ⟨low, high⟩ := operand_at_range few inside
    have stored := holds.found (holds.count_stored ▸ inside)
    refine ⟨stored, low, high, Lexeme.reads_type2_word low high, fun operand placed => ?_⟩
    have found := (subroutine_of_place placed (by omega)).trans stored
    exact ⟨found, call_enters_of_found filled found⟩
  · have missing := subroutine_of_nowhere nowhere
    exact ⟨missing, call_is_skipped_of_not_found filled missing⟩

def numbered : List Bytes := (List.range 1240).map fun place => toBigEndian 2 place ++ [11]

def numberedSubrs : Index := .ofObjects 2 numbered

theorem small_numbered : 1 + numbered.flatten.length < byteSpan 2 := by
  have length : numbered.flatten.length = 3720 := by
    have each : List.length ∘ (fun place => toBigEndian 2 place ++ [11]) = fun _ => 3 := by
      funext place
      simp [length_to_big_endian]
    rw [List.length_flatten, numbered, List.map_map, each, List.map_const', List.length_range,
      List.sum_replicate_nat]
  rw [length]
  decide

theorem length_numbered : numbered.length = 1240 := by
  rw [numbered, List.length_map, List.length_range]

theorem few_numbered : numbered.length ≤ 65535 := length_numbered ▸ by decide

theorem holds_numbered : numberedSubrs.Holds numbered :=
  Index.holds_of_objects (by decide) few_numbered small_numbered (by decide)

theorem count_numbered : numberedSubrs.count = 1240 := by
  rw [holds_numbered.count, length_numbered]

theorem operand_at_numbered (place : Nat) : operandAt numberedSubrs.count place = place - 1131 := by
  rw [count_numbered]
  rfl

theorem get_numbered {place : Nat} (inside : place < 1240) :
    numberedSubrs.get? place = some (toBigEndian 2 place ++ [11]) := by
  rw [holds_numbered.get, numbered, List.getElem?_map, List.getElem?_range inside]
  rfl

theorem numbered_subroutines_are_addressed :
    subroutine? numberedSubrs (.integer (-1131)) = some [0, 0, 11] ∧
      CallEnters numberedSubrs (.fixed 108 32768) [4, 215, 11] ∧
      CallIsSkipped numberedSubrs (.integer 109) ∧
      CallIsSkipped numberedSubrs (.integer (-1132)) ∧
      subroutine? numberedSubrs (.integer 2147483647) = none ∧
      exactSubroutine? numberedSubrs (.integer (-107)) = some [4, 0, 11] := by
  have count := count_numbered
  have read : Index.read (Index.write 2 numbered ++ []) = .ok (numberedSubrs, []) :=
    Index.reads_write (by decide) few_numbered small_numbered (by decide) []
  obtain ⟨each, others, exact⟩ := operands_address_subroutines read (by omega)
  have selects (place : Nat) (inside : place < 1240) (operand : Number)
      (placed : operand.truncate = place - 1131) :
      subroutine? numberedSubrs operand = some (toBigEndian 2 place ++ [11]) ∧
        CallEnters numberedSubrs operand (toBigEndian 2 place ++ [11]) := by
    obtain ⟨stored, -, -, -, selected⟩ := each place (by omega)
    rw [← Option.some.inj ((get_numbered inside).symm.trans stored)] at selected
    exact selected operand (by rw [placed, operand_at_numbered])
  have skips (operand : Number) (far : operand.truncate < -1131 ∨ 108 < operand.truncate) :
      subroutine? numberedSubrs operand = none ∧ CallIsSkipped numberedSubrs operand := by
    refine others operand fun place inside => ?_
    rw [operand_at_numbered]
    omega
  refine ⟨(selects 0 (by decide) _ rfl).1, (selects 1239 (by decide) _ rfl).2,
    (skips _ (.inr ?_)).2, (skips _ (.inl ?_)).2, (skips _ (.inr ?_)).1, ?_⟩
  · decide
  · decide
  · decide
  · rw [← exact]
    exact (selects 1024 (by decide) _ rfl).1

end CompactFont.Type2
