import Mathlib.Data.List.Basic
import CompactFont.Dict.Basic
import CompactFont.Proofs.Outcome
import CompactFont.Proofs.Spelling

set_option autoImplicit false

namespace CompactFont.Dict

open Reader

inductive Operand.SpeltBy : Operand → Bytes → Prop where
  | short {value : Int} (low : -1131 ≤ value) (high : value ≤ 1131) :
      SpeltBy (.integer value) (Integer.short value)
  | word {value : Int} (low : -32768 ≤ value) (high : value ≤ 32767) :
      SpeltBy (.integer value) (28 :: twosComplement 2 value)
  | long {value : Int} (low : -2147483648 ≤ value) (high : value ≤ 2147483647) :
      SpeltBy (.integer value) (29 :: twosComplement 4 value)
  | real {front : Bytes} {last : UInt8}
      (runs : ∀ byte ∈ front, byte.toNat / 16 ≠ 15 ∧ byte.toNat % 16 ≠ 15)
      (stops : last.toNat / 16 = 15 ∨ last.toNat % 16 = 15) :
      SpeltBy (.real ⟨front ++ [last]⟩) (30 :: (front ++ [last]))

structure WrittenOperand where
  operand : Operand
  bytes : Bytes
  spelt : operand.SpeltBy bytes

def WrittenOperand.place (offset : Nat) (small : offset < 2147483648) : WrittenOperand where
  operand := .integer offset
  bytes := 29 :: toBigEndian 4 offset
  spelt := by
    have wide : offset < byteSpan 4 := Nat.lt_trans small (by decide)
    rw [← twos_complement_natural wide]
    exact .long (by omega) (by omega)

def Operator.bytes (operator : Operator) : Bytes :=
  if operator.code < 256 then [UInt8.ofNat operator.code]
  else [12, UInt8.ofNat (operator.code - 12 * 256)]

inductive Ending where
  | known (operator : Operator)
  | unknown (second : UInt8) (absent : Operator.ofCode? (12 * 256 + second.toNat) = none)
  | reserved (byte : UInt8) (listed : byte.toNat ∈ [22, 23, 24, 25, 26, 27, 31, 255])

namespace Ending

def bytes : Ending → Bytes
  | .known operator => operator.bytes
  | .unknown second _ => [12, second]
  | .reserved byte _ => [byte]

def operator? : Ending → Option Operator
  | .known operator => some operator
  | _ => none

end Ending

section Places

def Operator.places : Operator → Nat
  | .charset | .encoding | .charStrings | .subrs | .fdArray | .fdSelect => 1
  | .privateDict => 2
  | _ => 0

def Operator.mayLocate : Operator → Operand → Bool
  | .encoding, .integer value => 1 < value
  | _, .integer _ => true
  | _, _ => false

def Operand.asPlace : Operand → Operand
  | .integer value => .offset value
  | operand => operand

def Operator.meaning (operator : Operator) (operands : List Operand) : List Operand :=
  if operands.length = operator.places ∧ operands.all operator.mayLocate then
    operands.map Operand.asPlace
  else operands

theorem locate_of_length_ne {operator : Operator} {operands : List Operand}
    (other : operands.length ≠ operator.places) : locate operator operands = operands := by
  unfold locate
  split <;> first | rfl | exact absurd rfl other

theorem locate_encoding (operand : Operand) :
    locate .encoding [operand] = Operator.encoding.meaning [operand] := by
  cases operand with
  | integer value =>
      by_cases large : 1 < value <;>
        simp [locate, Operator.meaning, Operator.places, Operator.mayLocate, Operand.asPlace, large]
  | offset value => rfl
  | real value => rfl

theorem locate_eq_meaning (operator : Operator) (operands : List Operand) :
    locate operator operands = operator.meaning operands := by
  by_cases same : operands.length = operator.places
  · cases operator with
    | encoding =>
        obtain ⟨operand, rfl⟩ := List.length_eq_one_iff.mp same
        exact locate_encoding operand
    | charset | charStrings | subrs | fdArray | fdSelect =>
        obtain ⟨operand, rfl⟩ := List.length_eq_one_iff.mp same
        cases operand <;> rfl
    | privateDict =>
        obtain ⟨length, offset, rfl⟩ := List.length_eq_two.mp same
        cases length <;> cases offset <;> rfl
    | _ =>
        obtain rfl := List.length_eq_zero_iff.mp same
        rfl
  · rw [locate_of_length_ne same, Operator.meaning, if_neg fun holds => same holds.1]

end Places

structure WrittenEntry where
  operands : List WrittenOperand
  ending : Ending
  few : operands.length ≤ 48

namespace WrittenEntry

def bytes (entry : WrittenEntry) : Bytes :=
  entry.operands.flatMap WrittenOperand.bytes ++ entry.ending.bytes

def entry? (entry : WrittenEntry) : Option Entry :=
  entry.ending.operator?.map fun operator =>
    ⟨operator, operator.meaning (entry.operands.map WrittenOperand.operand)⟩

end WrittenEntry

section Items

theorem reads_short {value : Int} (low : -1131 ≤ value) (high : value ≤ 1131) :
    Reads Item.read (Integer.short value) (Item.ofInteger value) := by
  obtain ⟨first, rest, shape, least, most, read⟩ := Integer.short_reads low high
  rw [shape]
  refine reads_bind (Field.reads_u8 first) ?_
  rw [Item.readFrom, if_neg (by omega), if_neg (by omega), if_neg (by omega), if_neg (by omega),
    if_neg (by omega), if_pos ⟨least, most⟩]
  exact reads_map _ read

theorem reads_operand {operand : Operand} {bytes : Bytes} (spelt : operand.SpeltBy bytes) :
    Reads Item.read bytes (.operand operand) := by
  cases spelt with
  | short low high => exact reads_short low high
  | word low high =>
      have span : (byteSpan 2 : Int) = 65536 := rfl
      exact reads_bind (Field.reads_u8 28)
        (reads_map Item.ofInteger (Field.reads_signed (by omega) (by omega)))
  | long low high =>
      have span : (byteSpan 4 : Int) = 4294967296 := rfl
      exact reads_bind (Field.reads_u8 29)
        (reads_map Item.ofInteger (Field.reads_signed (by omega) (by omega)))
  | real runs stops =>
      exact reads_bind (Field.reads_u8 30)
        (reads_map (fun bytes => Item.operand (.real ⟨bytes⟩)) (reads_take_through_nibble runs stops))

theorem reads_escaped (second : UInt8) :
    Reads Item.read [12, second] (Item.ofOperatorCode (12 * 256 + second.toNat)) :=
  reads_bind (Field.reads_u8 12)
    (reads_map (fun second => Item.ofOperatorCode (12 * 256 + second)) (Field.reads_u8 second))

theorem Operator.code_ranges (operator : Operator) :
    operator.code ≤ 21 ∧ operator.code ≠ 12 ∨
      12 * 256 ≤ operator.code ∧ operator.code < 13 * 256 := by
  cases operator <;> decide

theorem reads_operator (operator : Operator) :
    Reads Item.read operator.bytes (.operator operator) := by
  have known : Item.ofOperatorCode operator.code = .operator operator := by
    rw [Item.ofOperatorCode, Operator.of_code_code]
  rw [← known, Operator.bytes]
  rcases operator.code_ranges with ⟨low, single⟩ | ⟨least, most⟩
  · have byte := Field.reads_u8 (UInt8.ofNat operator.code)
    rw [UInt8.toNat_ofNat_of_lt' (Nat.lt_of_le_of_lt low (by decide))] at byte
    rw [if_pos (by omega)]
    refine reads_bind byte ?_
    rw [Item.readFrom, if_neg single, if_pos low]
    exact reads_pure _
  · have read := reads_escaped (UInt8.ofNat (operator.code - 12 * 256))
    have second : (UInt8.ofNat (operator.code - 12 * 256)).toNat = operator.code - 12 * 256 :=
      UInt8.toNat_ofNat_of_lt' (show _ < 256 by omega)
    rw [second, Nat.add_sub_cancel' least] at read
    rw [if_neg (by omega)]
    exact read

theorem reads_unknown {second : UInt8} (absent : Operator.ofCode? (12 * 256 + second.toNat) = none) :
    Reads Item.read [12, second] (.unknown (12 * 256 + second.toNat)) := by
  have read := reads_escaped second
  rwa [Item.ofOperatorCode, absent] at read

theorem reads_reserved {byte : UInt8} (listed : byte.toNat ∈ [22, 23, 24, 25, 26, 27, 31, 255]) :
    Reads Item.read [byte] (.reserved byte.toNat) := by
  refine reads_bind (Field.reads_u8 byte) ?_
  have places : byte.toNat = 22 ∨ byte.toNat = 23 ∨ byte.toNat = 24 ∨ byte.toNat = 25 ∨
      byte.toNat = 26 ∨ byte.toNat = 27 ∨ byte.toNat = 31 ∨ byte.toNat = 255 := by simpa using listed
  rw [Item.readFrom, if_neg (by omega), if_neg (by omega), if_neg (by omega), if_neg (by omega),
    if_neg (by omega), if_neg (by omega)]
  exact reads_pure _

end Items

section Entries

variable {pending : List Operand} {data rest bytes : Bytes}

theorem read_entries_nil : readEntries pending [] = pure [] := by
  rw [readEntries, if_pos rfl]

theorem ne_nil_of_read {item : Item} (read : Item.read data = .ok (item, rest)) : data ≠ [] := by
  rintro rfl
  cases read

theorem read_entries_operand {operand : Operand} (read : Reads Item.read bytes (.operand operand))
    (tail : Bytes) :
    readEntries pending (bytes ++ tail) =
      if maxOperands ≤ pending.length then throw .limitExceeded
      else readEntries (operand :: pending) tail := by
  rw [readEntries, if_neg (ne_nil_of_read (read tail))]
  split <;> rename_i found <;> rw [read tail] at found <;> cases found
  rfl

theorem read_entries_operator {operator : Operator}
    (read : Reads Item.read bytes (.operator operator)) (tail : Bytes) :
    readEntries pending (bytes ++ tail) =
      (⟨operator, operator.meaning pending.reverse⟩ :: ·) <$> readEntries [] tail := by
  rw [readEntries, if_neg (ne_nil_of_read (read tail))]
  split <;> rename_i found <;> rw [read tail] at found <;> cases found
  rw [map_eq_pure_bind, locate_eq_meaning]

theorem outcome_read_entries_unknown {code : Nat} (read : Reads Item.read bytes (.unknown code))
    (tail : Bytes) :
    (readEntries pending (bytes ++ tail)).outcome = (readEntries [] tail).outcome := by
  rw [readEntries, if_neg (ne_nil_of_read (read tail))]
  split <;> rename_i found <;> rw [read tail] at found <;> cases found
  rw [Attempt.outcome_bind]
  rfl

theorem outcome_read_entries_reserved {byte : Nat} (read : Reads Item.read bytes (.reserved byte))
    (tail : Bytes) :
    (readEntries pending (bytes ++ tail)).outcome = (readEntries [] tail).outcome := by
  rw [readEntries, if_neg (ne_nil_of_read (read tail))]
  split <;> rename_i found <;> rw [read tail] at found <;> cases found
  rw [Attempt.outcome_bind]
  rfl

theorem read_entries_operands (operands : List WrittenOperand)
    (few : pending.length + operands.length ≤ maxOperands) (tail : Bytes) :
    readEntries pending (operands.flatMap WrittenOperand.bytes ++ tail) =
      readEntries ((operands.map WrittenOperand.operand).reverse ++ pending) tail := by
  induction operands generalizing pending with
  | nil => rfl
  | cons operand later ih =>
      rw [List.length_cons] at few
      have room : ¬ maxOperands ≤ pending.length := by omega
      rw [List.flatMap_cons, List.append_assoc, read_entries_operand (reads_operand operand.spelt),
        if_neg room, ih (by rw [List.length_cons]; omega)]
      simp

theorem read_entries_too_many (operands : List WrittenOperand) (within : pending.length ≤ maxOperands)
    (many : maxOperands < pending.length + operands.length) (tail : Bytes) :
    readEntries pending (operands.flatMap WrittenOperand.bytes ++ tail) = throw .limitExceeded := by
  induction operands generalizing pending with
  | nil =>
      rw [List.length_nil] at many
      omega
  | cons operand later ih =>
      rw [List.length_cons] at many
      rw [List.flatMap_cons, List.append_assoc, read_entries_operand (reads_operand operand.spelt)]
      by_cases full : maxOperands ≤ pending.length
      · rw [if_pos full]
      · rw [if_neg full]
        apply ih
        · rw [List.length_cons]
          omega
        · rw [List.length_cons]
          omega

def Spells (bytes : Bytes) (entries : List Entry) : Prop :=
  ∀ tail, (readEntries [] (bytes ++ tail)).outcome =
    (entries ++ ·) <$> (readEntries [] tail).outcome

theorem spells_nil : Spells [] [] := by
  intro tail
  rw [List.nil_append]
  cases (readEntries [] tail).outcome <;> rfl

theorem spells_append {more : Bytes} {first second : List Entry} (before : Spells bytes first)
    (after : Spells more second) : Spells (bytes ++ more) (first ++ second) := by
  intro tail
  rw [List.append_assoc, before, after]
  cases (readEntries [] tail).outcome with
  | error error => rfl
  | ok entries => simp [Functor.map, Except.map]

theorem spells_if {condition : Bool} {entries : List Entry}
    (spells : condition = true → Spells bytes entries) :
    Spells (if condition then bytes else []) (if condition then entries else []) := by
  cases condition with
  | false => exact spells_nil
  | true => exact spells rfl

theorem spells_entry (entry : WrittenEntry) : Spells entry.bytes entry.entry?.toList := by
  intro tail
  have few : ([] : List Operand).length + entry.operands.length ≤ maxOperands := by
    rw [List.length_nil, Nat.zero_add]
    exact entry.few
  rw [WrittenEntry.bytes, List.append_assoc, read_entries_operands entry.operands few,
    List.append_nil, WrittenEntry.entry?]
  cases entry.ending with
  | known operator =>
      rw [Ending.bytes, read_entries_operator (reads_operator operator), Attempt.outcome_map,
        List.reverse_reverse]
      rfl
  | unknown second absent =>
      rw [Ending.bytes, outcome_read_entries_unknown (reads_unknown absent)]
      exact spells_nil tail
  | reserved byte listed =>
      rw [Ending.bytes, outcome_read_entries_reserved (reads_reserved listed)]
      exact spells_nil tail

theorem spells_known (operands : List WrittenOperand) (few : operands.length ≤ 48)
    (operator : Operator) :
    Spells (operands.flatMap WrittenOperand.bytes ++ operator.bytes)
      [⟨operator, operator.meaning (operands.map WrittenOperand.operand)⟩] :=
  spells_entry ⟨operands, .known operator, few⟩

theorem spells_entries (entries : List WrittenEntry) :
    Spells (entries.flatMap WrittenEntry.bytes) (entries.filterMap WrittenEntry.entry?) := by
  induction entries with
  | nil => exact spells_nil
  | cons entry later ih =>
      have both := spells_append (spells_entry entry) ih
      rw [List.flatMap_cons, List.filterMap_cons]
      cases known : entry.entry? with
      | none => rwa [known] at both
      | some value => rwa [known] at both

theorem outcome_of_bytes_of_spells {kind : Kind} {entries : List Entry}
    (spells : Spells bytes entries) :
    (ofBytes bytes : Attempt ReadError (Dict kind)).outcome = .ok ⟨entries⟩ := by
  have read := spells []
  rw [List.append_nil, read_entries_nil] at read
  rw [ofBytes, Attempt.outcome_map, read]
  simp [Functor.map, Except.map]

end Entries

theorem outcome_of_bytes_entries {kind : Kind} (entries : List WrittenEntry)
    (trailing : List WrittenOperand) (few : trailing.length ≤ maxOperands) :
    (ofBytes (entries.flatMap WrittenEntry.bytes ++ trailing.flatMap WrittenOperand.bytes) :
      Attempt ReadError (Dict kind)).outcome = .ok ⟨entries.filterMap WrittenEntry.entry?⟩ := by
  have room : ([] : List Operand).length + trailing.length ≤ maxOperands := by simpa using few
  have waiting := read_entries_operands trailing room []
  rw [List.append_nil, read_entries_nil] at waiting
  rw [ofBytes, Attempt.outcome_map, spells_entries, waiting, Attempt.outcome_pure]
  simp [Functor.map, Except.map]

theorem outcome_of_bytes_too_many {kind : Kind} (entries : List WrittenEntry)
    (operands : List WrittenOperand) (many : maxOperands < operands.length) (tail : Bytes) :
    (ofBytes (entries.flatMap WrittenEntry.bytes ++ (operands.flatMap WrittenOperand.bytes ++ tail)) :
      Attempt ReadError (Dict kind)).outcome = .error .limitExceeded := by
  have overflow : maxOperands < ([] : List Operand).length + operands.length := by simpa using many
  have refused := read_entries_too_many operands (Nat.zero_le _) overflow tail
  rw [ofBytes, Attempt.outcome_map, spells_entries, refused, Attempt.outcome_throw]
  rfl

theorem written_dict_has_its_known_entries {kind : Kind} (entries : List WrittenEntry)
    (operands : List WrittenOperand) :
    (operands.length ≤ 48 →
      (ofBytes (entries.flatMap WrittenEntry.bytes ++ operands.flatMap WrittenOperand.bytes) :
        Attempt ReadError (Dict kind)).outcome = .ok ⟨entries.filterMap WrittenEntry.entry?⟩) ∧
    (48 < operands.length → ∀ tail,
      (ofBytes (entries.flatMap WrittenEntry.bytes ++
        (operands.flatMap WrittenOperand.bytes ++ tail)) :
        Attempt ReadError (Dict kind)).outcome = .error .limitExceeded) :=
  ⟨outcome_of_bytes_entries entries operands, outcome_of_bytes_too_many entries operands⟩

def mixedEntries : List WrittenEntry := [
  ⟨[⟨_, _, .short (by decide : -1131 ≤ (5 : Int)) (by decide)⟩], .unknown 99 (by decide), by decide⟩,
  ⟨[⟨_, _, .real (List.forall_mem_singleton.mpr (by decide : (0xa5 : UInt8).toNat / 16 ≠ 15 ∧ _))
      (by decide : (0xff : UInt8).toNat / 16 = 15 ∨ _)⟩], .known .blueScale, by decide⟩,
  ⟨[⟨_, _, .long (by decide : -2147483648 ≤ (70000 : Int)) (by decide)⟩], .known .charStrings,
    by decide⟩,
  ⟨[⟨_, _, .word (by decide : -32768 ≤ (-200 : Int)) (by decide)⟩], .reserved 22 (by decide),
    by decide⟩]

def leftOver : WrittenOperand := ⟨_, _, .short (by decide : -1131 ≤ (-300 : Int)) (by decide)⟩

theorem mixed_dict_has_two_entries :
    (ofBytes [144, 12, 99, 30, 0xa5, 0xff, 12, 9, 29, 0, 1, 0x11, 0x70, 17, 28, 0xff, 0x38, 22, 251,
      192] :
      Attempt ReadError (Dict .top)).outcome =
        .ok ⟨[⟨.blueScale, [.real ⟨[0xa5, 0xff]⟩]⟩, ⟨.charStrings, [.offset 70000]⟩]⟩ ∧
    (ofBytes ((List.replicate 49 [251, 192]).flatten ++ [17]) :
      Attempt ReadError (Dict .top)).outcome = .error .limitExceeded := by
  constructor
  · exact (written_dict_has_its_known_entries mixedEntries [leftOver]).1 (by decide)
  · exact (written_dict_has_its_known_entries [] (List.replicate 49 leftOver)).2 (by decide) [17]

end CompactFont.Dict
