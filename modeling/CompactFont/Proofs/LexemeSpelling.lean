import Mathlib.Data.List.Forall2
import CompactFont.Charstring.Lexeme
import CompactFont.Proofs.Spelling

set_option autoImplicit false

namespace CompactFont

open Reader

def Key.bytes : Key → Bytes
  | .single byte => [byte]
  | .escape byte => [12, byte]

def Key.Plain : Key → Prop
  | .single byte => byte.toNat < 32 ∧ byte.toNat ≠ 12 ∧ byte.toNat ≠ 28
  | .escape _ => True

theorem Type1Op.plain_key (op : Type1Op) : op.key.Plain := by
  cases op <;> simp [Type1Op.key, Key.Plain]

theorem Type2Op.plain_key (op : Type2Op) : op.key.Plain := by
  cases op <;> simp [Type2Op.key, Key.Plain]

theorem Key.plain_reads {key : Key} (plain : key.Plain) :
    ∃ first rest, key.bytes = first :: rest ∧ first.toNat < 32 ∧ first.toNat ≠ 28 ∧
      Reads (readFrom first.toNat) rest key := by
  cases key with
  | single byte =>
      obtain ⟨low, notEscape, notWord⟩ := plain
      refine ⟨byte, [], rfl, low, notWord, ?_⟩
      rw [readFrom, if_neg notEscape, UInt8.ofNat_toNat]
      exact reads_pure _
  | escape byte =>
      refine ⟨12, [byte], rfl, by decide, by decide, ?_⟩
      have second := reads_map (fun second => Key.escape (UInt8.ofNat second)) (Field.reads_u8 byte)
      rwa [UInt8.ofNat_toNat] at second

namespace Lexeme

theorem reads_type1_key {key : Key} (plain : key.Plain) :
    Reads readType1 key.bytes (.command key) := by
  obtain ⟨first, rest, shape, low, -, read⟩ := Key.plain_reads plain
  rw [shape]
  refine reads_bind (Field.reads_u8 first) ?_
  rw [type1From, if_pos low]
  exact reads_map Lexeme.command read

theorem reads_type2_key {key : Key} (plain : key.Plain) :
    Reads readType2 key.bytes (.command key) := by
  obtain ⟨first, rest, shape, low, notWord, read⟩ := Key.plain_reads plain
  rw [shape]
  refine reads_bind (Field.reads_u8 first) ?_
  rw [type2From, if_neg notWord, if_neg (by omega), if_pos low]
  exact reads_map Lexeme.command read

theorem reads_type1_short {value : Int} (low : -1131 ≤ value) (high : value ≤ 1131) :
    Reads readType1 (Integer.short value) (.number value) := by
  obtain ⟨first, rest, shape, least, most, read⟩ := Integer.short_reads low high
  rw [shape]
  refine reads_bind (Field.reads_u8 first) ?_
  rw [type1From, if_neg (by omega), if_neg (by omega)]
  exact reads_map _ read

theorem reads_type2_short {value : Int} (low : -1131 ≤ value) (high : value ≤ 1131) :
    Reads readType2 (Integer.short value) (.number (.integer value)) := by
  obtain ⟨first, rest, shape, least, most, read⟩ := Integer.short_reads low high
  rw [shape]
  refine reads_bind (Field.reads_u8 first) ?_
  rw [type2From, if_neg (by omega), if_neg (by omega), if_neg (by omega)]
  exact reads_map (fun value => Lexeme.number (Number.integer value)) read

theorem reads_type1_long {value : Int} (low : -2147483648 ≤ value) (high : value ≤ 2147483647) :
    Reads readType1 (255 :: twosComplement 4 value) (.number value) := by
  have span : (byteSpan 4 : Int) = 4294967296 := rfl
  exact reads_bind (Field.reads_u8 255)
    (reads_map Lexeme.number (Field.reads_signed (by omega) (by omega)))

theorem reads_type2_word {value : Int} (low : -32768 ≤ value) (high : value ≤ 32767) :
    Reads readType2 (28 :: twosComplement 2 value) (.number (.integer value)) := by
  have span : (byteSpan 2 : Int) = 65536 := rfl
  exact reads_bind (Field.reads_u8 28)
    (reads_map (fun value => Lexeme.number (Number.integer value))
      (Field.reads_signed (by omega) (by omega)))

end Lexeme

variable {O N : Type}

def Encodes (spelt : Token O N → Bytes → Prop) (tokens : List (Token O N)) (bytes : Bytes) : Prop :=
  ∃ pieces, List.Forall₂ spelt tokens pieces ∧ bytes = pieces.flatten

theorem encodes_flat_map {spelt : Token O N → Bytes → Prop} (write : Token O N → Bytes)
    {tokens : List (Token O N)} (each : ∀ token ∈ tokens, spelt token (write token)) :
    Encodes spelt tokens (tokens.flatMap write) := by
  refine ⟨tokens.map write, ?_, List.flatMap_def⟩
  rw [List.forall₂_map_right_iff, List.forall₂_same]
  exact each

theorem encodes_append {spelt : Token O N → Bytes → Prop} {first second : List (Token O N)}
    {bytes : Bytes} (written : Encodes spelt (first ++ second) bytes) :
    ∃ head tail, bytes = head ++ tail ∧ Encodes spelt first head ∧ Encodes spelt second tail := by
  obtain ⟨pieces, spells, rfl⟩ := written
  have front := List.forall₂_take first.length spells
  have back := List.forall₂_drop first.length spells
  rw [List.take_left] at front
  rw [List.drop_left] at back
  refine ⟨_, _, ?_, ⟨_, front, rfl⟩, ⟨_, back, rfl⟩⟩
  rw [← List.flatten_append, List.take_append_drop]

def FewTogether (tokens : List (Token O N)) : Prop :=
  ∀ before numbers after, tokens = before ++ numbers ++ after →
    (∀ token ∈ numbers, token.isNumber = true) → numbers.length ≤ 48

theorem few_together_of_length {tokens : List (Token O N)} (short : tokens.length ≤ 48) :
    FewTogether tokens := by
  rintro before numbers after rfl -
  rw [List.length_append, List.length_append] at short
  omega

theorem push_of_few_together {before after : List (Token O N)} {value : N}
    (few : FewTogether (before ++ .number value :: after)) :
    Token.push value before.reverse = .ok (.number value :: before.reverse) := by
  have split := List.takeWhile_append_dropWhile (p := Token.isNumber) (l := before.reverse)
  have last : before = (before.reverse.dropWhile Token.isNumber).reverse ++
      (before.reverse.takeWhile Token.isNumber).reverse := by
    rw [← List.reverse_append, split, List.reverse_reverse]
  have numbers : ∀ token ∈ (before.reverse.takeWhile Token.isNumber).reverse ++ [.number value],
      token.isNumber = true := by
    intro token member
    rcases List.mem_append.mp member with trailing | this
    · exact List.all_eq_true.mp List.all_takeWhile token (List.mem_reverse.mp trailing)
    · rw [List.mem_singleton.mp this]
      rfl
  have length := few (before.reverse.dropWhile Token.isNumber).reverse _ after
    (by rw [← List.append_assoc, ← last, List.append_assoc, List.singleton_append]) numbers
  have room : Token.pending before.reverse < 48 := by
    rw [List.length_append, List.length_reverse] at length
    exact length
  have notFull : ¬ maxArguments ≤ Token.pending before.reverse := Nat.not_le.mpr room
  rw [Token.push, if_neg notFull]

end CompactFont
