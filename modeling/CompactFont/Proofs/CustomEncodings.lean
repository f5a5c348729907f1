import CompactFont.Proofs.GlyphTables
import CompactFont.Proofs.Spelling

set_option autoImplicit false

namespace CompactFont

theorem big_endian_lt_of_le {piece : Bytes} {width : Nat} (short : piece.length ≤ width) :
    bigEndian piece < byteSpan width :=
  Nat.lt_of_lt_of_le (big_endian_lt piece) (Nat.pow_le_pow_right (by decide) short)

namespace Field

variable {α : Type} {first second : Nat} {make : Nat × Nat → α} {bytes rest : Bytes}

theorem mem_of_read_pairs {count : Nat} {values : List α}
    (read : (((unsigned first).pair (unsigned second)).map make).readArray count bytes =
      .ok (values, rest)) :
    ∀ value ∈ values, ∃ one < byteSpan first, ∃ other < byteSpan second, value = make (one, other) := by
  intro value member
  obtain ⟨piece, short, rfl⟩ := mem_of_read_array read value member
  have shortHead : (piece.take first).length ≤ first := List.length_take_le _ _
  have shortTail : (piece.drop first).length ≤ second := by
    rw [List.length_drop]
    exact Nat.sub_le_of_le_add (Nat.add_comm first second ▸ short)
  exact ⟨_, big_endian_lt_of_le shortHead, _, big_endian_lt_of_le shortTail, rfl⟩

theorem spells_pair {one other : Nat} (make : Nat × Nat → α) (small : one < byteSpan first)
    (smallToo : other < byteSpan second) :
    (((unsigned first).pair (unsigned second)).map make).Spells
      (toBigEndian first one ++ toBigEndian second other) (make (one, other)) :=
  ((spells_unsigned small).pair (spells_unsigned smallToo)).map make

end Field

namespace CodeRange

structure Stored (range : CodeRange) : Prop where
  first : range.first < byteSpan 1
  left : range.left < byteSpan 1

def write (range : CodeRange) : Bytes := toBigEndian 1 range.first ++ toBigEndian 1 range.left

theorem spells_write {range : CodeRange} (stored : range.Stored) : field.Spells range.write range :=
  Field.spells_pair _ stored.first stored.left

theorem length_span (range : CodeRange) : range.span.length = range.left + 1 := List.length_range'

end CodeRange

namespace Supplement

structure Stored (supplement : Supplement) : Prop where
  code : supplement.code < byteSpan 1
  nameId : supplement.nameId < byteSpan 2

def write (supplement : Supplement) : Bytes :=
  toBigEndian 1 supplement.code ++ toBigEndian 2 supplement.nameId

theorem spells_write {supplement : Supplement} (stored : supplement.Stored) :
    field.Spells supplement.write supplement :=
  Field.spells_pair _ stored.code stored.nameId

end Supplement

namespace CodeTable

def Stored : CodeTable → Prop
  | .codes stored => stored.length < byteSpan 1 ∧ ∀ code ∈ stored, code < byteSpan 1
  | .ranges stored => stored.length < byteSpan 1 ∧ ∀ range ∈ stored, range.Stored

def format : CodeTable → Nat
  | .codes _ => 0
  | .ranges _ => 1

theorem format_le_one (table : CodeTable) : table.format ≤ 1 := by
  cases table with
  | codes stored => exact Nat.zero_le 1
  | ranges stored => exact Nat.le_refl 1

def write : CodeTable → Bytes
  | .codes stored => toBigEndian 1 stored.length ++ stored.flatMap (toBigEndian 1)
  | .ranges stored => toBigEndian 1 stored.length ++ stored.flatMap CodeRange.write

theorem length_listed_ranges_le {stored : List CodeRange} (small : ∀ range ∈ stored, range.Stored) :
    (ranges stored).listed.length ≤ stored.length * byteSpan 1 := by
  induction stored with
  | nil => exact Nat.zero_le _
  | cons range rest ih =>
      have later := ih fun other member => small other (List.mem_cons_of_mem _ member)
      have one : range.left + 1 ≤ byteSpan 1 := (small range List.mem_cons_self).left
      rw [listed, List.flatMap_cons, List.length_append, CodeRange.length_span, List.length_cons,
        Nat.succ_mul, Nat.add_comm]
      exact Nat.add_le_add later one

theorem length_listed_le_max_id {table : CodeTable} (stored : table.Stored) :
    table.listed.length ≤ maxId := by
  have one : byteSpan 1 = 256 := rfl
  cases table with
  | codes codes => exact Nat.le_trans (Nat.le_of_lt stored.1) (by decide)
  | ranges spans =>
      have few : spans.length < byteSpan 1 := stored.1
      have all := length_listed_ranges_le stored.2
      rw [one] at few all
      have limit : maxId = 65535 := rfl
      omega

end CodeTable

namespace CustomEncoding

open Reader CompactFont.Field

variable {bytes rest : Bytes} {encoding : CustomEncoding}

structure Stored (encoding : CustomEncoding) : Prop where
  table : encoding.table.Stored
  few : encoding.supplements.length < byteSpan 1
  supplements : ∀ supplement ∈ encoding.supplements, supplement.Stored

section Counted

variable {α : Type} {field : Field α} {values : List α}

theorem read_counted_ok (read : readCounted field bytes = .ok (values, rest)) :
    values.length < byteSpan 1 ∧ ∃ left, field.readArray values.length left = .ok (values, rest) := by
  obtain ⟨count, left, counted, stored⟩ := Reader.bind_ok read
  obtain ⟨rfl, -, -⟩ := Field.read_eq counted
  have length := (Field.read_array_eq stored).1
  rw [length]
  exact ⟨big_endian_lt_of_le (List.length_take_le _ _), left, stored⟩

theorem reads_counted {write : α → Bytes} (few : values.length < byteSpan 1)
    (narrow : field.size ≤ 3) (spells : ∀ value ∈ values, field.Spells (write value) value) :
    Reads (readCounted field) (toBigEndian 1 values.length ++ values.flatMap write) values := by
  have fits : values.length * field.size ≤ maxArraySize :=
    Nat.le_trans (Nat.mul_le_mul (Nat.le_of_lt few) narrow) (by decide)
  exact reads_bind (reads_unsigned few) (reads_array spells fits)

end Counted

theorem stored_of_read_table {format : Nat} {table : CodeTable}
    (read : readTable format bytes = .ok (table, rest)) : table.Stored := by
  unfold readTable at read
  split at read
  · obtain ⟨codes, counted, rfl⟩ := Reader.map_ok read
    obtain ⟨few, left, stored⟩ := read_counted_ok counted
    refine ⟨few, fun code member => ?_⟩
    obtain ⟨piece, short, rfl⟩ := Field.mem_of_read_array stored code member
    exact big_endian_lt_of_le short
  · obtain ⟨ranges, counted, rfl⟩ := Reader.map_ok read
    obtain ⟨few, left, stored⟩ := read_counted_ok counted
    refine ⟨few, fun range member => ?_⟩
    obtain ⟨first, small, more, smallToo, rfl⟩ := Field.mem_of_read_pairs stored range member
    exact ⟨small, smallToo⟩
  · cases read

theorem stored_of_read (read : CustomEncoding.read bytes = .ok (encoding, rest)) :
    encoding.Stored := by
  obtain ⟨format, afterFormat, -, read⟩ := Reader.bind_ok read
  obtain ⟨table, afterTable, isTable, read⟩ := Reader.bind_ok read
  have storedTable := stored_of_read_table isTable
  dsimp only at read
  split at read
  · obtain ⟨supplements, left, counted, done⟩ := Reader.bind_ok read
    obtain ⟨rfl, rfl⟩ := Prod.mk.inj (Except.ok.inj done)
    obtain ⟨few, start, stored⟩ := read_counted_ok counted
    refine ⟨storedTable, few, fun supplement member => ?_⟩
    obtain ⟨code, small, nameId, smallToo, rfl⟩ := Field.mem_of_read_pairs stored supplement member
    exact ⟨small, smallToo⟩
  · obtain ⟨rfl, rfl⟩ := Prod.mk.inj (Except.ok.inj read)
    exact ⟨storedTable, Nat.zero_lt_succ _, nofun⟩

theorem fits_of_stored (stored : encoding.Stored) : (Encoding.custom encoding).Fits where
  ids code id stands := by
    obtain ⟨supplement, found, rfl⟩ := Option.map_eq_some_iff.mp stands
    have small := stored.supplements supplement (List.mem_of_find?_eq_some found)
    exact Nat.le_of_lt_succ small.nameId
  few := CodeTable.length_listed_le_max_id stored.table

def write (encoding : CustomEncoding) : Bytes :=
  toBigEndian 1 (128 + encoding.table.format) ++ (encoding.table.write ++
    (toBigEndian 1 encoding.supplements.length ++ encoding.supplements.flatMap Supplement.write))

theorem reads_table {table : CodeTable} (stored : table.Stored) :
    Reads (readTable table.format) table.write table := by
  cases table with
  | codes codes =>
      exact reads_map CodeTable.codes (reads_counted stored.1 (by decide) fun code member =>
        spells_unsigned (stored.2 code member))
  | ranges ranges =>
      exact reads_map CodeTable.ranges (reads_counted stored.1 (by decide) fun range member =>
        CodeRange.spells_write (stored.2 range member))

theorem reads_write (stored : encoding.Stored) :
    Reads CustomEncoding.read encoding.write encoding := by
  have least := encoding.table.format_le_one
  have format : 128 + encoding.table.format < byteSpan 1 :=
    Nat.lt_of_le_of_lt (Nat.add_le_add_left least 128) (by decide)
  have low : (128 + encoding.table.format) % 128 = encoding.table.format := by omega
  have supplements : Reads (readCounted Supplement.field)
      (toBigEndian 1 encoding.supplements.length ++ encoding.supplements.flatMap Supplement.write)
      encoding.supplements :=
    reads_counted stored.few (by decide) fun supplement member =>
      Supplement.spells_write (stored.supplements supplement member)
  refine reads_bind (reads_unsigned format) ?_
  rw [low]
  refine reads_bind (reads_table stored.table) ?_
  rw [if_pos (Nat.le_add_right 128 _), ← List.append_nil (_ ++ _)]
  exact reads_bind supplements (reads_pure encoding)

theorem exists_read_iff :
    (∃ bytes rest, CustomEncoding.read bytes = .ok (encoding, rest)) ↔ encoding.Stored := by
  constructor
  · rintro ⟨bytes, rest, read⟩
    exact stored_of_read read
  · exact fun stored => ⟨encoding.write ++ [], [], reads_write stored []⟩

inductive Gives (encoding : CustomEncoding) (charset : Charset) (code : Nat) : Nat → Prop where
  | supplement {earlier later : List Supplement} {first : Supplement} {glyph : Nat}
      (split : encoding.supplements = earlier ++ first :: later) (has : first.code = code)
      (before : ∀ other ∈ earlier, other.code ≠ code)
      (named : charset.glyphOfNameId first.nameId = .ok glyph) : Gives encoding charset code glyph
  | withoutNames {supplement : Supplement} (member : supplement ∈ encoding.supplements)
      (has : supplement.code = code) (isCid : charset.isCid = true) : Gives encoding charset code 0
  | place {place : Nat} (free : ∀ other ∈ encoding.supplements, other.code ≠ code)
      (here : encoding.table.listed[place]? = some code)
      (before : ∀ earlier < place, encoding.table.listed[earlier]? ≠ some code) :
      Gives encoding charset code (place + 1)
  | missing (free : ∀ other ∈ encoding.supplements, other.code ≠ code)
      (absent : code ∉ encoding.table.listed) : Gives encoding charset code 0

theorem glyph_of_name_id_of_is_cid {charset : Charset} (isCid : charset.isCid = true) (id : Nat) :
    Encoding.glyphOfNameId charset id = 0 := by
  rw [Encoding.glyphOfNameId, charset.glyph_of_name_id_eq, if_pos isCid]
  rfl

section Codes

variable (charset : Charset) {code : Nat}

theorem name_id_eq_none_iff :
    (Encoding.custom encoding).nameId? code = none ↔
      ∀ other ∈ encoding.supplements, other.code ≠ code := by
  simp [Encoding.nameId?, List.find?_eq_none]

theorem gives_of_name_id {id : Nat} (stands : (Encoding.custom encoding).nameId? code = some id) :
    encoding.Gives charset code ((Encoding.custom encoding).glyphOf charset code) := by
  rw [Encoding.glyph_of_of_name_id stands]
  obtain ⟨first, found, rfl⟩ := Option.map_eq_some_iff.mp stands
  obtain ⟨has, earlier, later, split, before⟩ := List.find?_eq_some_iff_append.mp found
  have has : first.code = code := of_decide_eq_true has
  by_cases isCid : charset.isCid = true
  · rw [glyph_of_name_id_of_is_cid isCid]
    exact .withoutNames (List.mem_of_find?_eq_some found) has isCid
  · refine .supplement split has (fun other member => ?_) ?_
    · simpa using before other member
    · rw [Encoding.glyphOfNameId, charset.glyph_of_name_id_eq, if_neg isCid]
      rfl

theorem glyph_of_listed (few : encoding.table.listed.length ≤ maxId)
    (stands : (Encoding.custom encoding).nameId? code = none) :
    (Encoding.custom encoding).glyphOf charset code =
      ((encoding.table.listed.findIdx? (· == code)).map (· + 1)).getD 0 :=
  @Encoding.glyph_of_of_code (.custom encoding) few code stands charset

theorem gives_of_code (few : encoding.table.listed.length ≤ maxId)
    (stands : (Encoding.custom encoding).nameId? code = none) :
    encoding.Gives charset code ((Encoding.custom encoding).glyphOf charset code) := by
  have free := name_id_eq_none_iff.mp stands
  rw [glyph_of_listed charset few stands]
  cases found : encoding.table.listed.findIdx? (· == code) with
  | none =>
      refine .missing free fun member => ?_
      exact absurd (List.findIdx?_eq_none_iff.mp found code member) (by simp)
  | some place =>
      obtain ⟨here, before⟩ := find_idx_eq_some_iff.mp found
      exact .place free here before

theorem glyph_of_of_gives (few : encoding.table.listed.length ≤ maxId) {glyph : Nat}
    (gives : encoding.Gives charset code glyph) :
    (Encoding.custom encoding).glyphOf charset code = glyph := by
  cases gives with
  | @supplement earlier later first glyph split has before named =>
      have found : encoding.supplements.find? (fun other => other.code = code) = some first := by
        rw [List.find?_eq_some_iff_append]
        refine ⟨decide_eq_true has, earlier, later, split, fun other member => ?_⟩
        simpa using before other member
      have stands : (Encoding.custom encoding).nameId? code = some first.nameId :=
        congrArg (Option.map Supplement.nameId) found
      rw [Encoding.glyph_of_of_name_id stands, Encoding.glyphOfNameId, named]
      rfl
  | withoutNames member has isCid =>
      cases stands : (Encoding.custom encoding).nameId? code with
      | none => exact absurd has (name_id_eq_none_iff.mp stands _ member)
      | some id => rw [Encoding.glyph_of_of_name_id stands, glyph_of_name_id_of_is_cid isCid]
  | place free here before =>
      rw [glyph_of_listed charset few (name_id_eq_none_iff.mpr free),
        find_idx_eq_some_iff.mpr ⟨here, before⟩]
      rfl
  | missing free absent =>
      have none : encoding.table.listed.findIdx? (· == code) = none := by
        rw [List.findIdx?_eq_none_iff]
        intro other member
        rw [beq_eq_false_iff_ne]
        rintro rfl
        exact absent member
      rw [glyph_of_listed charset few (name_id_eq_none_iff.mpr free), none]
      rfl

end Codes

def flat (encoding : CustomEncoding) : CustomEncoding :=
  ⟨.codes encoding.table.listed, encoding.supplements⟩

theorem glyph_of_flat (few : encoding.table.listed.length ≤ maxId) (charset : Charset) (code : Nat) :
    (Encoding.custom encoding.flat).glyphOf charset code =
      (Encoding.custom encoding).glyphOf charset code := by
  have same : (Encoding.custom encoding.flat).nameId? code =
      (Encoding.custom encoding).nameId? code := rfl
  cases stands : (Encoding.custom encoding).nameId? code with
  | none =>
      have flat := @glyph_of_listed encoding.flat charset code few (same.trans stands)
      rw [glyph_of_listed charset few stands, flat]
      rfl
  | some id =>
      rw [Encoding.glyph_of_of_name_id stands, Encoding.glyph_of_of_name_id (same.trans stands)]

theorem code_gives_supplement_or_first_place
    (read : CustomEncoding.read bytes = .ok (encoding, rest)) (charset : Charset) :
    (∀ code glyph, (Encoding.custom encoding).glyphOf charset code = glyph ↔
      encoding.Gives charset code glyph) ∧
    encoding.table.listed.length ≤ maxId ∧
    (∀ code, (Encoding.custom encoding.flat).glyphOf charset code =
      (Encoding.custom encoding).glyphOf charset code) ∧
    ((∃ bytes rest, CustomEncoding.read bytes = .ok (encoding.flat, rest)) ↔
      encoding.table.listed.length < byteSpan 1 ∧
        ∀ code ∈ encoding.table.listed, code < byteSpan 1) := by
  have stored := stored_of_read read
  have few := CodeTable.length_listed_le_max_id stored.table
  refine ⟨fun code glyph => ⟨?_, glyph_of_of_gives charset few⟩, few, glyph_of_flat few charset, ?_⟩
  · rintro rfl
    cases stands : (Encoding.custom encoding).nameId? code with
    | none => exact gives_of_code charset few stands
    | some id => exact gives_of_name_id charset stands
  · rw [exists_read_iff]
    exact ⟨Stored.table, fun table => ⟨table, stored.few, stored.supplements⟩⟩

def overlappingCodes : CustomEncoding :=
  ⟨.ranges [⟨65, 2⟩, ⟨66, 200⟩], [⟨67, 7⟩]⟩

theorem overlapping_codes_give_first_places :
    CustomEncoding.read [129, 2, 65, 2, 66, 200, 1, 67, 0, 7] = .ok (overlappingCodes, []) ∧
      (Encoding.custom overlappingCodes).glyphOf .isoAdobe 67 = 7 ∧
      (Encoding.custom overlappingCodes).glyphOf .isoAdobe 66 = 2 ∧
      (Encoding.custom overlappingCodes.flat).glyphOf .isoAdobe 66 = 2 ∧
      ¬ ∃ bytes rest, CustomEncoding.read bytes = .ok (overlappingCodes.flat, rest) := by
  have read : CustomEncoding.read [129, 2, 65, 2, 66, 200, 1, 67, 0, 7] =
      .ok (overlappingCodes, []) := rfl
  obtain ⟨gives, -, same, storable⟩ := code_gives_supplement_or_first_place read .isoAdobe
  have supplemented : overlappingCodes.Gives .isoAdobe 67 7 :=
    .supplement (show overlappingCodes.supplements = [] ++ [⟨67, 7⟩] from rfl) rfl nofun rfl
  have second : (Encoding.custom overlappingCodes).glyphOf .isoAdobe 66 = 2 := by
    refine (gives 66 2).mpr (.place (by decide) rfl fun earlier before => ?_)
    obtain rfl := Nat.lt_one_iff.mp before
    decide
  refine ⟨read, (gives 67 7).mpr supplemented, second, (same 66).trans second, ?_⟩
  rw [storable]
  exact fun both => absurd (both.2 266 (by decide)) (by decide)

end CustomEncoding

end CompactFont
