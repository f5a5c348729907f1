import CompactFont.FontDictSelect
import CompactFont.Proofs.EncodingLookup
import CompactFont.Proofs.RangeReading

set_option autoImplicit false

namespace CompactFont

variable {bytes rest : Bytes}

theorem big_endian_le_max_id {piece : Bytes} (short : piece.length ≤ 2) : bigEndian piece ≤ maxId := by
  have small := big_endian_lt piece
  have few : byteSpan piece.length ≤ byteSpan 2 := Nat.pow_le_pow_right (by decide) short
  exact Nat.le_of_lt_succ (Nat.lt_of_lt_of_le small few)

theorem Field.le_max_id_of_read_array {count : Nat} {values : List Nat}
    (read : Field.u16.readArray count bytes = .ok (values, rest)) : ∀ value ∈ values, value ≤ maxId := by
  intro value member
  obtain ⟨piece, short, rfl⟩ := Field.mem_of_read_array read value member
  exact big_endian_le_max_id short

namespace IdRange

theorem length_span (range : IdRange) : range.span.length = range.size := List.length_range'

theorem covered_eq (ranges : List IdRange) : covered ranges = (ranges.flatMap span).length := by
  induction ranges with
  | nil => rfl
  | cons range rest ih =>
      rw [covered_cons, ih, List.flatMap_cons, List.length_append, length_span]

end IdRange

namespace CustomCharset

theorem length_listed_ids (stored : Array Nat) : (ids stored).listed.length = stored.size + 1 := rfl

-- All that is stored as an id is one, and there is an id for each of the glyphs. Where the ids are
-- stored one by one, none is left over.
structure Covers (charset : CustomCharset) (glyphs : Nat) : Prop where
  fits : charset.Fits
  enough : glyphs ≤ charset.listed.length
  noMore : ∀ stored, charset = .ids stored → charset.listed.length = glyphs

theorem covers_of_read_array {glyphs : Nat} {values : List Nat}
    (read : Field.u16.readArray glyphs bytes = .ok (values, rest)) :
    (ids values.toArray).Covers (glyphs + 1) := by
  have length : (ids values.toArray).listed.length = glyphs + 1 := by
    rw [length_listed_ids, List.size_toArray, (Field.read_array_eq read).1]
  refine ⟨fun id member => ?_, Nat.le_of_eq length.symm, fun _ _ => length⟩
  exact Field.le_max_id_of_read_array read id (List.mem_toArray.mp member)

theorem covers_of_read_covering {glyphs : Nat} {wide : Bool} {stored : List IdRange}
    (read : IdRange.readCovering wide glyphs bytes = .ok (stored, rest)) :
    (ranges wide stored).Covers (glyphs + 1) :=
  have enough := (IdRange.fewest_of_read_covering read).1.enough
  ⟨trivial, Nat.succ_le_succ (IdRange.covered_eq stored ▸ enough), nofun⟩

theorem covers_of_read {glyphs : Nat} {charset : CustomCharset}
    (read : CustomCharset.read glyphs bytes = .ok (charset, rest)) : charset.Covers glyphs := by
  cases glyphs with
  | zero => cases read
  | succ glyphs =>
      obtain ⟨format, left, -, table⟩ := Reader.bind_ok read
      split at table
      · obtain ⟨values, stored, rfl⟩ := Reader.map_ok table
        exact covers_of_read_array stored
      · obtain ⟨values, stored, rfl⟩ := Reader.map_ok table
        exact covers_of_read_covering stored
      · obtain ⟨values, stored, rfl⟩ := Reader.map_ok table
        exact covers_of_read_covering stored
      · cases table

end CustomCharset

namespace FontDictSelect

theorem size_of_read {glyphs : Nat} {fontDicts : Array Nat}
    (read : FontDictSelect.read glyphs bytes = .ok (.perGlyph fontDicts, rest)) :
    fontDicts.size = glyphs := by
  obtain ⟨format, left, -, table⟩ := Reader.bind_ok read
  split at table
  · obtain ⟨values, stored, same⟩ := Reader.map_ok table
    obtain rfl := FontDictSelect.perGlyph.inj same
    rw [List.size_toArray, (Field.read_array_eq stored).1]
  · obtain ⟨count, afterCount, -, more⟩ := Reader.bind_ok table
    obtain ⟨stored, afterRanges, -, last⟩ := Reader.bind_ok more
    obtain ⟨sentinel, afterAll, -, done⟩ := Reader.bind_ok last
    cases done
  · cases table

end FontDictSelect

end CompactFont
