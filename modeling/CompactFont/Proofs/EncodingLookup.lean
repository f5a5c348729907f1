import CompactFont.Encoding.Basic
import CompactFont.Proofs.CharsetLookup

set_option autoImplicit false

namespace CompactFont

namespace CodeRange

def span (range : CodeRange) : List Nat := List.range' range.first (range.left + 1)

theorem glyph_of_eq (code : Nat) (ranges : List CodeRange) (glyph : Nat) :
    glyphOf? code ranges glyph =
      ((ranges.flatMap span).findIdx? (· == code)).map fun place => glyph + place := by
  induction ranges generalizing glyph with
  | nil => rfl
  | cons range rest ih =>
      rw [glyphOf?, List.flatMap_cons, span, find_idx_range'_append]
      by_cases inside : range.first ≤ code ∧ code ≤ range.first + range.left
      · rw [if_pos inside, if_pos inside, Option.map_some, Nat.add_sub_assoc inside.1]
      · rw [if_neg inside, if_neg inside, ih, Option.map_map]
        simp only [Function.comp_def, Nat.add_assoc, Nat.add_comm (range.left + 1)]

end CodeRange

namespace CodeTable

def listed : CodeTable → List Nat
  | .codes stored => stored
  | .ranges stored => stored.flatMap CodeRange.span

theorem glyph_of_eq (table : CodeTable) (code : Nat) :
    table.glyphOf? code = (table.listed.findIdx? (· == code)).map (· + 1) := by
  cases table with
  | codes stored => rfl
  | ranges stored =>
      rw [glyphOf?, listed, CodeRange.glyph_of_eq]
      simp only [Nat.add_comm]

end CodeTable

namespace Encoding

def nameId? : Encoding → Nat → Option Nat
  | .standard, code => some (standardEncoding[code]?.getD 0)
  | .expert, code => some (expertEncoding[code]?.getD 0)
  | .custom encoding, code =>
      (encoding.supplements.find? fun supplement => supplement.code = code).map Supplement.nameId

def codes : Encoding → List Nat
  | .custom encoding => encoding.table.listed
  | _ => []

structure Fits (encoding : Encoding) : Prop where
  ids : ∀ code id, encoding.nameId? code = some id → id ≤ maxId
  few : encoding.codes.length ≤ maxId

theorem glyph_of_of_name_id {encoding : Encoding} {code id : Nat}
    (stands : encoding.nameId? code = some id) (charset : Charset) :
    encoding.glyphOf charset code = glyphOfNameId charset id := by
  cases encoding with
  | standard | expert => rw [glyphOf, ← Option.some.inj stands]
  | custom encoding =>
      obtain ⟨supplement, found, rfl⟩ := Option.map_eq_some_iff.mp stands
      simp only [glyphOf, found]

theorem glyph_of_of_code {encoding : Encoding} (few : encoding.codes.length ≤ maxId) {code : Nat}
    (stands : encoding.nameId? code = none) (charset : Charset) :
    encoding.glyphOf charset code =
      ((encoding.codes.findIdx? (· == code)).map (· + 1)).getD 0 := by
  cases encoding with
  | standard | expert => cases stands
  | custom encoding =>
      have none := Option.map_eq_none_iff.mp stands
      simp only [glyphOf, none, codes, CodeTable.glyph_of_eq]
      cases found : encoding.table.listed.findIdx? (· == code) with
      | none => rfl
      | some place =>
          obtain ⟨inside, -⟩ := List.findIdx?_eq_some_iff_getElem.mp found
          rw [Option.map_some, Option.bind_some, as_id_of_le (Nat.le_trans inside few)]

theorem glyph_of_name_id_eq {charset : Charset} (isNames : charset.isCid = false) (id : Nat) :
    glyphOfNameId charset id = (charset.glyphOf? id).getD 0 := by
  rw [glyphOfNameId, charset.glyph_of_name_id_eq, isNames]
  rfl

theorem fits_of_table {table : Array Nat} (small : ∀ id ∈ table.toList, id ≤ maxId) (code : Nat) :
    table[code]?.getD 0 ≤ maxId := by
  cases found : table[code]? with
  | none => exact Nat.zero_le maxId
  | some id =>
      rw [← Array.getElem?_toList] at found
      exact small id (List.mem_of_getElem? found)

theorem fits_standard : standard.Fits where
  ids code _ stands := Option.some.inj stands ▸ fits_of_table (by decide +kernel) code
  few := Nat.zero_le maxId

theorem fits_expert : expert.Fits where
  ids code _ stands := Option.some.inj stands ▸ fits_of_table (by decide +kernel) code
  few := Nat.zero_le maxId

end Encoding

end CompactFont
