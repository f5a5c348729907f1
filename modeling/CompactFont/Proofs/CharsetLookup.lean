import CompactFont.Charset.Basic

set_option autoImplicit false

namespace CompactFont

theorem as_id_eq_some {number id : Nat} : asId? number = some id ↔ number ≤ maxId ∧ number = id := by
  rw [asId?, Option.ite_none_right_eq_some, Option.some.injEq]

theorem as_id_of_le {number : Nat} (small : number ≤ maxId) : asId? number = some number :=
  if_pos small

theorem bind_as_id_of_le {ids : List Nat} (small : ∀ id ∈ ids, id ≤ maxId) (place : Nat) :
    ids[place]?.bind asId? = ids[place]? := by
  cases found : ids[place]? with
  | none => rfl
  | some id => exact as_id_of_le (small id (List.mem_of_getElem? found))

theorem find_idx_eq_some_iff {α : Type} [BEq α] [LawfulBEq α] {items : List α} {item : α}
    {place : Nat} :
    items.findIdx? (· == item) = some place ↔
      items[place]? = some item ∧ ∀ earlier < place, items[earlier]? ≠ some item := by
  rw [List.findIdx?_eq_some_iff_getElem]
  constructor
  · rintro ⟨inside, found, first⟩
    refine ⟨List.getElem?_eq_some_iff.mpr ⟨inside, beq_iff_eq.mp found⟩, fun earlier before same => ?_⟩
    obtain ⟨_, equal⟩ := List.getElem?_eq_some_iff.mp same
    exact first earlier before (beq_iff_eq.mpr equal)
  · rintro ⟨found, first⟩
    obtain ⟨inside, equal⟩ := List.getElem?_eq_some_iff.mp found
    refine ⟨inside, beq_iff_eq.mpr equal, fun earlier before same => ?_⟩
    exact first earlier before (List.getElem?_eq_some_iff.mpr ⟨_, beq_iff_eq.mp same⟩)

theorem find_idx_range' (first count id : Nat) :
    (List.range' first count).findIdx? (· == id) =
      if first ≤ id ∧ id < first + count then some (id - first) else none := by
  by_cases inside : first ≤ id ∧ id < first + count
  · rw [if_pos inside, List.findIdx?_eq_some_iff_getElem]
    refine ⟨by rw [List.length_range']; omega, ?_, fun place earlier => ?_⟩
    · rw [List.getElem_range', beq_iff_eq]
      omega
    · rw [List.getElem_range', beq_iff_eq]
      omega
  · rw [if_neg inside, List.findIdx?_eq_none_iff]
    intro other member
    rw [List.mem_range'_1] at member
    rw [beq_eq_false_iff_ne]
    omega

theorem find_idx_range'_append (first left id : Nat) (rest : List Nat) :
    (List.range' first (left + 1) ++ rest).findIdx? (· == id) =
      if first ≤ id ∧ id ≤ first + left then some (id - first)
      else (rest.findIdx? (· == id)).map (· + (left + 1)) := by
  rw [List.findIdx?_append, find_idx_range', List.length_range']
  by_cases inside : first ≤ id ∧ id ≤ first + left
  · have below : first ≤ id ∧ id < first + (left + 1) := ⟨inside.1, Nat.lt_succ_of_le inside.2⟩
    rw [if_pos inside, if_pos below, Option.some_or]
  · have notBelow : ¬ (first ≤ id ∧ id < first + (left + 1)) := by omega
    rw [if_neg inside, if_neg notBelow, Option.none_or]

namespace IdRange

def span (range : IdRange) : List Nat := List.range' range.first range.size

theorem id_at_eq (ranges : List IdRange) (position : Nat) :
    idAt? ranges position = (ranges.flatMap span)[position]?.bind asId? := by
  induction ranges generalizing position with
  | nil => rfl
  | cons range rest ih =>
      have length : range.span.length = range.left + 1 := List.length_range'
      rw [idAt?, List.flatMap_cons]
      by_cases inside : position ≤ range.left
      · rw [if_pos inside, List.getElem?_append_left (by omega), span,
          List.getElem?_range' (by rw [size]; omega), Nat.one_mul, Option.bind_some]
      · rw [if_neg inside, List.getElem?_append_right (by omega), ih, length, size]

theorem glyph_of_eq (id : Nat) (ranges : List IdRange) (glyph : Nat) :
    glyphOf? id ranges glyph =
      ((ranges.flatMap span).findIdx? (· == id)).bind fun place => asId? (glyph + place) := by
  induction ranges generalizing glyph with
  | nil => rfl
  | cons range rest ih =>
      rw [glyphOf?, List.flatMap_cons, span, size, find_idx_range'_append]
      by_cases inside : range.first ≤ id ∧ id ≤ range.first + range.left
      · rw [if_pos inside, if_pos inside, Option.bind_some, Nat.add_sub_assoc inside.1]
      · rw [if_neg inside, if_neg inside, ih, Option.bind_map]
        simp only [Function.comp_def, Nat.add_assoc, Nat.add_comm (range.left + 1)]

end IdRange

namespace CustomCharset

-- The ids of the glyphs, one after the other, those past the largest id included.
def listed : CustomCharset → List Nat
  | .ids stored => 0 :: stored.toList
  | .ranges _ stored => 0 :: stored.flatMap IdRange.span

def Fits : CustomCharset → Prop
  | .ids stored => ∀ id ∈ stored, id ≤ maxId
  | .ranges _ _ => True

theorem id_of_eq {charset : CustomCharset} (fits : charset.Fits) (glyph : Nat) :
    charset.idOf? glyph = charset.listed[glyph]?.bind asId? := by
  cases glyph with
  | zero => cases charset <;> rfl
  | succ place =>
      cases charset with
      | ids stored =>
          have small : ∀ id ∈ stored.toList, id ≤ maxId :=
            fun id member => fits id (Array.mem_toList_iff.mp member)
          have found : (ids stored).idOf? (place + 1) = stored.toList[place]? :=
            (Array.getElem?_toList ..).symm
          rw [found, listed, List.getElem?_cons_succ, bind_as_id_of_le small]
      | ranges wide stored =>
          have found : (ranges wide stored).idOf? (place + 1) = IdRange.idAt? stored place := rfl
          rw [found, listed, List.getElem?_cons_succ, IdRange.id_at_eq]

theorem glyph_of_eq (charset : CustomCharset) (id : Nat) :
    charset.glyphOf? id = (charset.listed.findIdx? (· == id)).bind asId? := by
  by_cases zero : id = 0
  · subst zero
    cases charset <;> rfl
  · have notFirst : ¬ (0 == id) = true := by simpa using Ne.symm zero
    have shifted (rest : List Nat) :
        ((0 :: rest).findIdx? (· == id)).bind asId? =
          (rest.findIdx? (· == id)).bind fun place => asId? (1 + place) := by
      rw [List.findIdx?_cons, if_neg notFirst, Option.bind_map]
      simp only [Function.comp_def, Nat.add_comm]
    cases charset with
    | ids stored =>
        rw [glyphOf?, if_neg zero, listed, shifted, ← List.findIdx?_toArray, Array.toArray_toList]
        simp only [Nat.add_comm]
    | ranges wide stored => rw [glyphOf?, if_neg zero, listed, shifted, IdRange.glyph_of_eq]

end CustomCharset

namespace Charset

def custom? : Charset → Option CustomCharset
  | .custom charset => some charset
  | .cid charset => some charset
  | _ => none

theorem eq_of_custom {charset : Charset} {custom : CustomCharset}
    (isCustom : charset.custom? = some custom) : charset = .custom custom ∨ charset = .cid custom := by
  cases charset with
  | custom stored => exact .inl (congrArg Charset.custom (Option.some.inj isCustom))
  | cid stored => exact .inr (congrArg Charset.cid (Option.some.inj isCustom))
  | isoAdobe | expert | expertSubset | identity => cases isCustom

theorem id_of_of_custom {charset : Charset} {custom : CustomCharset}
    (isCustom : charset.custom? = some custom) (glyph : Nat) :
    charset.idOf? glyph = custom.idOf? glyph := by
  obtain rfl | rfl := eq_of_custom isCustom <;> rfl

def Fits (charset : Charset) : Prop := ∀ custom, charset.custom? = some custom → custom.Fits

def listed : Charset → List Nat
  | .isoAdobe => List.range (isoAdobeLast + 1)
  | .expert => expertCharset.toList
  | .expertSubset => expertSubsetCharset.toList
  | .custom charset => charset.listed
  | .identity glyphs => List.range glyphs
  | .cid charset => charset.listed

theorem listed_of_custom {charset : Charset} {custom : CustomCharset}
    (isCustom : charset.custom? = some custom) : charset.listed = custom.listed := by
  obtain rfl | rfl := eq_of_custom isCustom <;> rfl

theorem table_id_of {table : Array Nat} (small : ∀ id ∈ table.toList, id ≤ maxId) (glyph : Nat) :
    table[glyph]? = table.toList[glyph]?.bind asId? := by
  rw [bind_as_id_of_le small, Array.getElem?_toList]

theorem table_glyph_of (table : Array Nat) (id : Nat) :
    (table.findIdx? (· == id)).bind asId? = (table.toList.findIdx? (· == id)).bind asId? := by
  rw [← List.findIdx?_toArray, Array.toArray_toList]

theorem identity_id_of {glyph : Nat} (small : glyph ≤ maxId) (glyphs : Nat) :
    (if glyph < glyphs then some glyph else none) = (List.range glyphs)[glyph]?.bind asId? := by
  by_cases inside : glyph < glyphs
  · rw [if_pos inside, List.getElem?_range inside, Option.bind_some, as_id_of_le small]
  · rw [if_neg inside, List.getElem?_eq_none (by rw [List.length_range]; omega), Option.bind_none]

theorem identity_glyph_of {id : Nat} (small : id ≤ maxId) (glyphs : Nat) :
    (if id < glyphs then some id else none) =
      ((List.range glyphs).findIdx? (· == id)).bind asId? := by
  rw [List.range_eq_range', find_idx_range']
  simp only [Nat.zero_le, true_and, Nat.zero_add, Nat.sub_zero]
  split
  · exact (as_id_of_le small).symm
  · rfl

theorem id_of_eq {charset : Charset} (fits : charset.Fits) {glyph : Nat} (small : glyph ≤ maxId) :
    charset.idOf? glyph = charset.listed[glyph]?.bind asId? := by
  cases charset with
  | isoAdobe =>
      rw [listed, ← identity_id_of small]
      simp only [idOf?, Nat.lt_succ_iff]
  | expert => exact table_id_of (by decide +kernel) glyph
  | expertSubset => exact table_id_of (by decide +kernel) glyph
  | custom charset => exact CustomCharset.id_of_eq (fits charset rfl) glyph
  | identity glyphs => exact identity_id_of small glyphs
  | cid charset => exact CustomCharset.id_of_eq (fits charset rfl) glyph

theorem glyph_of_eq (charset : Charset) {id : Nat} (small : id ≤ maxId) (positive : id ≠ 0) :
    charset.glyphOf? id = (charset.listed.findIdx? (· == id)).bind asId? := by
  rw [glyphOf?.eq_def, if_neg positive]
  cases charset with
  | isoAdobe =>
      rw [listed, ← identity_glyph_of small]
      simp only [Nat.lt_succ_iff]
  | expert => exact table_glyph_of expertCharset id
  | expertSubset => exact table_glyph_of expertSubsetCharset id
  | custom charset => exact charset.glyph_of_eq id
  | identity glyphs => exact identity_glyph_of small glyphs
  | cid charset => exact charset.glyph_of_eq id

inductive FirstWithId (charset : Charset) (id : Nat) : Nat → Prop where
  | found {glyph : Nat} (small : glyph ≤ maxId) (has : charset.idOf? glyph = some id)
      (first : ∀ earlier < glyph, charset.idOf? earlier ≠ some id) : FirstWithId charset id glyph
  | missing (none : ∀ glyph ≤ maxId, charset.idOf? glyph ≠ some id) : FirstWithId charset id 0

theorem first_with_id_zero (charset : Charset) : charset.FirstWithId 0 0 := by
  have noEarlier : ∀ earlier < 0, charset.idOf? earlier ≠ some 0 :=
    fun earlier before => absurd before (Nat.not_lt_zero earlier)
  have small : 0 ≤ maxId := Nat.zero_le maxId
  cases charset with
  | identity glyphs =>
      by_cases none : glyphs = 0
      · subst none
        exact .missing fun glyph _ => by simp [idOf?]
      · exact .found small (if_pos (Nat.pos_of_ne_zero none)) noEarlier
  | isoAdobe | expert | expertSubset => exact .found small (by decide +kernel) noEarlier
  | custom charset | cid charset => exact .found small rfl noEarlier

theorem first_with_id_glyph_of {charset : Charset} (fits : charset.Fits) {id : Nat}
    (small : id ≤ maxId) : charset.FirstWithId id ((charset.glyphOf? id).getD 0) := by
  by_cases zero : id = 0
  · subst zero
    exact charset.first_with_id_zero
  · have listedAt {glyph : Nat} (few : glyph ≤ maxId) :
        charset.idOf? glyph = some id ↔ charset.listed[glyph]? = some id := by
      rw [id_of_eq fits few, Option.bind_eq_some_iff]
      constructor
      · rintro ⟨same, found, isId⟩
        rw [found, (as_id_eq_some.mp isId).2]
      · exact fun found => ⟨id, found, as_id_of_le small⟩
    rw [charset.glyph_of_eq small zero]
    cases found : charset.listed.findIdx? (· == id) with
    | none =>
        refine .missing fun glyph few same => ?_
        have member := List.mem_of_getElem? ((listedAt few).mp same)
        exact absurd (List.findIdx?_eq_none_iff.mp found id member) (by simp)
    | some place =>
        obtain ⟨first, none⟩ := find_idx_eq_some_iff.mp found
        by_cases few : place ≤ maxId
        · rw [Option.bind_some, as_id_of_le few]
          refine .found few ((listedAt few).mpr first) fun earlier before same => ?_
          exact none earlier before ((listedAt (Nat.le_trans (Nat.le_of_lt before) few)).mp same)
        · have noGlyph : asId? place = Option.none := if_neg few
          rw [Option.bind_some, noGlyph]
          refine .missing fun glyph small same => ?_
          exact none glyph (by omega) ((listedAt small).mp same)

theorem glyph_of_name_id_eq (charset : Charset) (id : Nat) :
    charset.glyphOfNameId id =
      if charset.isCid then .error .wrongKind else .ok ((charset.glyphOf? id).getD 0) := by
  rw [glyphOfNameId, requireNames]
  split <;> rfl

theorem glyph_of_cid_eq (charset : Charset) (cid : Nat) :
    charset.glyphOfCid cid =
      if charset.isCid then .ok ((charset.glyphOf? cid).getD 0) else .error .wrongKind := by
  rw [glyphOfCid, requireCids]
  split <;> rfl

theorem glyph_of_name_eq (charset : Charset) (strings : Strings) (name : String) :
    charset.glyphOfName strings name =
      if charset.isCid then .error .wrongKind
      else .ok ((charset.glyphOf? ((strings.idOf? name).getD 0)).getD 0) := by
  by_cases isCid : charset.isCid = true
  · simp only [glyphOfName, nameId, requireNames, if_pos isCid]
    rfl
  · have found : charset.nameId strings name = .ok ((strings.idOf? name).getD 0) := by
      simp only [nameId, requireNames, if_neg isCid]
      rfl
    rw [glyphOfName, found, if_neg isCid]
    by_cases zero : (strings.idOf? name).getD 0 = 0
    · rw [zero]
      rfl
    · have asked := charset.glyph_of_name_id_eq ((strings.idOf? name).getD 0)
      rw [if_neg isCid] at asked
      exact (if_neg zero).trans asked

theorem glyph_of_name_ok_iff {charset : Charset} {strings : Strings} {name : String} {glyph : Nat} :
    charset.glyphOfName strings name = .ok glyph ↔
      charset.isCid = false ∧
        glyph = (charset.glyphOf? ((strings.idOf? name).getD 0)).getD 0 := by
  rw [glyph_of_name_eq]
  cases charset.isCid with
  | true => exact ⟨nofun, nofun⟩
  | false => exact ⟨fun found => ⟨rfl, (Except.ok.inj found).symm⟩, fun both => both.2 ▸ rfl⟩

theorem glyph_of_cid_ok_iff {charset : Charset} {cid glyph : Nat} :
    charset.glyphOfCid cid = .ok glyph ↔
      charset.isCid = true ∧ glyph = (charset.glyphOf? cid).getD 0 := by
  rw [glyph_of_cid_eq]
  cases charset.isCid with
  | true => exact ⟨fun found => ⟨rfl, (Except.ok.inj found).symm⟩, fun both => both.2 ▸ rfl⟩
  | false => exact ⟨nofun, nofun⟩

theorem name_of_of_id_of {charset : Charset} (isNames : charset.isCid = false) {glyph id : Nat}
    (has : charset.idOf? glyph = some id) (strings : Strings) :
    charset.nameOf? strings glyph = .ok (some (strings.get id)) := by
  rw [nameOf?, requireNames, isNames, has]
  rfl

theorem charset_lookups_are_inverse (charset : Charset) (fits : charset.Fits) :
    (∀ custom, charset.custom? = some custom → ∀ glyph,
        charset.idOf? glyph = custom.listed[glyph]?.bind asId?) ∧
      ∀ id ≤ maxId, ∃ glyph, charset.FirstWithId id glyph ∧
        charset.glyphOfNameId id = (if charset.isCid then .error .wrongKind else .ok glyph) ∧
        charset.glyphOfCid id = if charset.isCid then .ok glyph else .error .wrongKind := by
  refine ⟨fun custom isCustom glyph => ?_, fun id small => ?_⟩
  · rw [id_of_of_custom isCustom, CustomCharset.id_of_eq (fits custom isCustom)]
  · exact ⟨_, first_with_id_glyph_of fits small, charset.glyph_of_name_id_eq id, charset.glyph_of_cid_eq id⟩

def overlapping : Charset := .cid (.ranges true [⟨7, 2⟩, ⟨65534, 3⟩, ⟨8, 4⟩])

theorem overlapping_lookups_are_inverse :
    overlapping.Fits ∧ overlapping.idOf? 6 = none ∧ overlapping.idOf? 8 = some 8 ∧
      overlapping.FirstWithId 8 2 ∧ overlapping.glyphOfCid 8 = .ok 2 := by
  have fits : overlapping.Fits := by
    intro custom isCustom
    obtain rfl := Option.some.inj isCustom
    trivial
  obtain ⟨places, firsts⟩ := charset_lookups_are_inverse overlapping fits
  obtain ⟨glyph, first, _, answer⟩ := firsts 8 (by decide)
  have two : overlapping.glyphOfCid 8 = .ok 2 := rfl
  obtain rfl : glyph = 2 := Except.ok.inj (answer.symm.trans two)
  exact ⟨fits, places _ rfl 6, places _ rfl 8, first, two⟩

end Charset

end CompactFont
