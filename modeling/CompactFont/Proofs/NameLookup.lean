import CompactFont.Proofs.CharsetLookup
import CompactFont.Proofs.IndexLayout
import CompactFont.Proofs.Outcome

set_option autoImplicit false

namespace CompactFont

namespace Strings

def all (strings : Strings) : List String :=
  standardStrings.toList ++ strings.custom.toList.map latin1

structure FirstNamed (strings : Strings) (name : String) (id : Nat) : Prop where
  small : id ≤ maxId
  named : strings.lookup? id = some name
  first : ∀ earlier < id, strings.lookup? earlier ≠ some name

theorem size_standard_strings_le : standardStrings.size ≤ maxId := by
  decide +kernel

theorem id_le_of_id_of {strings : Strings} {name : String} {id : Nat}
    (named : strings.idOf? name = some id) : id ≤ maxId := by
  have few := size_standard_strings_le
  unfold idOf? at named
  generalize standardStrings = table at few named
  split at named
  · rename_i place found
    obtain ⟨inside, -⟩ := Array.findIdx?_eq_some_iff_getElem.mp found
    obtain rfl := Option.some.inj named
    omega
  · obtain ⟨place, -, isId⟩ := Option.bind_eq_some_iff.mp named
    obtain ⟨small, rfl⟩ := as_id_eq_some.mp isId
    exact small

section Whole

variable {strings : Strings} (whole : strings.custom.Whole)

include whole

theorem lookup_eq (id : Nat) : strings.lookup? id = strings.all[id]? := by
  unfold lookup? all
  -- The lookups do not depend on what the standard strings are.
  generalize standardStrings = table
  by_cases inside : id < table.size
  · rw [List.getElem?_append_left (by simpa using inside), Array.getElem?_toList,
      Array.getElem?_eq_getElem inside]
  · have past : table.toList.length ≤ id := by simpa using inside
    rw [List.getElem?_append_right past, Array.getElem?_eq_none past, List.getElem?_map,
      ← whole.get]
    rfl

omit whole in
theorem id_of_eq (strings : Strings) (name : String) :
    strings.idOf? name = (strings.all.findIdx? (· == name)).bind asId? := by
  have few := size_standard_strings_le
  unfold idOf? all
  generalize standardStrings = table at few ⊢
  have listed : table.findIdx? (· == name) = table.toList.findIdx? (· == name) := by
    rw [← List.findIdx?_toArray, Array.toArray_toList]
  rw [List.findIdx?_append, List.findIdx?_map, ← listed]
  cases found : table.findIdx? (· == name) with
  | some place =>
      obtain ⟨inside, -⟩ := Array.findIdx?_eq_some_iff_getElem.mp found
      exact (as_id_of_le (Nat.le_trans (Nat.le_of_lt inside) few)).symm
  | none =>
      rw [Option.none_or, Option.bind_map]
      rfl

theorem id_of_eq_some_iff {name : String} {id : Nat} :
    strings.idOf? name = some id ↔ strings.FirstNamed name id := by
  rw [id_of_eq, Option.bind_eq_some_iff]
  constructor
  · rintro ⟨place, found, isId⟩
    obtain ⟨small, rfl⟩ := as_id_eq_some.mp isId
    obtain ⟨named, first⟩ := find_idx_eq_some_iff.mp found
    simp only [← lookup_eq whole] at named first
    exact ⟨small, named, first⟩
  · rintro ⟨small, named, first⟩
    simp only [lookup_eq whole] at named first
    exact ⟨id, find_idx_eq_some_iff.mpr ⟨named, first⟩, as_id_of_le small⟩

theorem length_all : strings.all.length = strings.count := by
  rw [all, count, whole.count, List.length_append, List.length_map, Array.length_toList]

theorem is_some_lookup_iff (id : Nat) : (strings.lookup? id).isSome ↔ id < strings.count := by
  rw [lookup_eq whole, ← length_all whole]
  simp

omit whole in
theorem get_of_lookup {name : String} {id : Nat} (named : strings.lookup? id = some name) :
    strings.get id = name := by
  rw [get, named, Option.getD_some]

theorem id_of_eq_none {name : String} (none : ∀ id ≤ maxId, strings.lookup? id ≠ some name) :
    strings.idOf? name = Option.none := by
  cases named : strings.idOf? name with
  | none => rfl
  | some id =>
      have first := (id_of_eq_some_iff whole).mp named
      exact absurd first.named (none id first.small)

end Whole

end Strings

namespace Charset

section Fitting

variable {charset : Charset} (fits : charset.Fits) {strings : Strings}

include fits

theorem id_of_le {glyph id : Nat} (small : glyph ≤ maxId) (has : charset.idOf? glyph = some id) :
    id ≤ maxId := by
  rw [id_of_eq fits small, Option.bind_eq_some_iff] at has
  obtain ⟨_, -, isId⟩ := has
  obtain ⟨within, rfl⟩ := as_id_eq_some.mp isId
  exact within

section Whole

variable (whole : strings.custom.Whole)

include whole

theorem named_of_glyph_of_name {name : String} {glyph : Nat}
    (found : charset.glyphOfName strings name = .ok glyph) (positive : glyph ≠ 0) :
    charset.nameOf? strings glyph = .ok (some name) := by
  obtain ⟨isNames, answer⟩ := glyph_of_name_ok_iff.mp found
  cases named : strings.idOf? name with
  | none =>
      rw [named] at answer
      exact absurd answer positive
  | some id =>
      have stands := (Strings.id_of_eq_some_iff whole).mp named
      have first := first_with_id_glyph_of fits stands.small
      rw [named, Option.getD_some] at answer
      rw [← answer] at first
      cases first with
      | missing none => exact absurd rfl positive
      | found few lists before =>
          rw [name_of_of_id_of isNames lists, Strings.get_of_lookup stands.named]

theorem glyph_of_name_of_first_named (isNames : charset.isCid = false) {name : String} {id other : Nat}
    (stands : strings.FirstNamed name id) (small : other ≤ maxId)
    (has : charset.idOf? other = some id) :
    ∃ found, charset.glyphOfName strings name = .ok found ∧
      charset.nameOf? strings found = .ok (some name) := by
  have first := first_with_id_glyph_of fits stands.small
  refine ⟨_, glyph_of_name_ok_iff.mpr ⟨isNames, rfl⟩, ?_⟩
  rw [(Strings.id_of_eq_some_iff whole).mpr stands, Option.getD_some]
  generalize (charset.glyphOf? id).getD 0 = found at first
  cases first with
  | missing none => exact absurd has (none other small)
  | found few lists before =>
      rw [name_of_of_id_of isNames lists, Strings.get_of_lookup stands.named]

end Whole

/-- With the strings of an INDEX that was read, the name of a glyph is answered with a glyph of that
name, if the first id that stands for the name is the id of a glyph, be it the same glyph or another
one. A name that no id stands for is made up of the id of the glyph, which lies past the end of the
strings, and is answered with glyph 0. -/
theorem glyph_name_selects_by_first_id {bytes rest : Bytes}
    (read : Index.read bytes = .ok (strings.custom, rest)) (isNames : charset.isCid = false)
    {glyph : Nat} (small : glyph ≤ maxId) {name : String}
    (named : charset.nameOf? strings glyph = .ok (some name)) :
    ((∃ other ≤ maxId, ∃ id, charset.idOf? other = some id ∧ strings.FirstNamed name id) →
      ∃ found, charset.glyphOfName strings name = .ok found ∧
        charset.nameOf? strings found = .ok (some name)) ∧
    ((∀ id ≤ maxId, strings.lookup? id ≠ some name) →
      (∃ id, charset.idOf? glyph = some id ∧ strings.count ≤ id ∧ name = "SID" ++ toString id) ∧
        charset.glyphOfName strings name = .ok 0) := by
  have whole := (Index.stored_in_of_read read).holds.whole
  constructor
  · rintro ⟨other, within, id, has, stands⟩
    exact glyph_of_name_of_first_named fits whole isNames stands within has
  · intro none
    constructor
    · rw [nameOf?, requireNames, isNames] at named
      obtain ⟨id, has, rfl⟩ := Option.map_eq_some_iff.mp (Except.ok.inj named)
      have absent : strings.lookup? id = Option.none := by
        cases present : strings.lookup? id with
        | none => rfl
        | some other =>
            rw [Strings.get_of_lookup present] at none
            exact absurd present (none id (id_of_le fits small has))
      have past : strings.count ≤ id := by
        rw [← Nat.not_lt, ← Strings.is_some_lookup_iff whole, absent]
        exact Bool.false_ne_true
      exact ⟨id, has, past, by rw [Strings.get, absent, Option.getD_none]⟩
    · rw [glyph_of_name_ok_iff, Strings.id_of_eq_none whole none]
      exact ⟨isNames, rfl⟩

end Fitting

def twiceNamed : Charset := .custom (.ids #[391, 34])

def onlyA : Strings := ⟨1, 1, #[1, 2], #[65]⟩

theorem repeated_name_selects_standard :
    Index.read [0, 1, 1, 1, 2, 65] = .ok (onlyA.custom, []) ∧
      ∃ found, twiceNamed.glyphOfName onlyA "A" = .ok found ∧
        twiceNamed.nameOf? onlyA found = .ok (some "A") := by
  have read : Index.read [0, 1, 1, 1, 2, 65] = .ok (onlyA.custom, []) :=
    Attempt.ok_of_to_option (by decide)
  have whole := (Index.stored_in_of_read read).holds.whole
  have fits : twiceNamed.Fits := by
    intro custom isCustom
    obtain rfl := Option.some.inj isCustom
    simp [CustomCharset.Fits, maxId]
  have named : twiceNamed.nameOf? onlyA 1 = .ok (some "A") :=
    Attempt.ok_of_to_option (by decide +kernel)
  have first : onlyA.FirstNamed "A" 34 :=
    (Strings.id_of_eq_some_iff whole).mp (by decide +kernel)
  exact ⟨read, (glyph_name_selects_by_first_id fits read rfl (by decide) named).1
    ⟨2, by decide, 34, rfl, first⟩⟩

theorem names_select_no_glyph :
    ((custom (.ids #[999])).nameOf? ⟨.empty⟩ 1 = .ok (some "SID999") ∧
      (custom (.ids #[999])).glyphOfName ⟨.empty⟩ "SID999" = .ok 0 ∧
      (custom (.ids #[999])).nameOf? ⟨.empty⟩ 0 = .ok (some ".notdef")) ∧
    (custom (.ids #[391])).nameOf? onlyA 1 = .ok (some "A") ∧
      (custom (.ids #[391])).glyphOfName onlyA "A" = .ok 0 ∧
      (custom (.ids #[391])).nameOf? onlyA 0 = .ok (some ".notdef") := by
  have absent : (⟨.empty⟩ : Strings).lookup? 999 = none := by decide +kernel
  have answer : (custom (.ids #[999])).glyphOfName ⟨.empty⟩ "SID999" = .ok 0 := by
    refine glyph_of_name_ok_iff.mpr ⟨rfl, ?_⟩
    cases named : (⟨.empty⟩ : Strings).idOf? "SID999" with
    | none => rfl
    | some id =>
        have stands := ((Strings.id_of_eq_some_iff Index.holds_empty.whole).mp named).named
        have other : 999 ≠ id := by
          rintro rfl
          cases absent.symm.trans stands
        by_cases zero : id = 0
        · simp [glyphOf?, zero]
        · simp [glyphOf?, CustomCharset.glyphOf?, other, zero]
  refine ⟨⟨?_, answer, ?_⟩, ?_, ?_, ?_⟩ <;> exact Attempt.ok_of_to_option (by decide +kernel)

end Charset

end CompactFont
