import CompactFont.Proofs.GlyphTables
import CompactFont.Proofs.Outcome

set_option autoImplicit false

namespace CompactFont

-- What is not an id leaves a gap where the list is looked up, and none where it is filtered.
def onlyIds (listed : List Nat) : List Nat := listed.filter (· ≤ maxId)

theorem only_ids_of_le {listed : List Nat} (small : ∀ id ∈ listed, id ≤ maxId) :
    onlyIds listed = listed :=
  List.filter_eq_self.mpr fun id member => decide_eq_true (small id member)

theorem only_ids_append (first second : List Nat) :
    onlyIds (first ++ second) = onlyIds first ++ onlyIds second :=
  List.filter_append ..

theorem only_ids_range' (first count : Nat) :
    onlyIds (List.range' first count) = List.range' first (min count (maxId + 1 - first)) := by
  induction count generalizing first with
  | zero => rw [Nat.zero_min]; rfl
  | succ count ih =>
      rw [onlyIds, List.range'_succ, List.filter_cons, ← onlyIds, ih]
      by_cases small : first ≤ maxId
      · have one : min (count + 1) (maxId + 1 - first) =
            min count (maxId + 1 - (first + 1)) + 1 := by
          omega
        rw [if_pos (decide_eq_true small), one, List.range'_succ]
      · have nothing : maxId + 1 - first = 0 := by omega
        have nothingLater : maxId + 1 - (first + 1) = 0 := by omega
        rw [if_neg (by simpa using small), nothing, nothingLater, Nat.min_zero, Nat.min_zero]
        rfl

theorem only_ids_eq_nil {listed : List Nat} :
    onlyIds listed = [] ↔ ∀ id ∈ listed, maxId < id := by
  simp [onlyIds, List.filter_eq_nil_iff]

theorem bind_as_id_of_lt {listed : List Nat} (large : ∀ id ∈ listed, maxId < id) (place : Nat) :
    listed[place]?.bind asId? = none := by
  cases found : listed[place]? with
  | none => rfl
  | some id => exact if_neg (Nat.not_le.mpr (large id (List.mem_of_getElem? found)))

section Gap

variable {kept gone later : List Nat} (small : ∀ id ∈ kept, id ≤ maxId)

include small

theorem only_ids_before_gap {glyph : Nat} (before : glyph < kept.length) :
    (onlyIds (kept ++ later))[glyph]? = (kept ++ later)[glyph]?.bind asId? := by
  rw [only_ids_append, only_ids_of_le small, List.getElem?_append_left before,
    List.getElem?_append_left before, bind_as_id_of_le small]

theorem agree_iff_nothing_after_gap (lost : ∀ id ∈ gone, maxId < id) (some : gone ≠ []) :
    (∀ glyph ≤ maxId, (onlyIds (kept ++ (gone ++ later)))[glyph]? =
      (kept ++ (gone ++ later))[glyph]?.bind asId?) ↔
        (kept.length ≤ maxId → onlyIds later = []) := by
  have skipped : onlyIds (kept ++ (gone ++ later)) = kept ++ onlyIds later := by
    rw [only_ids_append, only_ids_append, only_ids_of_le small, only_ids_eq_nil.mpr lost, List.nil_append]
  constructor
  · intro agree reachable
    have same := agree kept.length reachable
    have atGap : (gone ++ later)[0]? = gone[0]? :=
      List.getElem?_append_left (List.length_pos_iff.mpr some)
    rw [skipped, List.getElem?_append_right (Nat.le_refl _),
      List.getElem?_append_right (Nat.le_refl _), Nat.sub_self, atGap, bind_as_id_of_lt lost,
      List.getElem?_eq_none_iff] at same
    exact List.eq_nil_of_length_eq_zero (Nat.le_zero.mp same)
  · intro nothing glyph reachable
    by_cases before : glyph < kept.length
    · exact only_ids_before_gap small before
    · have from_gap := Nat.not_lt.mp before
      have none := nothing (Nat.le_trans from_gap reachable)
      have large : ∀ id ∈ gone ++ later, maxId < id :=
        List.forall_mem_append.mpr ⟨lost, only_ids_eq_nil.mp none⟩
      rw [skipped, none, List.append_nil, List.getElem?_eq_none from_gap,
        List.getElem?_append_right from_gap, bind_as_id_of_lt large]

end Gap

namespace IdRange

def Overruns (range : IdRange) : Prop := maxId < range.first + range.left

instance (range : IdRange) : Decidable range.Overruns :=
  inferInstanceAs (Decidable (maxId < range.first + range.left))

theorem ids_eq (range : IdRange) : range.ids = onlyIds range.span := by
  rw [ids, span, only_ids_range', size]
  congr 1
  omega

theorem flat_map_ids (ranges : List IdRange) : ranges.flatMap ids = onlyIds (ranges.flatMap span) := by
  induction ranges with
  | nil => rfl
  | cons range rest ih => rw [List.flatMap_cons, List.flatMap_cons, only_ids_append, ids_eq, ih]

theorem le_of_mem_span {range : IdRange} (fits : ¬ range.Overruns) :
    ∀ id ∈ range.span, id ≤ maxId := by
  intro id member
  obtain ⟨-, within⟩ := List.mem_range'_1.mp member
  have last := Nat.not_lt.mp fits
  rw [size] at within
  omega

theorem le_of_mem_spans {ranges : List IdRange} (fit : ∀ range ∈ ranges, ¬ range.Overruns) :
    ∀ id ∈ 0 :: ranges.flatMap span, id ≤ maxId := by
  intro id member
  rcases List.mem_cons.mp member with rfl | inside
  · exact Nat.zero_le maxId
  · obtain ⟨range, isRange, within⟩ := List.mem_flatMap.mp inside
    exact le_of_mem_span (fit range isRange) id within

structure FirstOverrun (stored before : List IdRange) (range : IdRange) (after : List IdRange) :
    Prop where
  split : stored = before ++ range :: after
  fit : ∀ earlier ∈ before, ¬ earlier.Overruns
  overruns : range.Overruns

theorem exists_first_overrun (stored : List IdRange) :
    (∀ range ∈ stored, ¬ range.Overruns) ∨
      ∃ before range after, FirstOverrun stored before range after := by
  induction stored with
  | nil => exact .inl nofun
  | cons range rest ih =>
      by_cases overruns : range.Overruns
      · exact .inr ⟨[], range, rest, rfl, nofun, overruns⟩
      · rcases ih with fit | ⟨before, other, after, split, fit, past⟩
        · exact .inl (List.forall_mem_cons.mpr ⟨overruns, fit⟩)
        · exact .inr ⟨range :: before, other, after, congrArg _ split,
            List.forall_mem_cons.mpr ⟨overruns, fit⟩, past⟩

theorem span_of_overruns {range : IdRange} (starts : range.first ≤ maxId)
    (overruns : range.Overruns) :
    range.span = List.range' range.first (maxId + 1 - range.first) ++
      List.range' (maxId + 1) (range.first + range.left - maxId) := by
  have past : maxId < range.first + range.left := overruns
  have next : range.first + (maxId + 1 - range.first) = maxId + 1 := by omega
  have count : range.size = maxId + 1 - range.first + (range.first + range.left - maxId) := by
    rw [size]
    omega
  rw [span, count, ← List.range'_append_1, next]

theorem only_ids_flat_map_span_eq_nil {ranges : List IdRange}
    (starts : ∀ range ∈ ranges, range.first ≤ maxId) :
    onlyIds (ranges.flatMap span) = [] ↔ ranges = [] := by
  cases ranges with
  | nil => exact ⟨fun _ => rfl, fun _ => rfl⟩
  | cons range rest =>
      refine ⟨fun none => ?_, nofun⟩
      have first : range.first ∈ (range :: rest).flatMap span :=
        List.mem_flatMap.mpr ⟨range, List.mem_cons_self, List.mem_range'_1.mpr ⟨Nat.le_refl _,
          Nat.lt_add_of_pos_right (Nat.succ_pos _)⟩⟩
      have past := only_ids_eq_nil.mp none range.first first
      exact absurd (starts range List.mem_cons_self) (Nat.not_le.mpr past)

theorem starts_of_read_covering {wide : Bool} {needed : Nat} {bytes rest : Bytes}
    {ranges : List IdRange} (read : readCovering wide needed bytes = .ok (ranges, rest)) :
    ∀ range ∈ ranges, range.first ≤ maxId := by
  obtain ⟨-, -, replayed⟩ := fewest_of_read_covering read
  intro range member
  obtain ⟨piece, -, rfl⟩ := Field.mem_of_read_array replayed range member
  exact big_endian_le_max_id (List.length_take_le _ _)

def gap (before : List IdRange) (range : IdRange) : Nat :=
  (before.flatMap span).length + (maxId + 1 - range.first) + 1

end IdRange

namespace CustomCharset

open IdRange

def Stored : CustomCharset → Prop
  | .ids stored => ∀ id ∈ stored, id ≤ maxId
  | .ranges _ stored => ∀ range ∈ stored, range.first ≤ maxId

theorem Stored.fits {charset : CustomCharset} (stored : charset.Stored) : charset.Fits := by
  cases charset with
  | ids ids => exact stored
  | ranges wide ranges => trivial

theorem le_of_mem_listed_ids {stored : Array Nat} (small : (ids stored).Stored) :
    ∀ id ∈ (ids stored).listed, id ≤ maxId := by
  intro id member
  rcases List.mem_cons.mp member with rfl | inside
  · exact Nat.zero_le maxId
  · exact small id (Array.mem_toList_iff.mp inside)

theorem to_list_eq {charset : CustomCharset} (stored : charset.Stored) :
    charset.toList = onlyIds charset.listed := by
  cases charset with
  | ids ids => exact (only_ids_of_le (le_of_mem_listed_ids stored)).symm
  | ranges wide ranges => exact congrArg (0 :: ·) (flat_map_ids ranges)

theorem agree_of_small {charset : CustomCharset} (stored : charset.Stored)
    (small : ∀ id ∈ charset.listed, id ≤ maxId) (glyph : Nat) :
    charset.toList[glyph]? = charset.idOf? glyph := by
  rw [to_list_eq stored, id_of_eq stored.fits, only_ids_of_le small, bind_as_id_of_le small]

section Ranges

variable {wide : Bool} {before after : List IdRange} {range : IdRange}

theorem listed_of_overruns (starts : range.first ≤ maxId) (overruns : range.Overruns) :
    (ranges wide (before ++ range :: after)).listed =
      (0 :: before.flatMap span ++ List.range' range.first (maxId + 1 - range.first)) ++
        (List.range' (maxId + 1) (range.first + range.left - maxId) ++ after.flatMap span) := by
  rw [CustomCharset.listed, List.flatMap_append, List.flatMap_cons, span_of_overruns starts overruns,
    List.cons_append, List.cons_append, List.append_assoc, List.append_assoc]

theorem length_before_gap :
    (0 :: before.flatMap span ++ List.range' range.first (maxId + 1 - range.first)).length =
      gap before range := by
  rw [gap, List.length_append, List.length_cons, List.length_range', Nat.add_right_comm]

theorem agree_iff_of_first_overrun {stored : List IdRange} (starts : (ranges wide stored).Stored)
    (first : FirstOverrun stored before range after) :
    (∀ glyph ≤ maxId, (ranges wide stored).toList[glyph]? = (ranges wide stored).idOf? glyph) ↔
      (gap before range ≤ maxId → after = []) := by
  obtain ⟨rfl, fit, overruns⟩ := first
  have startsHere : range.first ≤ maxId :=
    starts range (List.mem_append_right _ List.mem_cons_self)
  have startsLater : ∀ later ∈ after, later.first ≤ maxId := fun later member =>
    starts later (List.mem_append_right _ (List.mem_cons_of_mem _ member))
  have small : ∀ id ∈ 0 :: before.flatMap span ++
      List.range' range.first (maxId + 1 - range.first), id ≤ maxId := by
    refine List.forall_mem_append.mpr ⟨le_of_mem_spans fit, fun id here => ?_⟩
    have within := (List.mem_range'_1.mp here).2
    omega
  have lost : ∀ id ∈ List.range' (maxId + 1) (range.first + range.left - maxId), maxId < id :=
    fun id member => (List.mem_range'_1.mp member).1
  have some : List.range' (maxId + 1) (range.first + range.left - maxId) ≠ [] := by
    rw [Ne, List.range'_eq_nil_iff]
    exact Nat.sub_ne_zero_of_lt overruns
  rw [to_list_eq starts, ← length_before_gap, ← only_ids_flat_map_span_eq_nil startsLater,
    ← agree_iff_nothing_after_gap small lost some, ← listed_of_overruns startsHere overruns]
  exact forall₂_congr fun glyph _ => by rw [id_of_eq starts.fits]

end Ranges

theorem stored_of_read {glyphs : Nat} {bytes rest : Bytes} {charset : CustomCharset}
    (read : CustomCharset.read glyphs bytes = .ok (charset, rest)) : charset.Stored := by
  have covers := covers_of_read read
  unfold CustomCharset.read at read
  split at read
  · cases read
  · obtain ⟨format, left, -, table⟩ := Reader.bind_ok read
    split at table
    · obtain ⟨values, -, rfl⟩ := Reader.map_ok table
      exact covers.fits
    · obtain ⟨values, covering, rfl⟩ := Reader.map_ok table
      exact IdRange.starts_of_read_covering covering
    · obtain ⟨values, covering, rfl⟩ := Reader.map_ok table
      exact IdRange.starts_of_read_covering covering
    · cases table

theorem agree_up_to_gap {charset : CustomCharset} (stored : charset.Stored) {glyph : Nat}
    (small : ∀ earlier ≤ glyph, ∀ id, charset.listed[earlier]? = some id → id ≤ maxId) :
    charset.toList[glyph]? = charset.idOf? glyph := by
  have front : ∀ id ∈ charset.listed.take (glyph + 1), id ≤ maxId := by
    intro id member
    obtain ⟨earlier, inside, rfl⟩ := List.mem_take_iff_getElem.mp member
    exact small earlier (by omega) _ (List.getElem?_eq_getElem (by omega))
  by_cases inside : glyph < charset.listed.length
  · have before : glyph < (charset.listed.take (glyph + 1)).length := by
      rw [List.length_take]
      omega
    rw [to_list_eq stored, id_of_eq stored.fits, ← List.take_append_drop (glyph + 1) charset.listed]
    exact only_ids_before_gap front before
  · rw [List.take_of_length_le (by omega)] at front
    exact agree_of_small stored front glyph

/-- The enumeration of a charset that was read has the ids that it lists, one after the other, without
those past the largest id. So it has the id of each glyph up to the first one without an id. A charset
whose ids are stored one by one has no such gap. One made of ranges is enumerated as it is looked up,
for all glyph ids, if and only if the first range that runs past the largest id is the last of all, or
runs past it at a place that no glyph id reaches. -/
theorem enumeration_agrees_up_to_gap {glyphs : Nat} {bytes rest : Bytes} {charset : CustomCharset}
    (read : CustomCharset.read glyphs bytes = .ok (charset, rest)) :
    charset.toList = onlyIds charset.listed ∧
    (∀ glyph, (∀ earlier ≤ glyph, ∀ id, charset.listed[earlier]? = some id → id ≤ maxId) →
      charset.toList[glyph]? = charset.idOf? glyph) ∧
    (∀ stored, charset = .ids stored → ∀ glyph, charset.toList[glyph]? = charset.idOf? glyph) ∧
    ∀ wide stored, charset = .ranges wide stored →
      ((∀ glyph ≤ maxId, charset.toList[glyph]? = charset.idOf? glyph) ↔
        ∀ before range after, FirstOverrun stored before range after →
          gap before range ≤ maxId → after = []) := by
  have fits := stored_of_read read
  refine ⟨to_list_eq fits, fun glyph => agree_up_to_gap fits, ?_, ?_⟩
  · rintro stored rfl glyph
    exact agree_of_small fits (le_of_mem_listed_ids fits) glyph
  · rintro wide stored rfl
    constructor
    · intro agree before range after first
      exact (agree_iff_of_first_overrun fits first).mp agree
    · intro last
      rcases exists_first_overrun stored with fit | ⟨before, range, after, first⟩
      · exact fun glyph _ => agree_of_small fits (le_of_mem_spans fit) glyph
      · exact (agree_iff_of_first_overrun fits first).mpr (last before range after first)

theorem overrun_at_end_keeps_places :
    CustomCharset.read 6 [1, 0, 5, 0, 255, 254, 3] = .ok (.ranges false [⟨5, 0⟩, ⟨65534, 3⟩], []) ∧
      ∀ glyph ≤ maxId, (ranges false [⟨5, 0⟩, ⟨65534, 3⟩]).toList[glyph]? =
        (ranges false [⟨5, 0⟩, ⟨65534, 3⟩]).idOf? glyph := by
  have read : CustomCharset.read 6 [1, 0, 5, 0, 255, 254, 3] =
      .ok (.ranges false [⟨5, 0⟩, ⟨65534, 3⟩], []) :=
    Attempt.ok_of_to_option (by decide +kernel)
  obtain ⟨-, -, -, agree⟩ := enumeration_agrees_up_to_gap read
  refine ⟨read, (agree false _ rfl).mpr fun before range after first _ => ?_⟩
  obtain ⟨split, -, overruns⟩ := first
  match before with
  | [] =>
      obtain ⟨rfl, -⟩ := List.cons.inj split
      exact absurd overruns (by decide)
  | [_] => exact (List.cons.inj (List.cons.inj split).2).2.symm
  | _ :: _ :: _ =>
      obtain ⟨-, more⟩ := List.cons.inj (List.cons.inj split).2
      simp at more

theorem overrun_moves_later_ids :
    CustomCharset.read 6 [2, 255, 254, 0, 3, 0, 5, 0, 0] =
        .ok (.ranges true [⟨65534, 3⟩, ⟨5, 0⟩], []) ∧
      (ranges true [⟨65534, 3⟩, ⟨5, 0⟩]).toList[3]? = some 5 ∧
      (ranges true [⟨65534, 3⟩, ⟨5, 0⟩]).idOf? 3 = none ∧
      (ranges true [⟨65534, 3⟩, ⟨5, 0⟩]).idOf? 5 = some 5 :=
  ⟨Attempt.ok_of_to_option (by decide +kernel), by decide, by decide, by decide⟩

end CustomCharset

end CompactFont
