import CompactFont.FontDictSelect

set_option autoImplicit false

namespace CompactFont

namespace FontDictRange

def endAt (sentinel : Nat) (ranges : List FontDictRange) (place : Nat) : Nat :=
  (ranges[place + 1]?.map firstGlyph).getD sentinel

structure Holds (sentinel glyph : Nat) (ranges : List FontDictRange) (place : Nat)
    (range : FontDictRange) : Prop where
  here : ranges[place]? = some range
  started : range.firstGlyph ≤ glyph
  notEnded : glyph < endAt sentinel ranges place

structure HoldsFirst (sentinel glyph : Nat) (ranges : List FontDictRange) (place : Nat)
    (range : FontDictRange) : Prop extends Holds sentinel glyph ranges place range where
  first : ∀ earlier < place, ∀ other, ¬ Holds sentinel glyph ranges earlier other

structure StartsLast (sentinel glyph : Nat) (ranges : List FontDictRange) (place : Nat)
    (range : FontDictRange) : Prop where
  here : ranges[place]? = some range
  started : range.firstGlyph ≤ glyph
  within : glyph < sentinel
  last : ∀ later > place, ∀ other, ranges[later]? = some other → glyph < other.firstGlyph

variable {sentinel glyph : Nat} {range other : FontDictRange} {rest ranges : List FontDictRange}

theorem end_at_zero (sentinel : Nat) (range : FontDictRange) (rest : List FontDictRange) :
    endAt sentinel (range :: rest) 0 = (rest.head?.map firstGlyph).getD sentinel := by
  rw [endAt, List.getElem?_cons_succ, List.head?_eq_getElem?]

theorem holds_zero :
    Holds sentinel glyph (range :: rest) 0 other ↔
      other = range ∧ range.firstGlyph ≤ glyph ∧
        glyph < (rest.head?.map firstGlyph).getD sentinel := by
  rw [← end_at_zero sentinel range rest]
  constructor
  · rintro ⟨here, started, notEnded⟩
    obtain rfl := Option.some.inj here
    exact ⟨rfl, started, notEnded⟩
  · rintro ⟨rfl, started, notEnded⟩
    exact ⟨rfl, started, notEnded⟩

theorem holds_succ {place : Nat} :
    Holds sentinel glyph (range :: rest) (place + 1) other ↔ Holds sentinel glyph rest place other :=
  ⟨fun ⟨here, started, notEnded⟩ => ⟨here, started, notEnded⟩,
    fun ⟨here, started, notEnded⟩ => ⟨here, started, notEnded⟩⟩

theorem find_eq_none_iff :
    find? sentinel glyph ranges = none ↔ ∀ place other, ¬ Holds sentinel glyph ranges place other := by
  induction ranges with
  | nil => exact ⟨fun _ _ _ holds => (nomatch holds.here), fun _ => rfl⟩
  | cons range rest ih =>
      rw [find?]
      by_cases inside : range.firstGlyph ≤ glyph ∧
          glyph < (rest.head?.map firstGlyph).getD sentinel
      · rw [if_pos inside]
        exact ⟨nofun, fun none => absurd (holds_zero.mpr ⟨rfl, inside⟩) (none 0 range)⟩
      · rw [if_neg inside, ih]
        constructor
        · intro none place other holds
          cases place with
          | zero => exact inside (holds_zero.mp holds).2
          | succ place => exact none place other (holds_succ.mp holds)
        · exact fun none place other holds => none (place + 1) other (holds_succ.mpr holds)

theorem find_eq_some_iff {fontDict : Nat} :
    find? sentinel glyph ranges = some fontDict ↔
      ∃ place range, HoldsFirst sentinel glyph ranges place range ∧ range.fontDict = fontDict := by
  induction ranges with
  | nil => exact ⟨nofun, fun ⟨_, _, holds, _⟩ => nomatch holds.here⟩
  | cons range rest ih =>
      rw [find?]
      by_cases inside : range.firstGlyph ≤ glyph ∧
          glyph < (rest.head?.map firstGlyph).getD sentinel
      · rw [if_pos inside, Option.some.injEq]
        have first := holds_zero.mpr ⟨rfl, inside⟩
        constructor
        · intro same
          exact ⟨0, range, ⟨first, fun earlier before => absurd before (Nat.not_lt_zero earlier)⟩, same⟩
        · rintro ⟨place, other, holds, same⟩
          cases place with
          | zero => rw [← same, (holds_zero.mp holds.toHolds).1]
          | succ place => exact absurd first (holds.first 0 (Nat.succ_pos place) range)
      · rw [if_neg inside, ih]
        constructor
        · rintro ⟨place, other, holds, same⟩
          refine ⟨place + 1, other, ⟨holds_succ.mpr holds.toHolds, ?_⟩, same⟩
          intro earlier before another held
          cases earlier with
          | zero => exact inside (holds_zero.mp held).2
          | succ earlier =>
              exact holds.first earlier (Nat.lt_of_succ_lt_succ before) another (holds_succ.mp held)
        · rintro ⟨place, other, holds, same⟩
          cases place with
          | zero => exact absurd (holds_zero.mp holds.toHolds).2 inside
          | succ place =>
              refine ⟨place, other, ⟨holds_succ.mp holds.toHolds, ?_⟩, same⟩
              intro earlier before another held
              exact holds.first (earlier + 1) (Nat.succ_lt_succ before) another (holds_succ.mpr held)

def expanded (sentinel : Nat) : List FontDictRange → List Nat
  | [] => []
  | range :: rest =>
      let next := (rest.head?.map firstGlyph).getD sentinel
      List.replicate (next - range.firstGlyph) range.fontDict ++ expanded sentinel rest

def Ascending (sentinel : Nat) (ranges : List FontDictRange) : Prop :=
  (ranges.map firstGlyph ++ [sentinel]).Pairwise (· < ·)

namespace Ascending

theorem tail (ascending : Ascending sentinel (range :: rest)) : Ascending sentinel rest :=
  (List.pairwise_cons.mp ascending).2

theorem lt_next (ascending : Ascending sentinel (range :: rest)) :
    range.firstGlyph < (rest.head?.map firstGlyph).getD sentinel := by
  have before := (List.pairwise_cons.mp ascending).1
  cases rest with
  | nil => exact before sentinel (List.mem_singleton_self sentinel)
  | cons next later => exact before next.firstGlyph List.mem_cons_self

theorem lt_sentinel (ascending : Ascending sentinel ranges) {place : Nat}
    (here : ranges[place]? = some range) : range.firstGlyph < sentinel := by
  have member := List.mem_map_of_mem (f := firstGlyph) (List.mem_of_getElem? here)
  exact (List.pairwise_append.mp ascending).2.2 _ member sentinel (List.mem_singleton_self sentinel)

theorem lt_of_places (ascending : Ascending sentinel ranges) {earlier later : Nat}
    (before : earlier < later) (here : ranges[earlier]? = some range)
    (there : ranges[later]? = some other) : range.firstGlyph < other.firstGlyph := by
  have starts := (List.pairwise_append.mp ascending).1
  rw [List.pairwise_map, List.pairwise_iff_getElem] at starts
  obtain ⟨inside, rfl⟩ := List.getElem?_eq_some_iff.mp here
  obtain ⟨insideToo, rfl⟩ := List.getElem?_eq_some_iff.mp there
  exact starts earlier later inside insideToo before

theorem holds_iff_starts_last (ascending : Ascending sentinel ranges) {place : Nat} :
    Holds sentinel glyph ranges place range ↔ StartsLast sentinel glyph ranges place range := by
  constructor
  · rintro ⟨here, started, notEnded⟩
    unfold endAt at notEnded
    cases next : ranges[place + 1]? with
    | none =>
        rw [next] at notEnded
        refine ⟨here, started, notEnded, fun later after other there => ?_⟩
        have past := List.getElem?_eq_none_iff.mp next
        rw [List.getElem?_eq_none (Nat.le_trans past after)] at there
        cases there
    | some following =>
        rw [next] at notEnded
        refine ⟨here, started, Nat.lt_trans notEnded (ascending.lt_sentinel next), ?_⟩
        intro later after other there
        rcases Nat.eq_or_lt_of_le (Nat.succ_le_of_lt after) with rfl | further
        · rw [next] at there
          exact Option.some.inj there ▸ notEnded
        · exact Nat.lt_trans notEnded (ascending.lt_of_places further next there)
  · rintro ⟨here, started, within, last⟩
    refine ⟨here, started, ?_⟩
    unfold endAt
    cases next : ranges[place + 1]? with
    | none => exact within
    | some following => exact last (place + 1) (Nat.lt_succ_self place) following next

theorem holds_first_iff_starts_last (ascending : Ascending sentinel ranges) {place : Nat} :
    HoldsFirst sentinel glyph ranges place range ↔ StartsLast sentinel glyph ranges place range := by
  rw [← ascending.holds_iff_starts_last]
  constructor
  · exact HoldsFirst.toHolds
  · refine fun holds => ⟨holds, fun earlier before other heldBefore => ?_⟩
    have notYet := (ascending.holds_iff_starts_last.mp heldBefore).last place before range holds.here
    exact Nat.not_lt.mpr holds.started notYet

theorem length_expanded (ascending : Ascending sentinel (range :: rest)) :
    (expanded sentinel (range :: rest)).length = sentinel - range.firstGlyph := by
  induction rest generalizing range with
  | nil => simp [expanded]
  | cons next later ih =>
      have nonempty : range.firstGlyph < next.firstGlyph := ascending.lt_next
      have bounded : next.firstGlyph < sentinel := ascending.tail.lt_sentinel (List.getElem?_cons_zero ..)
      rw [expanded, List.length_append, List.length_replicate, ih ascending.tail, List.head?_cons,
        Option.map_some, Option.getD_some]
      omega

-- The induction is on the later ranges. A glyph lies in the first range, or it is looked up in the
-- later ones, which begin where the first one ends.
theorem find_eq_expanded (ascending : Ascending sentinel (range :: rest)) (glyph : Nat) :
    find? sentinel glyph (range :: rest) =
      if range.firstGlyph ≤ glyph then
        (expanded sentinel (range :: rest))[glyph - range.firstGlyph]?
      else none := by
  induction rest generalizing range with
  | nil =>
      rw [find?, expanded, expanded, List.append_nil, List.head?_nil, Option.map_none, Option.getD_none]
      by_cases started : range.firstGlyph ≤ glyph
      · rw [if_pos started, List.getElem?_replicate]
        by_cases within : glyph < sentinel
        · rw [if_pos ⟨started, within⟩, if_pos (by omega)]
        · rw [if_neg (not_and_of_not_right _ within), if_neg (by omega), find?]
      · rw [if_neg started, if_neg (not_and_of_not_left _ started), find?]
  | cons next later ih =>
      have nonempty : range.firstGlyph < next.firstGlyph := ascending.lt_next
      rw [find?, expanded, List.head?_cons, Option.map_some, Option.getD_some, ih ascending.tail]
      by_cases started : range.firstGlyph ≤ glyph
      · rw [if_pos started]
        by_cases inside : glyph < next.firstGlyph
        · rw [if_pos ⟨started, inside⟩,
            List.getElem?_append_left (by rw [List.length_replicate]; omega),
            List.getElem?_replicate_of_lt (by omega)]
        · have sub : glyph - range.firstGlyph - (next.firstGlyph - range.firstGlyph) =
              glyph - next.firstGlyph := by
            omega
          rw [if_neg (not_and_of_not_right _ inside), if_pos (Nat.not_lt.mp inside),
            List.getElem?_append_right (by rw [List.length_replicate]; omega),
            List.length_replicate, sub]
      · have notLater : ¬ next.firstGlyph ≤ glyph := by omega
        rw [if_neg started, if_neg (not_and_of_not_left _ started), if_neg notLater]

end Ascending

end FontDictRange

namespace FontDictSelect

open FontDictRange

theorem is_some_font_dict_of_iff {sentinel : Nat} {stored : List FontDictRange}
    (ascending : Ascending sentinel stored) (glyph : Nat) :
    ((ranges stored sentinel).fontDictOf? glyph).isSome = true ↔
      ∃ first, stored.head? = some first ∧ first.firstGlyph ≤ glyph ∧ glyph < sentinel := by
  cases stored with
  | nil => exact ⟨nofun, fun ⟨_, here, _⟩ => (nomatch here)⟩
  | cons first rest =>
      rw [fontDictOf?, ascending.find_eq_expanded, List.head?_cons]
      by_cases started : first.firstGlyph ≤ glyph
      · rw [if_pos started, Option.isSome_iff_ne_none, Ne, List.getElem?_eq_none_iff,
          Nat.not_le, ascending.length_expanded]
        constructor
        · exact fun inside => ⟨first, rfl, started, by omega⟩
        · rintro ⟨_, here, -, within⟩
          obtain rfl := Option.some.inj here
          omega
      · rw [if_neg started]
        refine ⟨nofun, ?_⟩
        rintro ⟨_, here, startedToo, -⟩
        obtain rfl := Option.some.inj here
        exact absurd startedToo started

theorem font_dict_of_expanded {sentinel : Nat} {stored : List FontDictRange}
    (ascending : Ascending sentinel stored)
    (fromZero : ∀ first, stored.head? = some first → first.firstGlyph = 0) (glyph : Nat) :
    (ranges stored sentinel).fontDictOf? glyph =
      (perGlyph (expanded sentinel stored).toArray).fontDictOf? glyph := by
  rw [fontDictOf?, fontDictOf?, List.getElem?_toArray]
  cases stored with
  | nil => rfl
  | cons first rest =>
      have zero := fromZero first List.head?_cons
      rw [ascending.find_eq_expanded, zero, if_pos (Nat.zero_le glyph), Nat.sub_zero]

theorem first_holding_range_selects (stored : List FontDictRange) (sentinel : Nat) :
    (∀ glyph fontDict, (ranges stored sentinel).fontDictOf? glyph = some fontDict ↔
      ∃ place range, HoldsFirst sentinel glyph stored place range ∧ range.fontDict = fontDict) ∧
    (∀ glyph, (ranges stored sentinel).fontDictOf? glyph = none ↔
      ∀ place range, ¬ Holds sentinel glyph stored place range) ∧
    (Ascending sentinel stored →
      (∀ glyph place range, HoldsFirst sentinel glyph stored place range ↔
        StartsLast sentinel glyph stored place range) ∧
      (∀ glyph, ((ranges stored sentinel).fontDictOf? glyph).isSome = true ↔
        ∃ first, stored.head? = some first ∧ first.firstGlyph ≤ glyph ∧ glyph < sentinel) ∧
      ((∀ first, stored.head? = some first → first.firstGlyph = 0) →
        ∀ glyph, (ranges stored sentinel).fontDictOf? glyph =
          (perGlyph (expanded sentinel stored).toArray).fontDictOf? glyph)) := by
  refine ⟨fun glyph fontDict => find_eq_some_iff, fun glyph => find_eq_none_iff,
    fun ascending => ⟨fun glyph place range => ?_, fun glyph => ?_, fun fromZero glyph => ?_⟩⟩
  · exact ascending.holds_first_iff_starts_last
  · exact is_some_font_dict_of_iff ascending glyph
  · exact font_dict_of_expanded ascending fromZero glyph

def threeRanges : List FontDictRange := [⟨0, 2⟩, ⟨3, 1⟩, ⟨4, 0⟩]

theorem three_ranges_select_like_table :
    Ascending 6 threeRanges ∧ (ranges threeRanges 6).fontDictOf? 3 = some 1 ∧
      ¬ ((ranges threeRanges 6).fontDictOf? 6).isSome = true ∧
      ∀ glyph, (ranges threeRanges 6).fontDictOf? glyph =
        (perGlyph #[2, 2, 2, 1, 0, 0]).fontDictOf? glyph := by
  have ascending : Ascending 6 threeRanges := by simp [Ascending, threeRanges]
  have starts : StartsLast 6 3 threeRanges 1 ⟨3, 1⟩ := by
    refine ⟨rfl, by decide, by decide, fun later after other there => ?_⟩
    obtain rfl | past : later = 2 ∨ 3 ≤ later := by omega
    · obtain rfl := Option.some.inj there
      decide
    · rw [List.getElem?_eq_none past] at there
      cases there
  obtain ⟨selects, -, ascends⟩ := first_holding_range_selects threeRanges 6
  obtain ⟨first, mapped, table⟩ := ascends ascending
  refine ⟨ascending, (selects 3 1).mpr ⟨1, ⟨3, 1⟩, (first 3 1 ⟨3, 1⟩).mpr starts, rfl⟩, ?_, ?_⟩
  · rw [mapped]
    rintro ⟨_, -, -, within⟩
    exact absurd within (by decide)
  · exact table fun range here => (Option.some.inj here) ▸ rfl

end FontDictSelect

end CompactFont
