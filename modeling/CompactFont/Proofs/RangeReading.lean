import Mathlib.Data.List.Infix
import CompactFont.Charset.Basic
import CompactFont.Proofs.Spelling

set_option autoImplicit false

namespace CompactFont

namespace IdRange

theorem size_field_pos (wide : Bool) : 0 < (field wide).size := by
  cases wide <;> decide

def heldIn (wide : Bool) (bytes : Bytes) : List IdRange :=
  (field wide).items (bytes.length / (field wide).size) bytes

def covered (ranges : List IdRange) : Nat :=
  ranges.foldr (fun range others => range.size + others) 0

structure FewestCovering (held : List IdRange) (needed : Nat) (ranges : List IdRange) : Prop where
  front : ranges <+: held
  enough : needed ≤ covered ranges
  fewest : ∀ other, other <+: held → needed ≤ covered other → ranges.length ≤ other.length

section Held

variable {wide : Bool} {bytes : Bytes}

theorem held_in_of_lt (short : bytes.length < (field wide).size) : heldIn wide bytes = [] := by
  rw [heldIn, Nat.div_eq_of_lt short]
  rfl

theorem held_in_of_le (enough : (field wide).size ≤ bytes.length) :
    heldIn wide bytes = (field wide).decode (bytes.take (field wide).size) ::
      heldIn wide (bytes.drop (field wide).size) := by
  rw [heldIn, heldIn, Nat.div_eq_sub_div (size_field_pos wide) enough, List.length_drop]
  rfl

theorem covered_cons (range : IdRange) (ranges : List IdRange) :
    covered (range :: ranges) = range.size + covered ranges := rfl

theorem front_cons {range : IdRange} {held other : List IdRange} (front : other <+: range :: held)
    {needed : Nat} (some : 0 < needed) (enough : needed ≤ covered other) :
    ∃ rest, other = range :: rest ∧ rest <+: held ∧ needed - range.size ≤ covered rest := by
  rcases List.prefix_cons_iff.mp front with rfl | ⟨rest, rfl, later⟩
  · exact absurd (Nat.lt_of_lt_of_le some enough) (Nat.lt_irrefl 0)
  · rw [covered_cons] at enough
    exact ⟨rest, rfl, later, Nat.sub_le_iff_le_add'.mpr enough⟩

theorem fewest_covering_nil (held : List IdRange) : FewestCovering held 0 [] :=
  ⟨List.nil_prefix, Nat.zero_le _, fun _ _ _ => Nat.zero_le _⟩

theorem FewestCovering.cons {held ranges : List IdRange} {range : IdRange} {needed : Nat}
    (some : 0 < needed) (fewest : FewestCovering held (needed - range.size) ranges) :
    FewestCovering (range :: held) needed (range :: ranges) where
  front := (List.prefix_cons_inj range).mpr fewest.front
  enough := Nat.sub_le_iff_le_add'.mp fewest.enough
  fewest other front enough := by
    obtain ⟨rest, rfl, later, covers⟩ := front_cons front some enough
    exact Nat.succ_le_succ (fewest.fewest rest later covers)

theorem FewestCovering.unique {held ranges others : List IdRange} {needed : Nat}
    (fewest : FewestCovering held needed ranges) (also : FewestCovering held needed others) :
    ranges = others := by
  have shorter := fewest.fewest others also.front also.enough
  have longer := also.fewest ranges fewest.front fewest.enough
  rw [List.prefix_iff_eq_take.mp fewest.front, List.prefix_iff_eq_take.mp also.front,
    Nat.le_antisymm shorter longer]

end Held

section Counted

inductive Counted (wide : Bool) (needed count : Nat) (bytes : Bytes) :
    Except ReadError (Nat × Bytes) → Prop
  | covers {ranges : List IdRange} (fewest : FewestCovering (heldIn wide bytes) needed ranges)
      (rest : Bytes) : Counted wide needed count bytes (.ok (count + ranges.length, rest))
  | runsOut (few : ∀ front, front <+: heldIn wide bytes → covered front < needed) :
      Counted wide needed count bytes (.error .endOfData)

variable {wide : Bool} {needed : Nat} {bytes : Bytes}

theorem Counted.cons {count : Nat} (some : 0 < needed) (enough : (field wide).size ≤ bytes.length)
    {result : Except ReadError (Nat × Bytes)} {range : IdRange}
    (decoded : range = (field wide).decode (bytes.take (field wide).size))
    (later : Counted wide (needed - range.size) (count + 1) (bytes.drop (field wide).size) result) :
    Counted wide needed count bytes result := by
  have held := held_in_of_le enough
  rw [← decoded] at held
  cases later with
  | @covers ranges fewest rest =>
      have counted : count + 1 + ranges.length = count + (range :: ranges).length := by
        rw [List.length_cons]
        omega
      rw [counted]
      exact .covers (held ▸ fewest.cons some) rest
  | runsOut few =>
      refine .runsOut fun front held_front => Nat.lt_of_not_le fun covers => ?_
      rw [held] at held_front
      obtain ⟨rest, -, within, missing⟩ := front_cons held_front some covers
      exact absurd (few rest within) (Nat.not_lt.mpr missing)

theorem counted_count_covering (reached count : Nat) (bytes : Bytes) :
    Counted wide (needed - reached) count bytes (countCovering wide needed reached count bytes) := by
  fun_induction countCovering wide needed reached count generalizing bytes with
  | case1 reached count more ih =>
      have some : 0 < needed - reached := Nat.sub_pos_of_lt more
      by_cases short : bytes.length < (field wide).size
      · rw [Reader.bind_of_error (Field.read_of_lt short)]
        refine .runsOut fun front held => ?_
        rw [held_in_of_lt short, List.prefix_nil] at held
        exact held ▸ some
      · have enough := Nat.not_lt.mp short
        rw [Reader.bind_of_ok (Field.read_of_le enough)]
        refine Counted.cons some enough rfl ?_
        rw [Nat.sub_sub]
        exact ih _ _
  | case2 reached count enough =>
      rw [Nat.sub_eq_zero_of_le (Nat.not_lt.mp enough)]
      exact .covers (fewest_covering_nil _) bytes

end Counted

section Replayed

variable {wide : Bool} {needed : Nat} {bytes rest : Bytes} {ranges : List IdRange}

theorem length_le_of_front (front : ranges <+: heldIn wide bytes) :
    ranges.length ≤ bytes.length / (field wide).size := by
  have bound := front.length_le
  rwa [heldIn, Field.length_items] at bound

theorem eq_of_read_array {values : List IdRange} (front : ranges <+: heldIn wide bytes)
    (read : (field wide).readArray ranges.length bytes = .ok (values, rest)) :
    values = ranges ∧ rest = bytes.drop (ranges.length * (field wide).size) := by
  obtain ⟨length, ends, -, stored⟩ := Field.read_array_eq read
  refine ⟨List.ext_getElem length fun place here inside => ?_, ends⟩
  have held := List.prefix_iff_getElem?.mp front place inside
  rw [heldIn, Field.get_elem_items _ (Nat.lt_of_lt_of_le inside (length_le_of_front front))] at held
  have found := stored place inside
  rw [held, List.getElem?_eq_getElem here] at found
  exact Option.some.inj found

theorem read_array_of_front (fits : bytes.length ≤ Field.maxArraySize)
    (front : ranges <+: heldIn wide bytes) :
    (field wide).readArray ranges.length bytes =
      .ok (ranges, bytes.drop (ranges.length * (field wide).size)) := by
  have enough : ranges.length * (field wide).size ≤ bytes.length :=
    (Nat.le_div_iff_mul_le (size_field_pos wide)).mp (length_le_of_front front)
  have read := Field.read_array_of_le (Nat.le_trans enough fits) enough
  have same := (eq_of_read_array front read).1
  rw [read, same]

theorem fewest_of_read_covering (read : readCovering wide needed bytes = .ok (ranges, rest)) :
    FewestCovering (heldIn wide bytes) needed ranges ∧
      rest = bytes.drop (ranges.length * (field wide).size) ∧
      (field wide).readArray ranges.length bytes = .ok (ranges, rest) := by
  have counted := @counted_count_covering wide needed 0 0 bytes
  rw [readCovering] at read
  generalize countCovering wide needed 0 0 bytes = result at counted read
  cases counted with
  | @covers front fewest left =>
      have replayed : (field wide).readArray front.length bytes = .ok (ranges, rest) := by
        rwa [← Nat.zero_add front.length]
      obtain ⟨rfl, ends⟩ := eq_of_read_array fewest.front replayed
      exact ⟨fewest, ends, replayed⟩
  | runsOut few => cases read

inductive Covering (wide : Bool) (needed : Nat) (bytes : Bytes) :
    Except ReadError (List IdRange × Bytes) → Prop
  | covers {ranges : List IdRange} (fewest : FewestCovering (heldIn wide bytes) needed ranges) :
      Covering wide needed bytes (.ok (ranges, bytes.drop (ranges.length * (field wide).size)))
  | runsOut (few : ∀ front, front <+: heldIn wide bytes → covered front < needed) :
      Covering wide needed bytes (.error .endOfData)

theorem covering_read_covering (wide : Bool) (needed : Nat)
    (fits : bytes.length ≤ Field.maxArraySize) :
    Covering wide needed bytes (readCovering wide needed bytes) := by
  have counted := @counted_count_covering wide needed 0 0 bytes
  rw [readCovering]
  generalize countCovering wide needed 0 0 bytes = result at counted
  cases counted with
  | @covers front fewest left =>
      have replayed := read_array_of_front fits fewest.front
      rw [← Nat.zero_add front.length] at replayed
      change Covering wide needed bytes ((field wide).readArray (0 + front.length) bytes)
      rw [replayed, Nat.zero_add]
      exact .covers fewest
  | runsOut few => exact .runsOut few

end Replayed

end IdRange

namespace CustomCharset

open IdRange

def rangeFormat (wide : Bool) : UInt8 := if wide then 2 else 1

theorem read_ranges (wide : Bool) (bytes : Bytes) (glyphs : Nat) (positive : 1 ≤ glyphs) :
    CustomCharset.read glyphs (rangeFormat wide :: bytes) =
      (readCovering wide (glyphs - 1) bytes).map
        fun (stored, rest) => (.ranges wide stored, rest) := by
  have format : Field.u8.read (rangeFormat wide :: bytes) = .ok ((rangeFormat wide).toNat, bytes) :=
    Field.reads_u8 (rangeFormat wide) bytes
  rw [CustomCharset.read, if_neg (Nat.one_le_iff_ne_zero.mp positive), Reader.bind_of_ok format]
  cases wide <;> rfl

-- Bytes in memory are never more than a 64-bit length can tell, so none are left out by `fits`.
theorem ranges_are_read_minimally (wide : Bool) (bytes : Bytes)
    (fits : bytes.length ≤ Field.maxArraySize) (glyphs : Nat) (positive : 1 ≤ glyphs) :
    ((∃ charset rest, CustomCharset.read glyphs (rangeFormat wide :: bytes) = .ok (charset, rest)) ↔
        ∃ front, front <+: heldIn wide bytes ∧ glyphs - 1 ≤ covered front) ∧
      (∀ charset rest, CustomCharset.read glyphs (rangeFormat wide :: bytes) = .ok (charset, rest) ↔
        ∃ ranges, FewestCovering (heldIn wide bytes) (glyphs - 1) ranges ∧
          charset = .ranges wide ranges ∧
          rest = bytes.drop (ranges.length * (field wide).size)) ∧
      CustomCharset.read 1 (rangeFormat wide :: bytes) = .ok (.ranges wide [], bytes) ∧
      ((¬ ∃ front, front <+: heldIn wide bytes ∧ glyphs - 1 ≤ covered front) →
        CustomCharset.read glyphs (rangeFormat wide :: bytes) = .error .endOfData) := by
  have notdef : CustomCharset.read 1 (rangeFormat wide :: bytes) = .ok (.ranges wide [], bytes) := by
    rw [read_ranges wide bytes 1 (Nat.le_refl 1), readCovering, countCovering,
      if_neg (Nat.lt_irrefl 0)]
    cases wide <;> rfl
  have covering := covering_read_covering wide (glyphs - 1) fits
  rw [read_ranges wide bytes glyphs positive]
  generalize readCovering wide (glyphs - 1) bytes = result at covering
  cases covering with
  | @covers ranges fewest =>
      have covers : ∃ front, front <+: heldIn wide bytes ∧ glyphs - 1 ≤ covered front :=
        ⟨ranges, fewest.front, fewest.enough⟩
      refine ⟨iff_of_true ⟨_, _, rfl⟩ covers, fun charset rest => ⟨fun read => ?_, ?_⟩, notdef,
        fun none => absurd covers none⟩
      · obtain ⟨rfl, rfl⟩ := Prod.mk.inj (Except.ok.inj read)
        exact ⟨ranges, fewest, rfl, rfl⟩
      · rintro ⟨others, also, rfl, rfl⟩
        obtain rfl := fewest.unique also
        rfl
  | runsOut few =>
      have none : ¬ ∃ front, front <+: heldIn wide bytes ∧ glyphs - 1 ≤ covered front := by
        rintro ⟨front, held, covers⟩
        exact absurd (few front held) (Nat.not_lt.mpr covers)
      refine ⟨iff_of_false nofun none, fun charset rest => iff_of_false nofun ?_, notdef,
        fun _ => rfl⟩
      rintro ⟨ranges, fewest, -⟩
      exact none ⟨ranges, fewest.front, fewest.enough⟩

theorem overshooting_range_ends_charset :
    CustomCharset.read 4 [1, 0, 10, 0, 0, 20, 9, 0, 30, 0, 255] =
        .ok (.ranges false [⟨10, 0⟩, ⟨20, 9⟩], [0, 30, 0, 255]) ∧
      CustomCharset.read 14 [1, 0, 10, 0, 0, 20, 9, 0, 30, 0, 255] = .error .endOfData := by
  have held : heldIn false [0, 10, 0, 0, 20, 9, 0, 30, 0, 255] = [⟨10, 0⟩, ⟨20, 9⟩, ⟨30, 0⟩] := by
    decide
  obtain ⟨-, reads, -⟩ :=
    ranges_are_read_minimally false [0, 10, 0, 0, 20, 9, 0, 30, 0, 255] (by decide) 4 (by decide)
  obtain ⟨-, -, -, fails⟩ :=
    ranges_are_read_minimally false [0, 10, 0, 0, 20, 9, 0, 30, 0, 255] (by decide) 14 (by decide)
  rw [held] at reads fails
  constructor
  · refine (reads _ _).mpr ⟨[⟨10, 0⟩, ⟨20, 9⟩], ⟨by decide, by decide, ?_⟩, rfl, rfl⟩
    simp only [← List.mem_inits]
    decide
  · refine fails ?_
    simp only [← List.mem_inits]
    decide

end CustomCharset

end CompactFont
