import CompactFont.Proofs.LoadedFont
import CompactFont.Proofs.NameLookup

set_option autoImplicit false

namespace CompactFont

-- The keys that are listed past the first `glyphs` places only.
def strays (glyphs : Nat) (listed : List Nat) : List Nat :=
  (listed.drop glyphs).filter (· ∉ listed.take glyphs)

theorem mem_strays {glyphs key : Nat} {listed : List Nat} :
    key ∈ strays glyphs listed ↔
      ∃ place, listed.findIdx? (· == key) = some place ∧ glyphs ≤ place := by
  rw [strays, List.mem_filter, decide_eq_true_eq]
  constructor
  · rintro ⟨past, notBefore⟩
    cases found : listed.findIdx? (· == key) with
    | none =>
        have absent := List.findIdx?_eq_none_iff.mp found key (List.mem_of_mem_drop past)
        exact absurd absent (by simp)
    | some place =>
        refine ⟨place, rfl, Nat.not_lt.mp fun before => notBefore ?_⟩
        obtain ⟨here, -⟩ := find_idx_eq_some_iff.mp found
        rw [← List.getElem?_take_of_lt before] at here
        exact List.mem_of_getElem? here
  · rintro ⟨place, found, past⟩
    obtain ⟨here, first⟩ := find_idx_eq_some_iff.mp found
    constructor
    · rw [← Nat.add_sub_of_le past, ← List.getElem?_drop] at here
      exact List.mem_of_getElem? here
    · intro before
      obtain ⟨earlier, inside, same⟩ := List.mem_take_iff_getElem.mp before
      exact first earlier (by omega) (List.getElem?_eq_some_iff.mpr ⟨_, same⟩)

theorem strays_of_length_le {glyphs : Nat} {listed : List Nat} (short : listed.length ≤ glyphs) :
    strays glyphs listed = [] := by
  rw [strays, List.drop_eq_nil_of_le short, List.filter_nil]

namespace Charset

def reachable (charset : Charset) : List Nat := charset.listed.take (maxId + 1)

theorem find_idx_reachable (charset : Charset) (id : Nat) :
    charset.reachable.findIdx? (· == id) = (charset.listed.findIdx? (· == id)).bind asId? := by
  rw [reachable, List.findIdx?_take]
  congr 1
  funext place
  simp only [Option.guard, asId?, decide_eq_true_eq, Nat.lt_succ_iff]

theorem find_idx_listed_zero (charset : Charset) :
    (charset.listed.findIdx? (· == 0)).getD 0 = 0 := by
  cases charset with
  | isoAdobe | expert | expertSubset => decide +kernel
  | custom stored | cid stored => cases stored <;> rfl
  | identity glyphs => cases glyphs with
    | zero => rfl
    | succ glyphs => rw [listed, List.range_succ_eq_map]; rfl

theorem glyph_of_get_d {charset : Charset} {id : Nat} (small : id ≤ maxId) :
    (charset.glyphOf? id).getD 0 = (charset.reachable.findIdx? (· == id)).getD 0 := by
  rw [find_idx_reachable]
  by_cases zero : id = 0
  · subst zero
    have first := charset.find_idx_listed_zero
    cases found : charset.listed.findIdx? (· == 0) with
    | none => rfl
    | some place =>
        rw [found] at first
        obtain rfl : place = 0 := first
        rfl
  · rw [charset.glyph_of_eq small zero]

theorem le_glyph_of_iff {charset : Charset} {glyphs id : Nat} (small : id ≤ maxId)
    (nonempty : 0 < glyphs) :
    glyphs ≤ (charset.glyphOf? id).getD 0 ↔ id ∈ strays glyphs charset.reachable := by
  rw [glyph_of_get_d small, mem_strays]
  cases charset.reachable.findIdx? (· == id) with
  | none => simp [Nat.not_le.mpr nonempty]
  | some place => simp

end Charset

namespace Font

inductive Asks (font : Font) : Nat → Prop where
  | name {name : String} {id : Nat} (isNames : font.isCidKeyed = false)
      (named : font.strings.idOf? name = some id) : Asks font id
  | code {encoding : Encoding} {privateData : PrivateData} {code id : Nat} (small : code < 256)
      (keying : font.keying = .names encoding privateData)
      (stands : encoding.nameId? code = some id) : Asks font id
  | cid {cid : Nat} (isCids : font.isCidKeyed = true) (small : cid ≤ maxId) : Asks font cid

inductive Selects (font : Font) : Nat → Prop where
  | name {name : String} {glyph : Nat} (found : font.glyphOfName name = .ok glyph) :
      Selects font glyph
  | code {code glyph : Nat} (small : code < 256) (found : font.glyphOfCode code = .ok glyph) :
      Selects font glyph
  | cid {cid glyph : Nat} (small : cid ≤ maxId) (found : font.glyphOfCid cid = .ok glyph) :
      Selects font glyph

def strayIds (font : Font) : List Nat := strays font.glyphCount font.charset.reachable

def strayCodes (font : Font) : List Nat :=
  match font.keying with
  | .cids _ => []
  | .names encoding _ => (strays (font.glyphCount - 1) encoding.codes).filter fun code =>
      code < 256 ∧ encoding.nameId? code = none

variable {font : Font}

theorem mem_stray_codes {code : Nat} :
    code ∈ font.strayCodes ↔ ∃ encoding privateData, font.keying = .names encoding privateData ∧
      code < 256 ∧ encoding.nameId? code = none ∧
        ∃ place, encoding.codes.findIdx? (· == code) = some place ∧ font.glyphCount ≤ place + 1 := by
  unfold strayCodes
  cases font.keying with
  | cids data => simp
  | names encoding privateData =>
      have before (place : Nat) : font.glyphCount - 1 ≤ place ↔ font.glyphCount ≤ place + 1 := by
        omega
      simp only [List.mem_filter, mem_strays, decide_eq_true_eq, before, Keying.names.injEq]
      constructor
      · rintro ⟨listed, small, stands⟩
        exact ⟨encoding, privateData, ⟨rfl, rfl⟩, small, stands, listed⟩
      · rintro ⟨_, _, ⟨rfl, rfl⟩, small, stands, listed⟩
        exact ⟨listed, small, stands⟩

variable {program : Window} (read : font.ReadFrom program)

include read

theorem is_names_of_keying {encoding : Encoding} {privateData : PrivateData}
    (keying : font.keying = .names encoding privateData) : font.charset.isCid = false := by
  rw [read.charset.keyed, isCidKeyed, cidData?, keying]
  rfl

theorem selects_of_asks {id : Nat} (asked : font.Asks id) :
    id ≤ maxId ∧ font.Selects ((font.charset.glyphOf? id).getD 0) := by
  have keyed := read.charset.keyed
  cases asked with
  | @name name _ isNames named =>
      have found : font.glyphOfName name = .ok ((font.charset.glyphOf? id).getD 0) :=
        Charset.glyph_of_name_ok_iff.mpr ⟨keyed.trans isNames, by rw [named]; rfl⟩
      exact ⟨Strings.id_le_of_id_of named, .name found⟩
  | @code encoding _ code _ small keying stands =>
      have isNames := is_names_of_keying read keying
      have found : font.glyphOfCode code = .ok ((font.charset.glyphOf? id).getD 0) := by
        simp only [glyphOfCode, keying]
        rw [Encoding.glyph_of_of_name_id stands, Encoding.glyph_of_name_id_eq isNames]
      exact ⟨(read.encoding _ _ keying).ids _ _ stands, .code small found⟩
  | cid isCids small =>
      have found : font.glyphOfCid id = .ok ((font.charset.glyphOf? id).getD 0) :=
        Charset.glyph_of_cid_ok_iff.mpr ⟨keyed.trans isCids, rfl⟩
      exact ⟨small, .cid small found⟩

theorem selects_cases {glyph : Nat} (selects : font.Selects glyph) :
    glyph = 0 ∨ (∃ id, font.Asks id ∧ glyph = (font.charset.glyphOf? id).getD 0) ∨
      ∃ encoding privateData, font.keying = .names encoding privateData ∧
        ∃ code < 256, encoding.nameId? code = none ∧
          glyph = ((encoding.codes.findIdx? (· == code)).map (· + 1)).getD 0 := by
  have keyed := read.charset.keyed
  cases selects with
  | @name name _ found =>
      obtain ⟨isNames, rfl⟩ := Charset.glyph_of_name_ok_iff.mp found
      cases named : font.strings.idOf? name with
      | none => exact .inl rfl
      | some id => exact .inr (.inl ⟨id, .name (keyed.symm.trans isNames) named, rfl⟩)
  | @code code _ small found =>
      unfold glyphOfCode at found
      split at found
      · rename_i encoding privateData keying
        obtain rfl := Except.ok.inj found
        cases stands : encoding.nameId? code with
        | none =>
            have few := (read.encoding _ _ keying).few
            have glyph := Encoding.glyph_of_of_code few stands font.charset
            exact .inr (.inr ⟨encoding, privateData, keying, code, small, stands, glyph⟩)
        | some id =>
            have glyph := Encoding.glyph_of_of_name_id stands font.charset
            rw [Encoding.glyph_of_name_id_eq (is_names_of_keying read keying)] at glyph
            exact .inr (.inl ⟨id, .code small keying stands, glyph⟩)
      · cases found
  | @cid cid _ small found =>
      obtain ⟨isCids, rfl⟩ := Charset.glyph_of_cid_ok_iff.mp found
      exact .inr (.inl ⟨cid, .cid (keyed.symm.trans isCids) small, rfl⟩)

theorem selects_lt_iff :
    (∀ glyph, font.Selects glyph → glyph < font.glyphCount) ↔
      font.strayCodes = [] ∧ ∀ id ∈ font.strayIds, ¬ font.Asks id := by
  have nonempty := read.nonempty
  constructor
  · intro inside
    refine ⟨List.eq_nil_iff_forall_not_mem.mpr fun code stray => ?_, fun id stray asked => ?_⟩
    · obtain ⟨encoding, privateData, keying, small, stands, place, found, past⟩ :=
        mem_stray_codes.mp stray
      have answer : font.glyphOfCode code = .ok (place + 1) := by
        simp only [glyphOfCode, keying]
        rw [Encoding.glyph_of_of_code (read.encoding _ _ keying).few stands, found]
        rfl
      exact Nat.not_lt.mpr past (inside _ (.code small answer))
    · obtain ⟨small, selected⟩ := selects_of_asks read asked
      have past := (Charset.le_glyph_of_iff small nonempty).mpr stray
      exact Nat.not_lt.mpr past (inside _ selected)
  · rintro ⟨noCodes, noIds⟩ glyph selected
    obtain rfl | ⟨id, asked, rfl⟩ | ⟨encoding, privateData, keying, code, small, stands, rfl⟩ :=
      selects_cases read selected
    · exact nonempty
    · refine Nat.not_le.mp fun past => noIds id ?_ asked
      exact (Charset.le_glyph_of_iff (selects_of_asks read asked).1 nonempty).mp past
    · cases found : encoding.codes.findIdx? (· == code) with
      | none => exact nonempty
      | some place =>
          refine Nat.not_le.mp fun past => ?_
          have stray : code ∈ font.strayCodes :=
            mem_stray_codes.mpr ⟨encoding, privateData, keying, small, stands, place, found, past⟩
          rw [noCodes] at stray
          cases stray

theorem fits_charset : font.charset.Fits :=
  fun custom isCustom => (read.charset.custom custom isCustom).fits

theorem named_of_has_glyph {name : String} (has : font.hasGlyph name = true) :
    ∃ glyph, 0 < glyph ∧ font.Selects glyph ∧ font.nameOf? glyph = .ok (some name) := by
  unfold hasGlyph at has
  split at has
  · rename_i glyph found
    have positive : glyph ≠ 0 := of_decide_eq_true has
    exact ⟨glyph, Nat.pos_of_ne_zero positive, .name found,
      Charset.named_of_glyph_of_name (fits_charset read) read.strings found positive⟩
  · cases has

theorem stray_ids_eq_nil
    (only : (∃ stored, font.charset.custom? = some (.ids stored)) ∨
      ∃ glyphs, font.charset = .identity glyphs) : font.strayIds = [] := by
  refine strays_of_length_le (Nat.le_trans (List.length_take_le' _ _) ?_)
  obtain ⟨stored, isCustom⟩ | ⟨glyphs, isIdentity⟩ := only
  · have length := (read.charset.custom _ isCustom).noMore stored rfl
    rw [← Charset.listed_of_custom isCustom] at length
    exact Nat.le_of_eq length
  · have length : font.charset.listed.length = glyphs := by
      rw [isIdentity, Charset.listed, List.length_range]
    exact Nat.le_of_eq (length.trans (read.charset.identity glyphs isIdentity))

omit read

/-- All names, codes and CIDs are answered with glyphs of the font if and only if what is listed past
the last glyph only is never asked for. A charset that stores its ids one by one, and that of a
CID-keyed font without one, lists nothing there. A font that is said to have a glyph of some name
answers the name with a glyph of that name. -/
theorem selected_glyphs_exist_iff {result : FontProgram}
    (loaded : (FontProgram.read program).outcome = .ok result) (member : font ∈ result.fonts) :
    ((∀ glyph, font.Selects glyph → glyph < font.glyphCount) ↔
        font.strayCodes = [] ∧ ∀ id ∈ font.strayIds, ¬ font.Asks id) ∧
      ((∃ stored, font.charset.custom? = some (.ids stored)) ∨
          (∃ glyphs, font.charset = .identity glyphs) → font.strayIds = []) ∧
      ∀ name, font.hasGlyph name = true →
        ∃ glyph, 0 < glyph ∧ font.Selects glyph ∧ font.nameOf? glyph = .ok (some name) := by
  obtain ⟨-, -, fonts⟩ := FontProgram.read_from_of_read loaded
  obtain ⟨place, found⟩ := List.mem_iff_getElem?.mp member
  have read := (fonts place font found).2
  exact ⟨selects_lt_iff read, stray_ids_eq_nil read, fun name => named_of_has_glyph read⟩

def twoLetters : Window where
  base := 0
  data :=
    [1, 0, 4, 1, 0, 1, 1, 1, 8, 76, 101, 116, 116, 101, 114, 115, 0, 1, 1, 1, 12, 28, 0, 36, 15,
      28, 0, 41, 17, 139, 139, 18, 0, 0, 0, 0, 0, 0, 34, 0, 35, 0, 3, 1, 1, 2, 3, 4, 14, 14, 14]

theorem two_letters_select_glyphs :
    ∃ result font, (FontProgram.read twoLetters).outcome = .ok result ∧ font ∈ result.fonts ∧
      font.glyphOfName "B" = .ok 2 ∧ ∀ glyph, font.Selects glyph → glyph < 3 := by
  have parts : (FontProgram.read twoLetters).outcome.toOption.map (fun result =>
      result.fonts.map fun font =>
        (font.glyphCount, (font.glyphOfName "B").toOption, font.strayCodes, font.strayIds)) =
      some [(3, some 2, [], [])] := by
    decide +kernel
  obtain ⟨result, read, parts⟩ := Option.map_eq_some_iff.mp parts
  have loaded := Attempt.ok_of_to_option read
  obtain ⟨font, member, part⟩ := List.mem_map.mp (parts ▸ List.mem_singleton_self _)
  simp only [Prod.mk.injEq] at part
  obtain ⟨glyphs, named, noCodes, noIds⟩ := part
  have inside := (selected_glyphs_exist_iff loaded member).1.mpr ⟨noCodes, noIds ▸ nofun⟩
  exact ⟨result, font, loaded, member, Attempt.ok_of_to_option named, glyphs ▸ inside⟩

-- Four glyphs and the charset ISOAdobe, which lists A for glyph 34.
def fourGlyphs : Window where
  base := 0
  data :=
    [1, 0, 4, 4, 0, 1, 1, 1, 5, 84, 101, 115, 116, 0, 1, 1, 1, 18, 29, 0, 0, 0, 48, 17, 29, 0, 0,
      0, 0, 29, 0, 0, 0, 72, 18, 0, 1, 1, 1, 7, 70, 101, 114, 114, 105, 115, 0, 0, 0, 4, 1, 1, 2, 7,
      12, 17, 14, 140, 22, 149, 6, 14, 141, 22, 159, 6, 14, 142, 22, 169, 6, 14]

theorem four_glyphs_select_no_glyph :
    ∃ result font, (FontProgram.read fourGlyphs).outcome = .ok result ∧ font ∈ result.fonts ∧
      font.glyphCount = 4 ∧ font.glyphOfName "A" = .ok 34 ∧ font.glyphOfCode 65 = .ok 34 ∧
      font.hasGlyph "A" = true ∧ ∀ glyph < 4, font.nameOf? glyph ≠ .ok (some "A") := by
  have parts : (FontProgram.read fourGlyphs).outcome.toOption.map (fun result =>
      result.fonts.map fun font =>
        (font.glyphCount, (font.glyphOfName "A").toOption, (font.glyphOfCode 65).toOption,
          font.hasGlyph "A",
          (List.range 4).all fun glyph => (font.nameOf? glyph).toOption != some (some "A"))) =
      some [(4, some 34, some 34, true, true)] := by
    decide +kernel
  obtain ⟨result, read, parts⟩ := Option.map_eq_some_iff.mp parts
  obtain ⟨font, member, part⟩ := List.mem_map.mp (parts ▸ List.mem_singleton_self _)
  simp only [Prod.mk.injEq] at part
  obtain ⟨glyphs, named, encoded, has, others⟩ := part
  refine ⟨result, font, Attempt.ok_of_to_option read, member, glyphs, Attempt.ok_of_to_option named,
    Attempt.ok_of_to_option encoded, has, fun glyph inside same => ?_⟩
  have other := List.all_eq_true.mp others glyph (List.mem_range.mpr inside)
  rw [same] at other
  exact absurd other (by decide)

end Font

end CompactFont
