import CompactFont.Proofs.CustomEncodings
import CompactFont.Proofs.FontDictLists
import CompactFont.Proofs.GlyphFaults

set_option autoImplicit false

namespace CompactFont

namespace CidData

structure Complete (data : CidData) (program : Window) (top : Dict .top) (glyphs : Nat) : Prop where
  nonempty : 0 < data.index.count
  located : data.index.LocatedBy program top .fdArray
  fontDicts : data.fontDicts.Complete program data.index
  selected : ∀ table, data.select = .perGlyph table →
    ∀ glyph < glyphs, ∃ place, data.select.fontDictOf? glyph = some place

theorem complete_of_read {program : Window} {top : Dict .top} {glyphs : Nat} {data : CidData}
    (read : (CidData.read program top glyphs).outcome = .ok data) :
    data.Complete program top glyphs := by
  obtain ⟨collection, -, read⟩ := Attempt.bind_ok read
  obtain ⟨arrayOffset, arrayLocated, read⟩ := Attempt.bind_ok read
  obtain ⟨index, arrayRead, read⟩ := Attempt.bind_ok read
  dsimp only at read
  split at read
  · cases read
  · rename_i nonempty
    obtain ⟨selectOffset, -, read⟩ := Attempt.bind_ok read
    obtain ⟨select, selectRead, read⟩ := Attempt.bind_ok read
    obtain ⟨fontDicts, fontDictsRead, read⟩ := Attempt.bind_ok read
    obtain rfl := Except.ok.inj read
    have located := Index.located_by_of_read_at arrayLocated arrayRead
    refine
      { nonempty := Index.pos_of_is_empty nonempty
        located
        fontDicts := FontDicts.complete_of_read located.whole fontDictsRead
        selected := ?_ }
    rintro table rfl glyph inside
    obtain ⟨_, _, _, tableRead⟩ := Window.read_at_ok selectRead
    exact ⟨_, Array.getElem?_eq_getElem (FontDictSelect.size_of_read tableRead ▸ inside)⟩

end CidData

namespace Charset

theorem glyph_of_name_error {charset : Charset} {strings : Strings} {name : String} {error : ReadError}
    (failed : charset.glyphOfName strings name = .error error) : error = .wrongKind := by
  rw [glyph_of_name_eq] at failed
  split at failed
  · exact (Except.error.inj failed).symm
  · cases failed

theorem glyph_of_cid_error {charset : Charset} {cid : Nat} {error : ReadError}
    (failed : charset.glyphOfCid cid = .error error) : error = .wrongKind := by
  rw [glyph_of_cid_eq] at failed
  split at failed
  · cases failed
  · exact (Except.error.inj failed).symm

structure ReadFor (charset : Charset) (glyphs : Nat) (isCid : Bool) : Prop where
  keyed : charset.isCid = isCid
  custom : ∀ custom, charset.custom? = some custom → custom.Covers glyphs
  identity : ∀ count, charset = .identity count → count = glyphs

theorem read_for_of_read_at (wrap : CustomCharset → Charset) {isCid : Bool}
    (keyed : ∀ stored, (wrap stored).isCid = isCid)
    (wraps : ∀ stored, (wrap stored).custom? = some stored) {program : Window} {offset : Int}
    {glyphs : Nat} {charset : Charset}
    (read : wrap <$> program.readAt offset (CustomCharset.read glyphs) = .ok charset) :
    charset.ReadFor glyphs isCid := by
  obtain ⟨stored, located, rfl⟩ := Attempt.except_map_ok read
  obtain ⟨_, _, _, found⟩ := Window.read_at_ok located
  refine ⟨keyed stored, fun custom isCustom => ?_, fun count same => ?_⟩
  · obtain rfl := Option.some.inj ((wraps stored).symm.trans isCustom)
    exact CustomCharset.covers_of_read found
  · have none := wraps stored
    rw [same] at none
    cases none

theorem read_for_of_predefined {charset : Charset} (glyphs : Nat)
    (predefined : charset = .isoAdobe ∨ charset = .expert ∨ charset = .expertSubset) :
    charset.ReadFor glyphs false := by
  obtain rfl | rfl | rfl := predefined <;> exact ⟨rfl, nofun, nofun⟩

theorem read_for_identity (glyphs : Nat) : (identity glyphs).ReadFor glyphs true :=
  ⟨rfl, nofun, fun _ same => (Charset.identity.inj same).symm⟩

theorem read_for_of_load {program : Window} {top : Dict .top} {glyphs : Nat} {isCid : Bool}
    {charset : Charset} (load : Charset.load program top glyphs isCid = .ok charset) :
    charset.ReadFor glyphs isCid := by
  unfold Charset.load at load
  dsimp only at load
  have predefined {fixed : Charset} (given : Except.ok fixed = (Except.ok charset : Except ReadError _))
      (known : fixed = .isoAdobe ∨ fixed = .expert ∨ fixed = .expertSubset) :
      charset.ReadFor glyphs false :=
    read_for_of_predefined glyphs (Except.ok.inj given ▸ known)
  cases isCid with
  | true =>
      split at load
      · obtain rfl := Except.ok.inj load
        exact read_for_identity glyphs
      · exact read_for_of_read_at .cid (fun _ => rfl) (fun _ => rfl) load
      · exact read_for_of_read_at .cid (fun _ => rfl) (fun _ => rfl) load
      · cases load
  | false =>
      split at load
      case h_1 => exact predefined load (.inl rfl)
      case h_2 | h_3 =>
        rw [if_neg Bool.false_ne_true] at load
        split at load
        · exact predefined load (.inl rfl)
        · exact predefined load (.inr (.inl rfl))
        · exact predefined load (.inr (.inr rfl))
        · exact read_for_of_read_at .custom (fun _ => rfl) (fun _ => rfl) load
      case h_4 => cases load

end Charset

theorem Encoding.fits_of_load {program : Window} {top : Dict .top} {encoding : Encoding}
    (load : Encoding.load program top = .ok encoding) : encoding.Fits := by
  obtain ⟨offset, -, load⟩ := Attempt.except_bind_ok load
  split at load
  · obtain rfl := Except.ok.inj load
    exact Encoding.fits_standard
  · obtain rfl := Except.ok.inj load
    exact Encoding.fits_expert
  · obtain ⟨stored, located, rfl⟩ := Attempt.except_map_ok load
    obtain ⟨_, _, _, found⟩ := Window.read_at_ok located
    exact CustomEncoding.fits_of_stored (CustomEncoding.stored_of_read found)

namespace Font

structure NeverBadIndex (font : Font) : Prop where
  answer : ∀ cache glyph, font.answer cache glyph ≠ .error (.read .badIndex)
  named : ∀ cache name, (font.glyphNamed cache name).value.1 ≠ .error (.read .badIndex)
  withCid : ∀ cache cid, (font.glyphWithCid cache cid).value.1 ≠ .error (.read .badIndex)
  type1Tokens : ∀ glyph, (font.type1Tokens glyph).outcome ≠ .error (.read .badIndex)
  type2Tokens : ∀ glyph, (font.type2Tokens glyph).outcome ≠ .error (.read .badIndex)

theorem selected_glyph_ne_bad_index {font : Font} {cache : GlyphCache} {selected : Except ReadError Nat}
    (answered : ∀ glyph, font.answer cache glyph ≠ .error (.read .badIndex))
    (selectable : ∀ error, selected = .error error → error = .wrongKind) :
    (font.selectedGlyph cache selected).value.1 ≠ .error (.read .badIndex) := by
  cases selected with
  | ok glyph => exact answered glyph
  | error error =>
      obtain rfl := selectable error rfl
      nofun

theorem type2_tokens_ne_bad_index {font : Font} (whole : font.charstrings.Whole)
    (nonempty : 0 < font.glyphCount) (glyph : Nat) :
    (font.type2Tokens glyph).outcome ≠ .error (.read .badIndex) := by
  unfold type2Tokens
  cases font.dialect with
  | type1 => nofun
  | type2 =>
      intro failed
      exact (fails_only_decode_type2 whole nonempty glyph _ failed).ne_bad_index rfl

theorem never_bad_index {font : Font} (whole : font.charstrings.Whole)
    (nonempty : 0 < font.glyphCount) : font.NeverBadIndex := by
  have answered (cache : GlyphCache) (glyph : Nat) :
      font.answer cache glyph ≠ .error (.read .badIndex) :=
    fun failed => (answer_fault whole nonempty failed).ne_bad_index rfl
  refine
    { answer := answered
      named := fun cache name => ?_
      withCid := fun cache cid => ?_
      type1Tokens := fun glyph failed => ?_
      type2Tokens := type2_tokens_ne_bad_index whole nonempty }
  · exact selected_glyph_ne_bad_index (answered cache) fun _ => Charset.glyph_of_name_error
  · exact selected_glyph_ne_bad_index (answered cache) fun _ => Charset.glyph_of_cid_error
  · exact (fails_only_type1_tokens whole nonempty glyph _ failed).ne_bad_index rfl

theorem keying_of_read_keying {program : Window} {top : Dict .top} {glyphs : Nat} {keying : Keying}
    {inner : Option Matrix} (read : (readKeying program top glyphs).outcome = .ok (keying, inner)) :
    ((top.find? .ros).isSome = true ∧
        ∃ data, keying = .cids data ∧ data.Complete program top glyphs) ∨
      ((top.find? .ros).isSome = false ∧
        ∃ encoding privateData, keying = .names encoding privateData ∧ encoding.Fits) := by
  unfold readKeying at read
  split at read
  · rename_i isCid
    obtain ⟨data, found, read⟩ := Attempt.bind_ok read
    have same : keying = .cids data := by
      dsimp only at read
      split at read
      · obtain ⟨_, _, last⟩ := Attempt.bind_ok read
        exact (Prod.mk.inj (Except.ok.inj last)).1.symm
      · exact (Prod.mk.inj (Except.ok.inj read)).1.symm
    exact .inl ⟨isCid, data, same, CidData.complete_of_read found⟩
  · rename_i isNames
    obtain ⟨privateData, -, read⟩ := Attempt.bind_ok read
    obtain ⟨encoding, load, read⟩ := Attempt.bind_ok read
    obtain ⟨rfl, -⟩ := Prod.mk.inj (Except.ok.inj read)
    have fits := Encoding.fits_of_load load
    exact .inr ⟨Bool.eq_false_iff.mpr isNames, encoding, privateData, rfl, fits⟩

structure ReadFrom (font : Font) (program : Window) : Prop where
  nonempty : 0 < font.glyphCount
  located : font.charstrings.LocatedBy program font.top .charStrings
  strings : font.strings.custom.Whole
  charset : font.charset.ReadFor font.glyphCount font.isCidKeyed
  encoding : ∀ encoding privateData, font.keying = .names encoding privateData → encoding.Fits
  cidData : ∀ data, font.cidData? = some data → data.Complete program font.top font.glyphCount

theorem read_from_of_load {program : Window} {name : String} {top : Dict .top} {globalSubrs : Index}
    {strings : Strings} {font : Font} (whole : strings.custom.Whole)
    (load : (Font.load program name top globalSubrs strings).outcome = .ok font) :
    font.name = name ∧ font.ReadFrom program := by
  unfold Font.load at load
  dsimp only at load
  split at load
  · cases load
  · obtain ⟨offset, located, load⟩ := Attempt.bind_ok load
    obtain ⟨charstrings, read, load⟩ := Attempt.bind_ok load
    split at load
    · cases load
    · rename_i nonempty
      obtain ⟨number, -, load⟩ := Attempt.bind_ok load
      obtain ⟨dialect, -, load⟩ := Attempt.bind_ok load
      obtain ⟨outer, -, load⟩ := Attempt.bind_ok load
      obtain ⟨⟨keying, inner⟩, keyed, load⟩ := Attempt.bind_ok load
      obtain ⟨charset, charsetRead, load⟩ := Attempt.bind_ok load
      obtain rfl := Except.ok.inj load
      have readFor := Charset.read_for_of_load charsetRead
      have stored := Index.located_by_of_read_at located read
      have positive := Index.pos_of_is_empty nonempty
      refine ⟨rfl, ?_⟩
      obtain ⟨isCid, data, rfl, complete⟩ | ⟨isNames, encoding, privateData, rfl, fits⟩ :=
        keying_of_read_keying keyed
      · rw [isCid] at readFor
        exact ⟨positive, stored, whole, readFor, nofun, fun _ same => Option.some.inj same ▸ complete⟩
      · rw [isNames] at readFor
        exact ⟨positive, stored, whole, readFor,
          fun _ _ same => (Keying.names.inj same).1 ▸ fits, nofun⟩

structure Complete (font : Font) (program : Window) : Prop where
  nonempty : 0 < font.glyphCount
  located : font.charstrings.LocatedBy program font.top .charStrings
  charstring : ∀ glyph < font.glyphCount,
    ∃ data, font.charstrings.get? glyph = some data ∧ font.charstring glyph = .ok data
  requests : font.NeverBadIndex
  charset : ∀ custom, font.charset.custom? = some custom → ∀ glyph < font.glyphCount,
    ∃ id, custom.listed[glyph]? = some id ∧ font.charset.idOf? glyph = asId? id
  cidData : ∀ data, font.cidData? = some data → data.Complete program font.top font.glyphCount

theorem complete_of_read_from {font : Font} {program : Window} (read : font.ReadFrom program) :
    font.Complete program where
  nonempty := read.nonempty
  located := read.located
  charstring _ inside := charstring_of_lt read.located.whole inside
  requests := never_bad_index read.located.whole read.nonempty
  charset custom isCustom glyph inside := by
    have covers := read.charset.custom custom isCustom
    have found := List.getElem?_eq_getElem (Nat.lt_of_lt_of_le inside covers.enough)
    refine ⟨_, found, ?_⟩
    rw [Charset.id_of_of_custom isCustom, CustomCharset.id_of_eq covers.fits, found, Option.bind_some]
  cidData := read.cidData

end Font

theorem Header.read_ok {bytes rest : Bytes} {header : Header}
    (read : Header.read bytes = .ok (header, rest)) : rest = bytes.drop header.size := by
  obtain ⟨major, afterMajor, majorRead, read⟩ := Reader.bind_ok read
  split at read
  · obtain ⟨minor, afterMinor, minorRead, read⟩ := Reader.bind_ok read
    obtain ⟨size, afterSize, sizeRead, read⟩ := Reader.bind_ok read
    obtain ⟨offsetSize, afterOffsetSize, offsetSizeRead, read⟩ := Reader.bind_ok read
    split at read
    · rename_i sizes
      obtain ⟨skipped, left, skip, done⟩ := Reader.bind_ok read
      obtain ⟨rfl, rfl⟩ := Prod.mk.inj (Except.ok.inj done)
      obtain ⟨-, rfl, -⟩ := Reader.take_eq skip
      obtain ⟨-, rfl, -⟩ := Field.read_eq offsetSizeRead
      obtain ⟨-, rfl, -⟩ := Field.read_eq sizeRead
      obtain ⟨-, rfl, -⟩ := Field.read_eq minorRead
      obtain ⟨-, rfl, -⟩ := Field.read_eq majorRead
      have four : 1 + (1 + (1 + (1 + (size - 4)))) = size := by omega
      have one : Field.u8.size = 1 := rfl
      rw [List.drop_drop, List.drop_drop, List.drop_drop, List.drop_drop, one, four]
    · cases read
  · cases read

namespace FontProgram

theorem read_from_of_read_font {program : Window} {opening : Opening}
    (whole : opening.strings.Whole) {place : Nat} {font : Font}
    (read : (readFont program opening place).outcome = .ok font) :
    (∃ name, opening.names.get? place = some name ∧ font.name = latin1 name) ∧
      font.ReadFrom program := by
  obtain ⟨name, named, read⟩ := Attempt.bind_ok read
  obtain ⟨data, -, read⟩ := Attempt.bind_ok read
  obtain ⟨top, -, load⟩ := Attempt.bind_ok read
  obtain ⟨same, readFrom⟩ := Font.read_from_of_load whole load
  exact ⟨⟨name, Index.get_of_object named, same⟩, readFrom⟩

theorem stored_of_opening {program : Window} {opening : Opening}
    (read : program.read Opening.read = .ok opening) :
    opening.names.StoredIn (program.data.drop opening.header.size) ∧ opening.strings.Whole := by
  obtain ⟨⟨_, rest⟩, read, rfl⟩ := Attempt.except_map_ok read
  obtain ⟨header, afterHeader, headerRead, read⟩ := Reader.bind_ok read
  obtain ⟨names, afterNames, namesRead, read⟩ := Reader.bind_ok read
  obtain ⟨tops, afterTops, -, read⟩ := Reader.bind_ok read
  obtain ⟨strings, afterStrings, stringsRead, read⟩ := Reader.bind_ok read
  obtain ⟨globalSubrs, afterSubrs, -, done⟩ := Reader.bind_ok read
  obtain ⟨rfl, -⟩ := Prod.mk.inj (Except.ok.inj done)
  obtain rfl := Header.read_ok headerRead
  exact ⟨Index.stored_in_of_read namesRead, (Index.stored_in_of_read stringsRead).holds.whole⟩

theorem read_from_of_read {program : Window} {result : FontProgram}
    (read : (FontProgram.read program).outcome = .ok result) :
    result.names.StoredIn (program.data.drop result.header.size) ∧
      result.fonts.length = result.names.count ∧
      ∀ (place : Nat) font, result.fonts[place]? = some font →
        (∃ name, result.names.get? place = some name ∧ font.name = latin1 name) ∧
          font.ReadFrom program := by
  obtain ⟨opening, opened, read⟩ := Attempt.bind_ok read
  obtain ⟨names, strings⟩ := stored_of_opening opened
  split at read
  · cases read
  · obtain ⟨fonts, fontsRead, done⟩ := Attempt.bind_ok read
    obtain rfl := Except.ok.inj done
    obtain ⟨length, places⟩ := Attempt.map_m_ok fontsRead
    rw [List.length_range] at length
    refine ⟨names, length, fun place font found => ?_⟩
    obtain ⟨other, listed, made⟩ := places place font found
    obtain ⟨inside, same⟩ := List.getElem?_eq_some_iff.mp listed
    obtain rfl : place = other := List.getElem_range inside ▸ same
    exact read_from_of_read_font strings made

theorem read_from_of_mem {program : Window} {result : FontProgram}
    (read : (FontProgram.read program).outcome = .ok result) {font : Font}
    (member : font ∈ result.fonts) : font.ReadFrom program := by
  obtain ⟨-, -, fonts⟩ := read_from_of_read read
  obtain ⟨place, found⟩ := List.mem_iff_getElem?.mp member
  exact (fonts place font found).2

theorem exists_font_of_map {program : Window} {α : Type} {part : Font → α} {value : α}
    (parts : (FontProgram.read program).outcome.toOption.map (fun result => result.fonts.map part) =
      some [value]) :
    ∃ result font, (FontProgram.read program).outcome = .ok result ∧ font ∈ result.fonts ∧
      part font = value := by
  obtain ⟨result, read, fonts⟩ := Option.map_eq_some_iff.mp parts
  obtain ⟨font, member, same⟩ := List.mem_map.mp (fonts ▸ List.mem_singleton_self value)
  exact ⟨result, font, Attempt.ok_of_to_option read, member, same⟩

theorem loaded_fonts_are_complete (program : Window) (result : FontProgram)
    (loaded : (FontProgram.read program).outcome = .ok result) :
    result.names.StoredIn (program.data.drop result.header.size) ∧
      result.fonts.length = result.names.count ∧
      ∀ (place : Nat) font, result.fonts[place]? = some font →
        (∃ name, result.names.get? place = some name ∧ font.name = latin1 name) ∧
          font.Complete program := by
  obtain ⟨stored, length, fonts⟩ := read_from_of_read loaded
  refine ⟨stored, length, fun place font found => ?_⟩
  obtain ⟨named, readFrom⟩ := fonts place font found
  exact ⟨named, Font.complete_of_read_from readFrom⟩

-- A CID-keyed font with three glyphs and two Font DICTs, the first of which has a subroutine. Its
-- only range of CIDs has one more than there are glyphs.
def keyedByCid : Window where
  base := 0
  data :=
    [1, 0, 4, 1, 0, 1, 1, 1, 6, 75, 101, 121, 101, 100, 0, 1, 1, 1, 24, 139, 139, 139, 12, 30,
      28, 0, 46, 15, 28, 0, 50, 12, 37, 28, 0, 54, 17, 28, 0, 74, 12, 36, 0, 0, 0, 0, 1, 0, 5, 2,
      0, 0, 1, 1, 0, 3, 1, 1, 2, 5, 6, 14, 32, 10, 14, 14, 141, 19, 0, 1, 1, 1, 2, 11, 0, 2, 1, 1,
      6, 9, 141, 28, 0, 66, 18, 139, 139, 18]

theorem keyed_by_cid_is_complete :
    ∃ result, (FontProgram.read keyedByCid).outcome = .ok result ∧
      ∃ font, result.fonts = [font] ∧ font.glyphCount = 3 ∧ font.Complete keyedByCid ∧
        ∃ data, font.cidData? = some data ∧ data.fontDicts.dicts.size = 2 := by
  have counts : (FontProgram.read keyedByCid).outcome.toOption.map (fun result =>
      result.fonts.map fun font => (font.glyphCount, font.cidData?.map (·.fontDicts.dicts.size))) =
      some [(3, some 2)] := by
    decide +kernel
  obtain ⟨result, read, counts⟩ := Option.map_eq_some_iff.mp counts
  have loaded := Attempt.ok_of_to_option read
  obtain ⟨-, -, complete⟩ := loaded_fonts_are_complete keyedByCid result loaded
  obtain ⟨font, rest, only, counted, none⟩ := List.map_eq_cons_iff.mp counts
  obtain rfl := List.map_eq_nil_iff.mp none
  obtain ⟨glyphs, cids⟩ := Prod.mk.inj counted
  have first : result.fonts[0]? = some font := by rw [only]; rfl
  exact ⟨result, loaded, font, only, glyphs, (complete 0 font first).2, Option.map_eq_some_iff.mp cids⟩

end FontProgram

end CompactFont
