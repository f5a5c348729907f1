import CompactFont.Proofs.BuiltParts

set_option autoImplicit false

namespace CompactFont

theorem Header.reads_header : Reader.Reads Header.read [1, 0, 4, 4] ⟨1, 0, 4, 4⟩ := fun _ => rfl

theorem Font.outcome_load_of_parts {program : Window} {name : String} {top : Dict .top}
    {globalSubrs charstrings : Index} {strings : Strings} {offset : Int} {keying : Keying}
    {charset : Charset} (notSynthetic : top.find? .syntheticBase = none)
    (located : top.requiredInteger .charStrings = .ok offset)
    (read : program.readAt offset Index.read = .ok charstrings)
    (nonempty : charstrings.isEmpty = false)
    (dialect : top.requiredInteger .charstringType = .ok 2)
    (noMatrix : top.find? .fontMatrix = none)
    (keyed : (readKeying program top charstrings.count).outcome = .ok (keying, none))
    (listed : Charset.load program top charstrings.count (top.find? .ros).isSome = .ok charset) :
    (Font.load program name top globalSubrs strings).outcome =
      .ok ⟨name, top, charstrings, charset, keying, .perThousand, .type2, globalSubrs, strings⟩ := by
  have outer : readMatrix? top = pure none := by rw [readMatrix?, noMatrix]
  simp only [Font.load, notSynthetic]
  refine (Attempt.outcome_bind_lift located).trans ?_
  refine (Attempt.outcome_bind_lift read).trans ?_
  rw [nonempty]
  refine (Attempt.outcome_bind_lift dialect).trans ?_
  refine (Attempt.outcome_bind_lift (rfl : Dialect.ofNumber 2 = .ok .type2)).trans ?_
  rw [outer]
  refine (Attempt.outcome_bind_of_ok rfl).trans ?_
  refine (Attempt.outcome_bind_of_ok keyed).trans ?_
  exact Attempt.outcome_bind_lift listed

namespace Blueprint

variable {blueprint : Blueprint} {ids? : Option (List Nat)}

-- A name of ASCII characters, glyphs, no entries but those that are always written, and a charset
-- that is left out or lists an id for each glyph but the first.
structure Plain (blueprint : Blueprint) (ids? : Option (List Nat)) : Prop where
  ascii : ∀ char ∈ blueprint.name.toList, char.toNat < 128
  topEntries : blueprint.topEntries = []
  encoding : blueprint.encoding? = none
  charset : blueprint.charset? = ids?.map idList
  ids : ∀ ids, ids? = some ids →
    ids.length + 1 = blueprint.charstrings.length ∧ ∀ id ∈ ids, id ≤ maxId
  charstrings : blueprint.charstrings ≠ []
  fewStrings : blueprint.allStrings.length ≤ 65535
  fewGlobalSubrs : blueprint.globalSubrs.length ≤ 65535
  fewCharstrings : blueprint.charstrings.length ≤ 65535
  privateData : blueprint.cid? = none → blueprint.privateData.Plain
  cid : ∀ plan, blueprint.cid? = some plan → plan.Plain blueprint.charstrings.length
  small : blueprint.build.length < 2147483648

section Top

def topEntriesOf (isCid hasCharset : Bool) (layout : Layout) : List Dict.Entry :=
  (if isCid then [⟨.ros, [.integer 391, .integer 392, .integer 0]⟩] else []) ++
    ((if hasCharset then [⟨.charset, [.offset layout.charset]⟩] else []) ++
      ([⟨.charStrings, [.offset layout.charstrings]⟩] ++
        if isCid then
          [⟨.fdArray, [.offset layout.fdArray]⟩, ⟨.fdSelect, [.offset layout.fdSelect]⟩]
        else [⟨.privateDict, [.offset layout.privateLength, .offset layout.privateDict]⟩]))

def top (blueprint : Blueprint) : Dict .top :=
  ⟨topEntriesOf blueprint.cid?.isSome blueprint.charset?.isSome blueprint.layout⟩

structure Answers (blueprint : Blueprint) (top : Dict .top) : Prop where
  notSynthetic : top.find? .syntheticBase = none
  noMatrix : top.find? .fontMatrix = none
  dialect : top.requiredInteger .charstringType = .ok 2
  encoding : top.requiredInteger .encoding = .ok 0
  charstrings : top.requiredInteger .charStrings = .ok blueprint.layout.charstrings
  charset : top.find? .charset =
    if blueprint.charset?.isSome then some [.offset blueprint.layout.charset] else none
  collection : top.find? .ros =
    if blueprint.cid?.isSome then some [.integer 391, .integer 392, .integer 0] else none
  array : blueprint.cid?.isSome = true →
    top.requiredInteger .fdArray = .ok blueprint.layout.fdArray
  select : blueprint.cid?.isSome = true →
    top.requiredInteger .fdSelect = .ok blueprint.layout.fdSelect
  privateDict : blueprint.cid?.isSome = false → top.get? .privateDict =
    some [.offset blueprint.layout.privateLength, .offset blueprint.layout.privateDict]

theorem answers_top (blueprint : Blueprint) : blueprint.Answers blueprint.top := by
  rw [top]
  constructor <;> cases blueprint.cid?.isSome <;> cases blueprint.charset?.isSome <;>
    first | rfl | exact fun _ => rfl | exact fun other => nomatch other

theorem fd_select_layout {plan : CidPlan} (given : blueprint.cid? = some plan) :
    blueprint.layout.fdSelect =
      blueprint.layout.fdArray + plan.arrayLength + plan.privateData.length := by
  simp only [layout, given]

theorem spells_top_dict (plain : blueprint.Plain ids?) :
    Dict.Spells (blueprint.topDict blueprint.layout) blueprint.top.entries := by
  have small : blueprint.program.data.length < 2147483648 := plain.small
  have charstrings := (holds_charstrings blueprint).le
  have charset := (holds_charset blueprint).le
  have keying := holds_keying_data blueprint
  simp only [topDict, plain.topEntries, plain.encoding, Option.isSome_none, Bool.false_eq_true,
    if_false, List.nil_append]
  refine Dict.spells_append (Dict.spells_if fun _ => Dict.spells_collection) ?_
  refine Dict.spells_append (Dict.spells_if fun _ => Dict.spells_offset (by omega) rfl) ?_
  refine Dict.spells_append (Dict.spells_offset (by omega) rfl) ?_
  cases given : blueprint.cid? with
  | none =>
      rw [keyingData, given] at keying
      have within := keying.left.le
      exact Dict.spells_private (show blueprint.privateData.dict.length < _ by omega)
        (show blueprint.layout.fdArray < _ by omega)
  | some plan =>
      rw [keyingData, given] at keying
      have within := (CidPlan.holds_select keying).le
      have select := fd_select_layout given
      exact Dict.spells_append (Dict.spells_offset (by omega) rfl)
        (Dict.spells_offset (by omega) rfl)

end Top

section Keyings

structure Keyed (blueprint : Blueprint) (keying : Keying) : Prop where
  names : blueprint.cid? = none → ∃ subrs?,
    keying = .names .standard ⟨blueprint.privateData.located, subrs?⟩ ∧
      blueprint.privateData.Stored subrs?
  cids : ∀ plan, blueprint.cid? = some plan → ∃ data, keying = .cids data ∧ plan.Reading data

theorem outcome_read_keying_names (plain : blueprint.Plain ids?) (names : blueprint.cid? = none)
    (glyphs : Nat) :
    ∃ keying, (Font.readKeying blueprint.program blueprint.top glyphs).outcome = .ok (keying, none) ∧
      blueprint.Keyed keying := by
  have answers := answers_top blueprint
  have collection := answers.collection
  have located := answers.privateDict (by rw [names]; rfl)
  have held := holds_keying_data blueprint
  rw [keyingData, names] at held
  rw [names] at collection
  have standard : Encoding.load blueprint.program blueprint.top = .ok .standard := by
    simp only [Encoding.load, answers.encoding]
    rfl
  obtain ⟨subrs?, read, stored⟩ :=
    PrivatePlan.outcome_read (plain.privateData names) held plain.small located
  refine ⟨.names .standard _, ?_, fun _ => ⟨subrs?, rfl, stored⟩, fun plan given => ?_⟩
  · simp only [Font.readKeying, collection]
    exact (Attempt.outcome_bind_of_ok read).trans (Attempt.outcome_bind_lift standard)
  · rw [names] at given
    cases given

theorem outcome_read_keying_cids (plain : blueprint.Plain ids?) {plan : CidPlan}
    (cids : blueprint.cid? = some plan) :
    ∃ keying, (Font.readKeying blueprint.program blueprint.top blueprint.charstrings.length).outcome =
      .ok (keying, none) ∧ blueprint.Keyed keying := by
  have answers := answers_top blueprint
  have isCid : blueprint.cid?.isSome = true := by rw [cids]; rfl
  have collection := answers.collection
  have array := answers.array isCid
  have select := answers.select isCid
  have held := holds_keying_data blueprint
  rw [keyingData, cids] at held
  rw [if_pos isCid] at collection
  rw [fd_select_layout cids] at select
  obtain ⟨data, read, reading⟩ :=
    CidPlan.outcome_read (plain.cid plan cids) held plain.small collection array select
  refine ⟨.cids data, ?_, fun names => ?_, fun other given => ?_⟩
  · simp only [Font.readKeying, collection]
    refine (Attempt.outcome_bind_of_ok read).trans ?_
    split
    · rename_i first found
      rw [Font.readMatrix?, reading.no_matrix found]
      rfl
    · rfl
  · rw [cids] at names
    cases names
  · obtain rfl := Option.some.inj (cids.symm.trans given)
    exact ⟨data, rfl, reading⟩

theorem outcome_read_keying (plain : blueprint.Plain ids?) :
    ∃ keying, (Font.readKeying blueprint.program blueprint.top blueprint.charstrings.length).outcome =
      .ok (keying, none) ∧ blueprint.Keyed keying := by
  cases given : blueprint.cid? with
  | none => exact outcome_read_keying_names plain given _
  | some plan => exact outcome_read_keying_cids plain given

end Keyings

def charset (blueprint : Blueprint) (ids? : Option (List Nat)) : Charset :=
  match ids? with
  | some ids => if blueprint.cid?.isSome then .cid (.ids ids.toArray) else .custom (.ids ids.toArray)
  | none => if blueprint.cid?.isSome then .identity blueprint.charstrings.length else .isoAdobe

-- The small offsets stand for predefined charsets.
theorem large_charset : 2 < blueprint.layout.charset := by
  have first : 4 ≤ blueprint.layout.charstrings := by
    simp only [layout, opening, List.length_append]
    exact Nat.le_add_right 4 _
  exact Nat.lt_of_lt_of_le (Nat.lt_of_lt_of_le (by decide) first) (Nat.le_add_right _ _)

theorem load_charset (plain : blueprint.Plain ids?) :
    Charset.load blueprint.program blueprint.top blueprint.charstrings.length blueprint.cid?.isSome =
      .ok (blueprint.charset ids?) := by
  have located := (answers_top blueprint).charset
  have listed := plain.charset
  cases given : ids? with
  | none =>
      rw [given] at listed
      rw [listed] at located
      exact Charset.load_of_absent located _ _
  | some ids =>
      obtain ⟨length, small⟩ := plain.ids ids given
      have held := holds_charset blueprint
      rw [given] at listed
      rw [listed] at located held
      have few := plain.fewCharstrings
      have fits : ids.length * 2 ≤ Field.maxArraySize := by
        rw [Field.maxArraySize]
        omega
      have read := held.read_at (CustomCharset.reads_ids small fits)
      rw [length] at read
      exact Charset.load_of_located located large_charset read _

structure Reading (blueprint : Blueprint) (ids? : Option (List Nat)) (result : FontProgram)
    (font : Font) : Prop where
  fonts : result.fonts = [font]
  names : result.names.Stores [utf8 blueprint.name]
  strings : result.strings.Stores blueprint.allStrings
  globalSubrs : result.globalSubrs.Stores blueprint.globalSubrs
  name : font.name = blueprint.name
  charstrings : font.charstrings.Stores blueprint.charstrings
  fontStrings : font.strings = ⟨result.strings⟩
  fontSubrs : font.globalSubrs = result.globalSubrs
  charset : font.charset = blueprint.charset ids?
  keying : blueprint.Keyed font.keying
  isCidKeyed : font.isCidKeyed = blueprint.cid?.isSome

theorem is_cid_keyed_of_keyed {font : Font} (keyed : blueprint.Keyed font.keying) :
    font.isCidKeyed = blueprint.cid?.isSome := by
  rw [Font.isCidKeyed, Font.cidData?]
  cases given : blueprint.cid? with
  | none =>
      obtain ⟨subrs?, shape, -⟩ := keyed.names given
      rw [shape]
      rfl
  | some plan =>
      obtain ⟨data, shape, -⟩ := keyed.cids plan given
      rw [shape]
      rfl

def openingRead (blueprint : Blueprint) : FontProgram.Opening where
  header := ⟨1, 0, 4, 4⟩
  names := .ofObjects 4 [utf8 blueprint.name]
  tops := .ofObjects 4 [blueprint.topDict blueprint.layout]
  strings := .ofObjects 4 blueprint.allStrings
  globalSubrs := .ofObjects 4 blueprint.globalSubrs

theorem holds_opening (blueprint : Blueprint) :
    blueprint.program.Holds 0 (blueprint.opening blueprint.layout) :=
  (Window.holds_whole blueprint.build).left

structure OpeningStores (blueprint : Blueprint) : Prop where
  names : blueprint.openingRead.names.Stores [utf8 blueprint.name]
  tops : blueprint.openingRead.tops.Stores [blueprint.topDict blueprint.layout]
  strings : blueprint.openingRead.strings.Stores blueprint.allStrings
  globalSubrs : blueprint.openingRead.globalSubrs.Stores blueprint.globalSubrs

theorem opening_stores (plain : blueprint.Plain ids?) : blueprint.OpeningStores where
  names := (holds_opening blueprint).right.left.stores (by simp) plain.small
  tops := (holds_opening blueprint).right.right.left.stores (by simp) plain.small
  strings := (holds_opening blueprint).right.right.right.left.stores plain.fewStrings plain.small
  globalSubrs :=
    (holds_opening blueprint).right.right.right.right.stores plain.fewGlobalSubrs plain.small

theorem read_opening (plain : blueprint.Plain ids?) :
    blueprint.program.read FontProgram.Opening.read = .ok blueprint.openingRead := by
  have small : blueprint.program.data.length < 2147483648 := plain.small
  have held := holds_opening blueprint
  have names := held.right.left.reads_index (by simp) small
  have tops := held.right.right.left.reads_index (by simp) small
  have strings := held.right.right.right.left.reads_index plain.fewStrings small
  have globalSubrs := held.right.right.right.right.reads_index plain.fewGlobalSubrs small
  have reads : Reader.Reads FontProgram.Opening.read (blueprint.opening blueprint.layout)
      blueprint.openingRead := by
    refine Reader.reads_bind Header.reads_header ?_
    refine Reader.reads_bind names ?_
    refine Reader.reads_bind tops ?_
    refine Reader.reads_bind strings ?_
    exact Reader.reads_map _ globalSubrs
  exact held.read reads

def font (blueprint : Blueprint) (ids? : Option (List Nat)) (keying : Keying) : Font where
  name := latin1 (utf8 blueprint.name)
  top := blueprint.top
  charstrings := .ofObjects 4 blueprint.charstrings
  charset := blueprint.charset ids?
  keying
  matrix := .perThousand
  dialect := .type2
  globalSubrs := .ofObjects 4 blueprint.globalSubrs
  strings := ⟨.ofObjects 4 blueprint.allStrings⟩

theorem outcome_load (plain : blueprint.Plain ids?) :
    ∃ keying, blueprint.Keyed keying ∧
      (Font.load blueprint.program (latin1 (utf8 blueprint.name)) blueprint.top
        (.ofObjects 4 blueprint.globalSubrs) ⟨.ofObjects 4 blueprint.allStrings⟩).outcome =
      .ok (blueprint.font ids? keying) := by
  have answers := answers_top blueprint
  obtain ⟨keying, read, keyed⟩ := outcome_read_keying plain
  have charstrings := (holds_charstrings blueprint).read_index plain.fewCharstrings plain.small
  have count := Index.count_of_objects 4 blueprint.charstrings
  have nonempty : (Index.ofObjects 4 blueprint.charstrings).isEmpty = false := by
    rw [Index.is_empty_of_objects, List.isEmpty_eq_false_iff]
    exact plain.charstrings
  have isCid : (blueprint.top.find? .ros).isSome = blueprint.cid?.isSome := by
    rw [answers.collection]
    cases blueprint.cid?.isSome <;> rfl
  refine ⟨keying, keyed, ?_⟩
  apply Font.outcome_load_of_parts answers.notSynthetic answers.charstrings charstrings nonempty
    answers.dialect answers.noMatrix (count ▸ read)
  rw [isCid, count]
  exact load_charset plain

end Blueprint

theorem reading_undoes_building (blueprint : Blueprint) (ids? : Option (List Nat))
    (plain : blueprint.Plain ids?) :
    ∃ result font, (FontProgram.read (.whole blueprint.build)).outcome = .ok result ∧
      blueprint.Reading ids? result font := by
  obtain ⟨keying, keyed, loaded⟩ := Blueprint.outcome_load plain
  have top : (Dict.ofBytes (blueprint.topDict blueprint.layout)).outcome = .ok blueprint.top :=
    Dict.outcome_of_bytes_of_spells (Blueprint.spells_top_dict plain)
  have stores := Blueprint.opening_stores plain
  have name := Index.object_of_get (stores.names.holds.get 0)
  have data := Index.object_of_get (stores.tops.holds.get 0)
  have read : (FontProgram.readFont blueprint.program blueprint.openingRead 0).outcome =
      .ok (blueprint.font ids? keying) :=
    (Attempt.outcome_bind_lift name).trans <|
      (Attempt.outcome_bind_lift data).trans ((Attempt.outcome_bind_of_ok top).trans loaded)
  refine ⟨⟨⟨1, 0, 4, 4⟩, blueprint.openingRead.names, blueprint.openingRead.strings,
    blueprint.openingRead.globalSubrs, [blueprint.font ids? keying], blueprint.build⟩,
    blueprint.font ids? keying, ?_, ?_⟩
  · refine (Attempt.outcome_bind_lift (Blueprint.read_opening plain)).trans ?_
    refine Eq.trans (Attempt.outcome_bind_of_ok ?_) rfl
    exact (Attempt.outcome_bind_of_ok read).trans rfl
  · exact
      { fonts := rfl
        names := stores.names
        strings := stores.strings
        globalSubrs := stores.globalSubrs
        name := latin1_utf8 plain.ascii
        charstrings :=
          (Blueprint.holds_charstrings blueprint).stores plain.fewCharstrings plain.small
        fontStrings := rfl
        fontSubrs := rfl
        charset := rfl
        keying := keyed
        isCidKeyed := Blueprint.is_cid_keyed_of_keyed keyed }

def keyedByName : Blueprint where
  name := "Two"
  topEntries := []
  strings := [[120, 121]]
  globalSubrs := [[11], []]
  charstrings := [[14], [139, 14]]
  charset? := some (idList [391])
  encoding? := none
  privateData := ⟨[], [[140, 11]]⟩
  cid? := none

def keyedByCids : Blueprint :=
  { keyedByName with cid? := some ⟨[⟨[], [], []⟩, ⟨[], [], [[140, 11], [11]]⟩], [0, 1, 0]⟩ }

theorem plain_keyed_by_name : keyedByName.Plain (some [391]) where
  ascii := by simp [keyedByName]
  topEntries := rfl
  encoding := rfl
  charset := rfl
  ids := by decide
  charstrings := by decide
  fewStrings := by decide
  fewGlobalSubrs := by decide
  fewCharstrings := by decide
  privateData := fun _ => ⟨rfl, by decide⟩
  cid := nofun
  small := by decide +kernel

theorem plain_keyed_by_cids : keyedByCids.Plain (some [391]) :=
  { plain_keyed_by_name with
    fewStrings := by decide
    privateData := nofun
    cid := by
      rintro plan ⟨⟩
      exact
        { nonempty := by decide
          few := by decide
          fontDicts := List.forall_mem_cons.mpr
            ⟨⟨rfl, rfl, by decide⟩, List.forall_mem_singleton.mpr ⟨rfl, rfl, by decide⟩⟩
          select := ⟨[1, 0], rfl, rfl⟩ }
    small := by decide +kernel }

theorem two_glyphs_are_read_back :
    (∃ result font, (FontProgram.read (.whole keyedByName.build)).outcome = .ok result ∧
      keyedByName.Reading (some [391]) result font) ∧
    ∃ result font, (FontProgram.read (.whole keyedByCids.build)).outcome = .ok result ∧
      keyedByCids.Reading (some [391]) result font :=
  ⟨reading_undoes_building keyedByName (some [391]) plain_keyed_by_name,
    reading_undoes_building keyedByCids (some [391]) plain_keyed_by_cids⟩

end CompactFont
