import CompactFont.Proofs.LexemeSpelling
import CompactFont.Proofs.MaskLength
import CompactFont.Proofs.Type1Run

set_option autoImplicit false

namespace CompactFont

open Reader

namespace Type1

inductive SpeltBy : Token Type1Op Int → Bytes → Prop where
  | short {value : Int} (low : -1131 ≤ value) (high : value ≤ 1131) :
      SpeltBy (.number value) (Integer.short value)
  | long {value : Int} (low : -2147483648 ≤ value) (high : value ≤ 2147483647) :
      SpeltBy (.number value) (255 :: twosComplement 4 value)
  | operator (op : Type1Op) : SpeltBy (.operator op) op.key.bytes

theorem reads_of_spelt {value : Int} {bytes : Bytes} (spelt : SpeltBy (.number value) bytes) :
    Reads Lexeme.readType1 bytes (.number value) := by
  cases spelt with
  | short low high => exact Lexeme.reads_type1_short low high
  | long low high => exact Lexeme.reads_type1_long low high

def encodeToken : Token Type1Op Int → Bytes
  | .number value =>
      if -1131 ≤ value ∧ value ≤ 1131 then Integer.short value else 255 :: twosComplement 4 value
  | .operator op => op.key.bytes
  | .mask _ => []

structure Regular (tokens : List (Token Type1Op Int)) : Prop where
  numbers : ∀ value, .number value ∈ tokens → -2147483648 ≤ value ∧ value ≤ 2147483647
  few : FewTogether tokens
  noCalls : .operator .callsubr ∉ tokens ∧ .operator .callothersubr ∉ tokens
  noMasks : ∀ bytes, .mask bytes ∉ tokens

theorem encodes_small {tokens : List (Token Type1Op Int)}
    (small : ∀ value, .number value ∈ tokens → -2147483648 ≤ value ∧ value ≤ 2147483647)
    (noMasks : ∀ bytes, .mask bytes ∉ tokens) :
    Encodes SpeltBy tokens (tokens.flatMap encodeToken) := by
  apply encodes_flat_map
  intro token member
  cases token with
  | number value =>
      obtain ⟨low, high⟩ := small value member
      by_cases near : -1131 ≤ value ∧ value ≤ 1131
      · rw [encodeToken, if_pos near]
        exact .short near.1 near.2
      · rw [encodeToken, if_neg near]
        exact .long low high
  | operator op => exact .operator op
  | mask bytes => exact absurd member (noMasks bytes)

theorem small_of_encodes {tokens : List (Token Type1Op Int)} {bytes : Bytes}
    (written : Encodes SpeltBy tokens bytes) {value : Int} (member : .number value ∈ tokens) :
    -2147483648 ≤ value ∧ value ≤ 2147483647 := by
  obtain ⟨pieces, spells, -⟩ := written
  induction spells with
  | nil => cases member
  | cons first _ ih =>
      rcases List.mem_cons.mp member with rfl | later
      · cases first with
        | short low high => omega
        | long low high => exact ⟨low, high⟩
      · exact ih later

theorem encodes_operators_iff {op : Type1Op} {count : Nat} {bytes : Bytes} :
    Encodes SpeltBy (List.replicate count (.operator op)) bytes ↔
      bytes = (List.replicate count op.key.bytes).flatten := by
  constructor
  · rintro ⟨pieces, spells, rfl⟩
    induction count generalizing pieces with
    | zero =>
        cases spells
        rfl
    | succ count ih =>
        cases spells with
        | cons first others =>
            cases first
            rw [List.flatten_cons, List.replicate_succ, List.flatten_cons, ih _ others]
  · rintro rfl
    refine ⟨_, ?_, rfl⟩
    induction count with
    | zero => exact .nil
    | succ count ih => exact .cons (.operator op) ih

theorem encodes_encode {tokens : List (Token Type1Op Int)} (regular : Regular tokens) :
    Encodes SpeltBy tokens (tokens.flatMap encodeToken) :=
  encodes_small regular.numbers regular.noMasks

section Run

variable (call : Stack → Decoding Stack)

theorem run_number {bytes : Bytes} {value : Int} {stack : Stack}
    (read : Reads Lexeme.readType1 bytes (.number value))
    (pushed : Token.push value stack = .ok (.number value :: stack)) (tail : Bytes) :
    run call (bytes ++ tail) stack = run call tail (.number value :: stack) := by
  rw [run_lexeme call stack (read tail), step, pushed]
  rfl

theorem run_operator {op : Type1Op} (plain : op ≠ .callsubr ∧ op ≠ .callothersubr) (stack : Stack)
    (tail : Bytes) :
    run call (op.key.bytes ++ tail) stack = run call tail (.operator op :: stack) := by
  have stepped : step call tail stack (.command op.key) = pure (.operator op :: stack, 0) := by
    simp only [step, Type1Op.of_key_key]
    cases op with
    | callsubr => exact absurd rfl plain.1
    | callothersubr => exact absurd rfl plain.2
    | _ => rfl
  rw [run_lexeme call stack (Lexeme.reads_type1_key op.plain_key tail), stepped, pure_bind]
  rfl

-- By induction on what is still to be read, `before` being what has been read.
theorem run_encoded {before tokens : List (Token Type1Op Int)} {pieces : List Bytes}
    (regular : Regular (before ++ tokens)) (spelt : List.Forall₂ SpeltBy tokens pieces) :
    run call pieces.flatten before.reverse = pure (before ++ tokens).reverse := by
  induction spelt generalizing before with
  | nil =>
      rw [List.flatten_nil, run, if_pos rfl, List.append_nil]
  | @cons token piece tokens pieces first _ ih =>
      have extended : Regular ((before ++ [token]) ++ tokens) := by simpa using regular
      have later := ih extended
      have member : token ∈ before ++ token :: tokens := by simp
      rw [List.append_assoc, List.singleton_append, List.reverse_append, List.reverse_singleton,
        List.singleton_append] at later
      rw [List.flatten_cons]
      cases first with
      | short low high =>
          rw [run_number call (Lexeme.reads_type1_short low high) (push_of_few_together regular.few),
            later]
      | long low high =>
          rw [run_number call (Lexeme.reads_type1_long low high) (push_of_few_together regular.few),
            later]
      | operator op =>
          have plain : op ≠ .callsubr ∧ op ≠ .callothersubr :=
            ⟨fun same => regular.noCalls.1 (same ▸ member),
              fun same => regular.noCalls.2 (same ▸ member)⟩
          rw [run_operator call plain, later]

end Run

theorem decode_encoded {tokens : List (Token Type1Op Int)} (regular : Regular tokens) {bytes : Bytes}
    (encodes : Encodes SpeltBy tokens bytes) (subrs : Option Index) :
    decode subrs bytes = pure tokens := by
  obtain ⟨pieces, spelt, rfl⟩ := encodes
  have whole : Regular ([] ++ tokens) := regular
  have ran := run_encoded (call subrs (decodeNested subrs 9)) whole spelt
  rw [List.nil_append, List.reverse_nil] at ran
  rw [decode, maxNesting, decodeNested, ran, map_pure, List.reverse_reverse]

end Type1

namespace Type2

inductive SpeltBy : Token Type2Op Number → Bytes → Prop where
  | short {value : Int} (low : -1131 ≤ value) (high : value ≤ 1131) :
      SpeltBy (.number (.integer value)) (Integer.short value)
  | word {value : Int} (low : -32768 ≤ value) (high : value ≤ 32767) :
      SpeltBy (.number (.integer value)) (28 :: twosComplement 2 value)
  | operator (op : Type2Op) : SpeltBy (.operator op) op.key.bytes
  | mask (bytes : Bytes) : SpeltBy (.mask bytes) bytes

def encodeToken : Token Type2Op Number → Bytes
  | .number (.integer value) =>
      if -1131 ≤ value ∧ value ≤ 1131 then Integer.short value else 28 :: twosComplement 2 value
  | .number (.fixed whole fraction) => 255 :: (twosComplement 2 whole ++ toBigEndian 2 fraction)
  | .operator op => op.key.bytes
  | .mask bytes => bytes

def stemsOf (tokens : List (Token Type2Op Number)) : Nat := declared tokens.reverse

structure Regular (tokens : List (Token Type2Op Number)) : Prop where
  numbers : ∀ number, .number number ∈ tokens →
    ∃ value : Int, number = .integer value ∧ -32768 ≤ value ∧ value ≤ 32767
  few : FewTogether tokens
  masked : ∀ before op after, tokens = before ++ .operator op :: after → op.takesMask = true →
    ∃ mask rest, after = .mask mask :: rest ∧
      mask.length = (stemsOf (before ++ [.operator op]) + 7) / 8
  masks : ∀ before mask after, tokens = before ++ .mask mask :: after →
    ∃ earlier op, before = earlier ++ [.operator op] ∧ op.takesMask = true
  ended : ∀ before after, tokens = before ++ .operator .endchar :: after → after = []

theorem encodes_encode {tokens : List (Token Type2Op Number)} (regular : Regular tokens) :
    Encodes SpeltBy tokens (tokens.flatMap encodeToken) := by
  apply encodes_flat_map
  intro token member
  cases token with
  | number number =>
      obtain ⟨value, rfl, low, high⟩ := regular.numbers number member
      by_cases near : -1131 ≤ value ∧ value ≤ 1131
      · rw [encodeToken, if_pos near]
        exact .short near.1 near.2
      · rw [encodeToken, if_neg near]
        exact .word low high
  | operator op => exact .operator op
  | mask bytes => exact .mask bytes

def stateAfter (tokens : List (Token Type2Op Number)) : State :=
  ⟨tokens.reverse, stemsOf tokens, tokens.getLast? = some (.operator .endchar)⟩

theorem stems_of_number (before : List (Token Type2Op Number)) (value : Number) :
    stemsOf (before ++ [.number value]) = stemsOf before := by
  simp [stemsOf, declared]

theorem stems_of_mask (before : List (Token Type2Op Number)) (mask : Bytes) :
    stemsOf (before ++ [.mask mask]) = stemsOf before := by
  simp [stemsOf, declared]

theorem stems_of_operator (before : List (Token Type2Op Number)) (op : Type2Op) :
    stemsOf (before ++ [.operator op]) =
      declaredBy op (Token.pending before.reverse) + stemsOf before := by
  simp [stemsOf, declared]

section Run

variable (call : Index → State → Decoding State)

def withoutSubroutines : Subroutines := ⟨.empty, none⟩

theorem run_number {bytes : Bytes} {value : Number} {before after : List (Token Type2Op Number)}
    (read : Reads Lexeme.readType2 bytes (.number value))
    (few : FewTogether (before ++ .number value :: after))
    (running : (stateAfter before).ended = false) (tail : Bytes) :
    run call withoutSubroutines (bytes ++ tail) (stateAfter before) =
      run call withoutSubroutines tail (stateAfter (before ++ [.number value])) := by
  have pushed := push_of_few_together few
  have next : stateAfter (before ++ [.number value]) =
      { stateAfter before with tokens := .number value :: before.reverse } := by
    simp [stateAfter, stems_of_number] at running ⊢
    exact running
  rw [run_lexeme call withoutSubroutines running (read tail), next]
  simp only [step, stateAfter, pushed]
  rfl

theorem operate_unmasked {op : Type2Op} (plain : op.takesMask = false) (bytes : Bytes)
    (before : List (Token Type2Op Number)) (running : (stateAfter before).ended = false) :
    operate call withoutSubroutines bytes (stateAfter before) op =
      pure (stateAfter (before ++ [.operator op]), 0) := by
  have next : stateAfter (before ++ [.operator op]) =
      ⟨.operator op :: before.reverse, stemsOf before + declaredBy op (Token.pending before.reverse),
        decide (op = .endchar)⟩ := by
    simp [stateAfter, stems_of_operator, Nat.add_comm]
  simp only [stateAfter] at running
  rw [next, stateAfter, running]
  cases op <;> first | rfl | cases plain

theorem run_unmasked {op : Type2Op} (plain : op.takesMask = false)
    {before : List (Token Type2Op Number)} (running : (stateAfter before).ended = false)
    (tail : Bytes) :
    run call withoutSubroutines (op.key.bytes ++ tail) (stateAfter before) =
      run call withoutSubroutines tail (stateAfter (before ++ [.operator op])) := by
  have stepped : step call withoutSubroutines tail (stateAfter before) (.command op.key) =
      pure (stateAfter (before ++ [.operator op]), 0) := by
    simp only [step, Type2Op.of_key_key]
    exact operate_unmasked call plain tail before running
  rw [run_lexeme call withoutSubroutines running (Lexeme.reads_type2_key op.plain_key tail), stepped,
    pure_bind]
  rfl

theorem operate_masked {op : Type2Op} (takes : op.takesMask = true) {mask : Bytes}
    {before : List (Token Type2Op Number)}
    (length : mask.length = (stemsOf (before ++ [.operator op]) + 7) / 8) (tail : Bytes)
    (running : (stateAfter before).ended = false) :
    operate call withoutSubroutines (mask ++ tail) (stateAfter before) op =
      pure (stateAfter (before ++ [.operator op, .mask mask]), mask.length) := by
  have declares : declaredBy op (Token.pending before.reverse) = Token.pending before.reverse / 2 := by
    rw [declaredBy, if_pos (Or.inr takes)]
  have stems : (stateAfter before).declareStems.stems = stemsOf (before ++ [.operator op]) := by
    rw [stems_of_operator, declares, Nat.add_comm]
    rfl
  have taken : Reader.take (stateAfter before).declareStems.maskLength (mask ++ tail) =
      .ok (mask, tail) := by
    rw [State.maskLength, stems, ← length]
    exact take_append mask tail
  have next : stateAfter (before ++ [.operator op, .mask mask]) =
      ⟨.mask mask :: .operator op :: before.reverse, stemsOf (before ++ [.operator op]), false⟩ := by
    have append : before ++ [.operator op, .mask mask] = (before ++ [.operator op]) ++ [.mask mask] :=
      (List.append_assoc before [.operator op] [.mask mask]).symm
    have kept : stemsOf (before ++ [.operator op, .mask mask]) = stemsOf (before ++ [.operator op]) := by
      rw [append, stems_of_mask]
    simp [stateAfter, kept]
  have masking : addMask (mask ++ tail) op (stateAfter before) =
      pure (stateAfter (before ++ [.operator op, .mask mask]), mask.length) := by
    simp only [stateAfter] at running
    simp only [addMask, taken, next, ← stems]
    rw [stateAfter, running]
    rfl
  cases op with
  | hintmask => exact masking
  | cntrmask => exact masking
  | _ => cases takes

theorem run_masked {op : Type2Op} (takes : op.takesMask = true) {mask : Bytes}
    {before : List (Token Type2Op Number)}
    (length : mask.length = (stemsOf (before ++ [.operator op]) + 7) / 8)
    (running : (stateAfter before).ended = false) (tail : Bytes) :
    run call withoutSubroutines (op.key.bytes ++ (mask ++ tail)) (stateAfter before) =
      run call withoutSubroutines tail (stateAfter (before ++ [.operator op, .mask mask])) := by
  have stepped : step call withoutSubroutines (mask ++ tail) (stateAfter before) (.command op.key) =
      pure (stateAfter (before ++ [.operator op, .mask mask]), mask.length) := by
    simp only [step, Type2Op.of_key_key]
    exact operate_masked call takes length tail running
  rw [run_lexeme call withoutSubroutines running
    (Lexeme.reads_type2_key op.plain_key (mask ++ tail)), stepped, pure_bind]
  dsimp only
  rw [List.drop_left]

theorem running_of_regular {before after : List (Token Type2Op Number)}
    (regular : Regular (before ++ after)) (more : after ≠ []) : (stateAfter before).ended = false := by
  apply decide_eq_false
  intro last
  obtain ⟨earlier, rfl⟩ := List.getLast?_eq_some_iff.mp last
  exact more (regular.ended earlier after (by simp))

-- By induction on how much is still to be read, as a mask is read with its operator. So `before`,
-- which has been read, never ends between the two.
theorem run_encoded {before tokens : List (Token Type2Op Number)} {pieces : List Bytes}
    (regular : Regular (before ++ tokens))
    (aligned : ∀ op, before.getLast? = some (.operator op) → op.takesMask = false)
    (spelt : List.Forall₂ SpeltBy tokens pieces) :
    run call withoutSubroutines pieces.flatten (stateAfter before) =
      pure (stateAfter (before ++ tokens)) := by
  induction count : tokens.length using Nat.strongRecOn
    generalizing before tokens pieces with
  | ind count ih =>
      subst count
      cases spelt with
      | nil => rw [List.flatten_nil, run_nil, List.append_nil]
      | @cons token piece rest pieces first others =>
          have running := running_of_regular regular (List.cons_ne_nil token rest)
          have extended : Regular ((before ++ [token]) ++ rest) := by simpa using regular
          have later (aligned' : ∀ op, (before ++ [token]).getLast? = some (.operator op) →
              op.takesMask = false) := ih rest.length (Nat.lt_succ_self _) extended aligned' others rfl
          rw [List.append_assoc, List.singleton_append] at later
          rw [List.flatten_cons]
          cases first with
          | short low high =>
              rw [run_number call (Lexeme.reads_type2_short low high) regular.few running,
                later (by simp)]
          | word low high =>
              rw [run_number call (Lexeme.reads_type2_word low high) regular.few running,
                later (by simp)]
          | mask =>
              obtain ⟨earlier, op, rfl, takes⟩ := regular.masks before _ rest rfl
              have plain := aligned op (by simp)
              rw [takes] at plain
              cases plain
          | operator op =>
              by_cases takes : op.takesMask = true
              · obtain ⟨mask, rest, rfl, length⟩ := regular.masked before op rest rfl takes
                cases others with
                | @cons _ _ _ pieces second others =>
                  cases second with
                  | mask =>
                    have whole : Regular ((before ++ [.operator op, .mask mask]) ++ rest) := by
                      simpa using regular
                    have shorter : rest.length < (.operator op :: .mask mask :: rest).length := by
                      rw [List.length_cons, List.length_cons]
                      omega
                    have onward := ih rest.length shorter whole (by simp) others rfl
                    rw [List.flatten_cons, run_masked call takes length running, onward]
                    simp
              · have plain : op.takesMask = false := by simpa using takes
                rw [run_unmasked call plain running, later (by simpa using plain)]

end Run

theorem decode_encoded {tokens : List (Token Type2Op Number)} (regular : Regular tokens)
    {bytes : Bytes} (encodes : Encodes SpeltBy tokens bytes) :
    decode withoutSubroutines bytes = pure tokens := by
  obtain ⟨pieces, spelt, rfl⟩ := encodes
  have whole : Regular ([] ++ tokens) := regular
  have ran := run_encoded (Type2.call (decodeNested withoutSubroutines 9)) whole
    (fun op last => by cases last) spelt
  have start : State.start = stateAfter [] := rfl
  rw [decode, maxNesting, decodeNested, start, ran, map_pure]
  simp [stateAfter]

def hinted : List (Token Type2Op Number) :=
  [.number (.integer 300), .number (.integer (-5)), .operator .hstem, .number (.integer 2000),
    .number (.integer 1), .operator .hintmask, .mask [192], .operator .endchar]

theorem regular_hinted : Regular hinted where
  numbers := by simp [hinted]
  few := few_together_of_length (by decide)
  masked before op after split takes := by
    rcases before with _ | ⟨_, _ | ⟨_, _ | ⟨_, _ | ⟨_, _ | ⟨_, _ | ⟨_, _ | ⟨_, _ | ⟨_, _⟩⟩⟩⟩⟩⟩⟩⟩ <;>
      simp [hinted] at split
    · obtain ⟨-, -, rfl, -⟩ := split
      cases takes
    · obtain ⟨rfl, rfl, rfl, rfl, rfl, rfl, rfl⟩ := split
      exact ⟨[192], _, rfl, by decide⟩
    · obtain ⟨-, -, -, -, -, -, -, rfl, -⟩ := split
      cases takes
  masks before mask after split := by
    rcases before with _ | ⟨_, _ | ⟨_, _ | ⟨_, _ | ⟨_, _ | ⟨_, _ | ⟨_, _ | ⟨_, _ | ⟨_, _⟩⟩⟩⟩⟩⟩⟩⟩ <;>
      simp [hinted] at split
    obtain ⟨rfl, rfl, rfl, rfl, rfl, rfl, -⟩ := split
    exact ⟨hinted.take 5, .hintmask, rfl, rfl⟩
  ended before after split := by
    rcases before with _ | ⟨_, _ | ⟨_, _ | ⟨_, _ | ⟨_, _ | ⟨_, _ | ⟨_, _ | ⟨_, _ | ⟨_, _⟩⟩⟩⟩⟩⟩⟩⟩ <;>
      simp [hinted] at split
    exact split.2.2.2.2.2.2.2

end Type2

theorem decoding_undoes_encoding :
    (∀ tokens, Type2.Regular tokens →
      Encodes Type2.SpeltBy tokens (tokens.flatMap Type2.encodeToken) ∧
        ∀ bytes, Encodes Type2.SpeltBy tokens bytes →
          Type2.decode Type2.withoutSubroutines bytes = pure tokens) ∧
    (∀ tokens, Type1.Regular tokens →
      Encodes Type1.SpeltBy tokens (tokens.flatMap Type1.encodeToken) ∧
        ∀ bytes, Encodes Type1.SpeltBy tokens bytes →
          ∀ subrs, Type1.decode subrs bytes = pure tokens) :=
  ⟨fun _ regular => ⟨Type2.encodes_encode regular, fun _ => Type2.decode_encoded regular⟩,
    fun _ regular => ⟨Type1.encodes_encode regular, fun _ => Type1.decode_encoded regular⟩⟩

theorem hinted_charstrings_decode :
    Type2.decode Type2.withoutSubroutines
        [247, 192, 134, 1, 28, 7, 208, 140, 19, 192, 14] = pure Type2.hinted ∧
      Type1.decode (some .empty) [255, 255, 254, 238, 144, 248, 136, 13, 14] =
        pure [.number (-70000), .number 500, .operator .hsbw, .operator .endchar] := by
  have read2 := decoding_undoes_encoding.1 Type2.hinted Type2.regular_hinted
  have read1 := decoding_undoes_encoding.2
    [.number (-70000), .number 500, .operator .hsbw, .operator .endchar]
    { numbers := by simp, few := few_together_of_length (by decide), noCalls := by decide,
      noMasks := by simp }
  exact ⟨read2.2 _ read2.1, read1.2 _ read1.1 _⟩

end CompactFont
