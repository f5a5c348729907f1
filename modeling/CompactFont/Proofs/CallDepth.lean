import CompactFont.Charstring.Lexeme
import CompactFont.Proofs.Outcome
import Mathlib.Logic.Relation

set_option autoImplicit false

namespace CompactFont

variable {O N S : Type}

-- What charstrings are carried out with, in states `S`. It sets no bound on how deep calls are
-- nested.
structure Interpreter (O N S : Type) where
  start : S
  ended : S → Bool
  read : Reader (Lexeme N)
  called? : S → Lexeme N → Option (Bytes × S)
  step : Bytes → S → Lexeme N → Except CharstringError (S × Nat)
  leave : S → S
  tokens : S → List (Token O N)

inductive Event (S : Type) where
  | ended
  | failed (error : CharstringError)
  | passed (next : S) (rest : Bytes)
  | called (body : Bytes) (below : S) (rest : Bytes)

def Event.rest? : Event S → Option Bytes
  | .ended => none
  | .failed _ => none
  | .passed _ rest => some rest
  | .called _ _ rest => some rest

-- A place in a charstring or a subroutine, and what is left of its callers, the innermost first.
structure Execution (S : Type) where
  state : S
  bytes : Bytes
  callers : List Bytes

def Execution.depth (execution : Execution S) : Nat := execution.callers.length

inductive Progress (S : Type) where
  | running (next : Execution S)
  | finished (result : Except CharstringError S)

namespace Interpreter

variable (interpreter : Interpreter O N S)

def event (bytes : Bytes) (state : S) : Event S :=
  if interpreter.ended state ∨ bytes = [] then .ended
  else
    match interpreter.read bytes with
    | .error error => .failed (.read error)
    | .ok (lexeme, rest) =>
        match interpreter.called? state lexeme with
        | some (body, below) => .called body below rest
        | none =>
            match interpreter.step rest state lexeme with
            | .error error => .failed error
            | .ok (next, used) => .passed next (rest.drop used)

def advance (execution : Execution S) : Progress S :=
  match interpreter.event execution.bytes execution.state with
  | .failed error => .finished (.error error)
  | .passed next rest => .running ⟨next, rest, execution.callers⟩
  | .called body below rest => .running ⟨below, body, rest :: execution.callers⟩
  | .ended =>
      match execution.callers with
      | [] => .finished (.ok execution.state)
      | caller :: callers => .running ⟨interpreter.leave execution.state, caller, callers⟩

def first (charstring : Bytes) : Execution S := ⟨interpreter.start, charstring, []⟩

def Steps (before after : Execution S) : Prop := interpreter.advance before = .running after

abbrev Reaches : Execution S → Execution S → Prop := Relation.ReflTransGen interpreter.Steps

def Yields (charstring : Bytes) (result : Except CharstringError (List (Token O N))) : Prop :=
  ∃ last finished, interpreter.Reaches (interpreter.first charstring) last ∧
    interpreter.advance last = .finished finished ∧ result = interpreter.tokens <$> finished

def NestsDeeper (limit : Nat) (charstring : Bytes) : Prop :=
  ∃ reached, interpreter.Reaches (interpreter.first charstring) reached ∧ limit < reached.depth

-- Without a limit, the charstring has this outcome if it stays within the limit, and only if it does
-- not, the outcome is that the limit is reached.
structure Bounded (limit : Nat) (charstring : Bytes)
    (outcome : Except CharstringError (List (Token O N))) : Prop where
  within : ¬ interpreter.NestsDeeper limit charstring →
    ∀ result, interpreter.Yields charstring result ↔ outcome = result
  beyond : interpreter.NestsDeeper limit charstring ↔ outcome = .error .nestingLimit

abbrev ReachesWithin (limit : Nat) : Execution S → Execution S → Prop :=
  Relation.ReflTransGen fun before after => interpreter.Steps before after ∧ after.depth ≤ limit

section Ends

variable {interpreter} {limit : Nat} {first last : Execution S} {result : Except CharstringError S}

theorem steps_unique : Relator.RightUnique interpreter.Steps := by
  intro before first second one other
  rw [Steps, one] at other
  exact Progress.running.inj other

theorem eq_of_reaches {later : Execution S} (finished : interpreter.advance last = .finished result)
    (reaches : interpreter.Reaches last later) : last = later := by
  rcases reaches.cases_head with same | ⟨next, steps, -⟩
  · exact same
  · rw [Steps, finished] at steps
    cases steps

theorem result_unique {otherLast : Execution S} {other : Except CharstringError S}
    (reaches : interpreter.Reaches first last) (finished : interpreter.advance last = .finished result)
    (also : interpreter.Reaches first otherLast)
    (otherFinished : interpreter.advance otherLast = .finished other) : result = other := by
  have same : last = otherLast := by
    rcases reaches.total_of_right_unique steps_unique also with onward | back
    · exact eq_of_reaches finished onward
    · exact (eq_of_reaches otherFinished back).symm
  rw [← same, finished] at otherFinished
  exact Progress.finished.inj otherFinished

theorem reaches_of_within (within : interpreter.ReachesWithin limit first last) :
    interpreter.Reaches first last :=
  Relation.ReflTransGen.mono (fun _ _ => And.left) _ _ within

theorem depth_le_of_within (within : interpreter.ReachesWithin limit first last)
    (finished : interpreter.advance last = .finished result) (shallow : first.depth ≤ limit)
    {reached : Execution S} (reaches : interpreter.Reaches first reached) :
    reached.depth ≤ limit := by
  induction within using Relation.ReflTransGen.head_induction_on with
  | refl => exact eq_of_reaches finished reaches ▸ shallow
  | head step _ ih =>
      rcases reaches.cases_head with same | ⟨next, steps, further⟩
      · exact same ▸ shallow
      · obtain rfl := steps_unique step.1 steps
        exact ih step.2 further

end Ends

structure Lexical : Prop where
  consumes : Reader.Consumes 1 interpreter.read
  limitless : ∀ rest state lexeme, interpreter.called? state lexeme = none →
    interpreter.step rest state lexeme ≠ .error .nestingLimit

section Events

variable {interpreter} (lexical : interpreter.Lexical) {bytes : Bytes} {state : S}

include lexical

theorem length_lt_of_event {rest : Bytes}
    (left : (interpreter.event bytes state).rest? = some rest) : rest.length < bytes.length := by
  unfold event at left
  split at left
  · cases left
  · split at left
    · cases left
    · rename_i lexeme more read
      have shorter := Reader.length_lt_of_consumes lexical.consumes read
      split at left
      · exact Option.some.inj left ▸ shorter
      · split at left
        · cases left
        · rename_i next used stepped
          have dropped : more.drop used = rest := Option.some.inj left
          rw [← dropped, List.length_drop]
          omega

theorem event_ne_nesting_limit : interpreter.event bytes state ≠ .failed .nestingLimit := by
  intro failed
  unfold event at failed
  split at failed
  · cases failed
  · split at failed
    · cases failed
    · rename_i lexeme rest read
      split at failed
      · cases failed
      · rename_i plain
        split at failed
        · rename_i error stepped
          obtain rfl := Event.failed.inj failed
          exact lexical.limitless rest state lexeme plain stepped
        · cases failed

end Events

def proceed (enter onward : Bytes → S → Except CharstringError S) (state : S) :
    Event S → Except CharstringError S
  | .ended => .ok state
  | .failed error => .error error
  | .passed next rest => onward rest next
  | .called body below rest => do
      let after ← enter body below
      onward rest (interpreter.leave after)

structure CarriesOut (enter : Bytes → S → Except CharstringError S)
    (act : Bytes → S → Lexeme N → Except CharstringError (S × Nat))
    (decoder : Bytes → S → Except CharstringError S) : Prop where
  stopped : ∀ bytes state, interpreter.ended state = true ∨ bytes = [] →
    decoder bytes state = .ok state
  unread : ∀ bytes state error, ¬ (interpreter.ended state = true ∨ bytes = []) →
    interpreter.read bytes = .error error → decoder bytes state = .error (.read error)
  lexeme : ∀ bytes state lexeme rest, ¬ (interpreter.ended state = true ∨ bytes = []) →
    interpreter.read bytes = .ok (lexeme, rest) → decoder bytes state = (do
      let (next, used) ← act rest state lexeme
      decoder (rest.drop used) next)
  called : ∀ rest state lexeme body below, interpreter.called? state lexeme = some (body, below) →
    act rest state lexeme = (do
      let after ← enter body below
      pure (interpreter.leave after, 0))
  plain : ∀ rest state lexeme, interpreter.called? state lexeme = none →
    act rest state lexeme = interpreter.step rest state lexeme

def entering (nested : Nat → Bytes → S → Except CharstringError S) :
    Nat → Bytes → S → Except CharstringError S
  | 0 => fun _ _ => .error .nestingLimit
  | nesting + 1 => nested nesting

def Recurs (nested : Nat → Bytes → S → Except CharstringError S) : Prop :=
  ∀ nesting bytes state, nested nesting bytes state =
    interpreter.proceed (entering nested nesting) (nested nesting) state
      (interpreter.event bytes state)

-- How an execution goes on with no more than `limit` calls nested, up to the end of the charstring
-- or the subroutine that it is in.
inductive Traced (interpreter : Interpreter O N S) (limit : Nat) (first : Execution S) :
    Except CharstringError S → Prop
  | ended {after : S} {rest : Bytes}
      (within : interpreter.ReachesWithin limit first ⟨after, rest, first.callers⟩)
      (event : interpreter.event rest after = .ended) : Traced interpreter limit first (.ok after)
  | failed {last : Execution S} {error : CharstringError}
      (within : interpreter.ReachesWithin limit first last)
      (event : interpreter.event last.bytes last.state = .failed error) :
      Traced interpreter limit first (.error error)
  | exceeded {last : Execution S} (reaches : interpreter.Reaches first last)
      (deep : limit < last.depth) : Traced interpreter limit first (.error .nestingLimit)

variable {interpreter}

theorem proceed_of_carries_out {enter decoder : Bytes → S → Except CharstringError S}
    {act : Bytes → S → Lexeme N → Except CharstringError (S × Nat)}
    (carries : interpreter.CarriesOut enter act decoder) (bytes : Bytes) (state : S) :
    decoder bytes state =
      interpreter.proceed enter decoder state (interpreter.event bytes state) := by
  unfold event
  by_cases stopped : interpreter.ended state = true ∨ bytes = []
  · rw [carries.stopped bytes state stopped, if_pos stopped]
    rfl
  · rw [if_neg stopped]
    cases read : interpreter.read bytes with
    | error error =>
        rw [carries.unread bytes state error stopped read]
        rfl
    | ok result =>
        obtain ⟨lexeme, rest⟩ := result
        rw [carries.lexeme bytes state lexeme rest stopped read]
        dsimp only
        cases called : interpreter.called? state lexeme with
        | some entered =>
            obtain ⟨body, below⟩ := entered
            rw [carries.called rest state lexeme body below called, bind_assoc]
            rfl
        | none =>
            rw [carries.plain rest state lexeme called]
            cases interpreter.step rest state lexeme <;> rfl

variable {limit : Nat} {nested : Nat → Bytes → S → Except CharstringError S}

theorem Traced.after {first middle : Execution S} {result : Except CharstringError S}
    (within : interpreter.ReachesWithin limit first middle) (same : first.callers = middle.callers)
    (traced : Traced interpreter limit middle result) : Traced interpreter limit first result := by
  cases traced with
  | ended onward event => exact .ended (within.trans (same ▸ onward)) event
  | failed onward event => exact .failed (within.trans onward) event
  | exceeded reaches deep => exact .exceeded ((reaches_of_within within).trans reaches) deep

theorem traced_call {state below : S} {bytes body rest : Bytes} {callers : List Bytes}
    {result : Except CharstringError S} {onward : S → Except CharstringError S}
    (event : interpreter.event bytes state = .called body below rest)
    (shallow : callers.length < limit)
    (inside : Traced interpreter limit ⟨below, body, rest :: callers⟩ result)
    (outside : ∀ after,
      Traced interpreter limit ⟨interpreter.leave after, rest, callers⟩ (onward after)) :
    Traced interpreter limit ⟨state, bytes, callers⟩ (result >>= onward) := by
  have steps : interpreter.Steps ⟨state, bytes, callers⟩ ⟨below, body, rest :: callers⟩ := by
    rw [Steps, advance, event]
  have enters : interpreter.ReachesWithin limit ⟨state, bytes, callers⟩
      ⟨below, body, rest :: callers⟩ := .single ⟨steps, shallow⟩
  cases inside with
  | failed within event => exact .failed (enters.trans within) event
  | exceeded reaches deep => exact .exceeded (.head steps reaches) deep
  | @ended after left within event =>
      have returns : interpreter.Steps ⟨after, left, rest :: callers⟩
          ⟨interpreter.leave after, rest, callers⟩ := by
        rw [Steps, advance, event]
      exact (outside after).after ((enters.trans within).tail ⟨returns, Nat.le_of_lt shallow⟩) rfl

-- By recursion on how deep calls may still be nested, and then on how many bytes are left.
theorem traced_nested (recurs : interpreter.Recurs nested) (lexical : interpreter.Lexical)
    (nesting : Nat) (bytes : Bytes) (state : S) (callers : List Bytes) :
    Traced interpreter (callers.length + nesting) ⟨state, bytes, callers⟩
      (nested nesting bytes state) := by
  rw [recurs]
  cases event : interpreter.event bytes state with
  | ended => exact .ended .refl event
  | failed error => exact .failed .refl event
  | passed next rest =>
      have shorter := length_lt_of_event lexical (congrArg Event.rest? event)
      have steps : interpreter.Steps ⟨state, bytes, callers⟩ ⟨next, rest, callers⟩ := by
        rw [Steps, advance, event]
      exact (traced_nested recurs lexical nesting rest next callers).after
        (.single ⟨steps, Nat.le_add_right _ _⟩) rfl
  | called body below rest =>
      have shorter := length_lt_of_event lexical (congrArg Event.rest? event)
      match nesting with
      | 0 =>
          have steps : interpreter.Steps ⟨state, bytes, callers⟩ ⟨below, body, rest :: callers⟩ := by
            rw [Steps, advance, event]
          exact .exceeded (.single steps) (Nat.lt_succ_self _)
      | nesting + 1 =>
          have inside := traced_nested recurs lexical nesting body below (rest :: callers)
          have deeper : (rest :: callers).length + nesting = callers.length + (nesting + 1) := by
            rw [List.length_cons]
            omega
          rw [deeper] at inside
          exact traced_call event (by omega) inside
            fun after => traced_nested recurs lexical (nesting + 1) rest _ callers
termination_by (nesting, bytes.length)

theorem bounded_of_within {charstring : Bytes} {last : Execution S}
    {result : Except CharstringError S}
    (within : interpreter.ReachesWithin limit (interpreter.first charstring) last)
    (finished : interpreter.advance last = .finished result) (other : result ≠ .error .nestingLimit) :
    interpreter.Bounded limit charstring (interpreter.tokens <$> result) where
  within _ outcome := by
    have reaches := reaches_of_within within
    constructor
    · rintro ⟨otherLast, otherResult, also, otherFinished, rfl⟩
      rw [result_unique reaches finished also otherFinished]
    · rintro rfl
      exact ⟨last, result, reaches, finished, rfl⟩
  beyond := by
    constructor
    · rintro ⟨reached, reaches, deep⟩
      have shallow := depth_le_of_within within finished (Nat.zero_le _) reaches
      omega
    · intro failed
      exact absurd (Attempt.except_map_error_iff.mp failed) other

theorem bounded_of_recurs (recurs : interpreter.Recurs nested) (lexical : interpreter.Lexical)
    (limit : Nat) (charstring : Bytes) :
    interpreter.Bounded limit charstring
      (interpreter.tokens <$> nested limit charstring interpreter.start) := by
  have traced := traced_nested recurs lexical limit charstring interpreter.start []
  rw [List.length_nil, Nat.zero_add] at traced
  generalize nested limit charstring interpreter.start = result at traced
  cases traced with
  | ended within event =>
      refine bounded_of_within within ?_ nofun
      rw [advance, event]
  | failed within event =>
      refine bounded_of_within within ?_ fun limited => ?_
      · rw [advance, event]
      · obtain rfl := Except.error.inj limited
        exact event_ne_nesting_limit lexical event
  | exceeded reaches deep =>
      have deeper : interpreter.NestsDeeper limit charstring := ⟨_, reaches, deep⟩
      exact ⟨fun within => absurd deeper within, iff_of_true deeper rfl⟩

end Interpreter

end CompactFont
