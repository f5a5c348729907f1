import CompactFont.Window

set_option autoImplicit false

namespace CompactFont

-- Steps that change a state and can fail. What was changed before they failed stays changed.
abbrev Steps (σ : Type) := ExceptT ReadError (StateM σ)

namespace Steps

variable {σ α β : Type}

def perform (steps : Steps σ α) (state : σ) : Except ReadError α × σ := steps.run.run state

@[simp] theorem perform_pure (value : α) (state : σ) :
    perform (pure value) state = (.ok value, state) := rfl

@[simp] theorem perform_throw (error : ReadError) (state : σ) :
    perform (throw error : Steps σ α) state = (.error error, state) := rfl

@[simp] theorem perform_lift_except (result : Except ReadError α) (state : σ) :
    perform (liftExcept result : Steps σ α) state = (result, state) := by
  cases result <;> rfl

theorem perform_bind_ok {steps : Steps σ α} {state next : σ} {value : α}
    (done : steps.perform state = (.ok value, next)) (more : α → Steps σ β) :
    perform (steps >>= more) state = (more value).perform next := by
  have run : StateT.run (ExceptT.run steps) state = (.ok value, next) := done
  simp only [perform, ExceptT.run_bind, StateT.run_bind, run]
  rfl

theorem perform_bind_error {steps : Steps σ α} {state next : σ} {error : ReadError}
    (failed : steps.perform state = (.error error, next)) (more : α → Steps σ β) :
    perform (steps >>= more) state = (.error error, next) := by
  have run : StateT.run (ExceptT.run steps) state = (.error error, next) := failed
  simp only [perform, ExceptT.run_bind, StateT.run_bind, run]
  rfl

@[simp] theorem perform_get_bind (more : σ → Steps σ β) (state : σ) :
    perform (get >>= more) state = (more state).perform state := rfl

@[simp] theorem perform_map (f : α → β) (steps : Steps σ α) (state : σ) :
    perform (f <$> steps) state = ((steps.perform state).1.map f, (steps.perform state).2) := by
  simp only [perform, ExceptT.run_map, StateT.run_map]
  rfl

end Steps

structure Cursor where
  window : Window
  position : Nat
deriving DecidableEq, Repr

namespace Cursor

variable {α : Type}

def ofWindow (window : Window) : Cursor := ⟨window, 0⟩

def ahead (cursor : Cursor) : Bytes := cursor.window.data.drop cursor.position

def here (cursor : Cursor) : Window := cursor.window.startingAt cursor.position

def seek (cursor : Cursor) (position : Nat) : Cursor := { cursor with position }

def hasMore (cursor : Cursor) : Bool := cursor.position < cursor.window.data.length

def peek (cursor : Cursor) (offset : Nat) : Except ReadError Nat :=
  match cursor.window.data[cursor.position + offset]? with
  | some byte => .ok byte.toNat
  | none => .error .endOfData

def require (length : Nat) : Steps Cursor Unit := do
  let cursor ← get
  if cursor.position + length ≤ cursor.window.data.length then pure () else throw .endOfData

def advance (length : Nat) : Steps Cursor Bytes := do
  let cursor ← get
  set (cursor.seek (cursor.position + length))
  pure (cursor.ahead.take length)

def decode (field : Field α) : Steps Cursor α := field.decode <$> advance field.size

def takeValue (field : Field α) : Steps Cursor α := do
  require field.size
  decode field

def takeWindow (length : Nat) : Steps Cursor Window := do
  let cursor ← get
  match cursor.window.part cursor.position length with
  | .ok piece =>
      set (cursor.seek (cursor.position + length))
      pure piece
  | .error _ => throw .endOfData

def takeBytes (length : Nat) : Steps Cursor Bytes := Window.data <$> takeWindow length

def hasNibble (nibble : Nat) (byte : UInt8) : Bool :=
  byte.toNat / 16 == nibble || byte.toNat % 16 == nibble

def takeThroughNibble (nibble : Nat) : Steps Cursor Bytes := do
  let cursor ← get
  if cursor.window.data.length < cursor.position then throw .endOfData
  else
    match cursor.ahead.findIdx? (hasNibble nibble) with
    | some place => takeBytes (place + 1)
    | none => throw .endOfData

def read (cursor : Cursor) (reader : Reader α) : Except ReadError (α × Cursor) := do
  let (value, rest) ← reader cursor.ahead
  pure (value, cursor.seek (cursor.position + (cursor.ahead.length - rest.length)))

section Steps

variable {length : Nat} {cursor : Cursor}

theorem length_ahead (cursor : Cursor) :
    cursor.ahead.length = cursor.window.data.length - cursor.position := List.length_drop

theorem ahead_seek (cursor : Cursor) (length : Nat) :
    (cursor.seek (cursor.position + length)).ahead = cursor.ahead.drop length := List.drop_drop.symm

theorem perform_decode (field : Field α) (cursor : Cursor) :
    (decode field).perform cursor =
      (.ok (field.decode (cursor.ahead.take field.size)),
        cursor.seek (cursor.position + field.size)) := rfl

theorem perform_take_value_of_le {field : Field α}
    (enough : cursor.position + field.size ≤ cursor.window.data.length) :
    (takeValue field).perform cursor =
      (.ok (field.decode (cursor.ahead.take field.size)),
        cursor.seek (cursor.position + field.size)) := by
  have there : (require field.size).perform cursor = (.ok (), cursor) := by
    rw [require, Steps.perform_get_bind, if_pos enough, Steps.perform_pure]
  rw [takeValue, Steps.perform_bind_ok there]
  rfl

theorem perform_take_value_of_lt {field : Field α}
    (short : cursor.window.data.length < cursor.position + field.size) :
    (takeValue field).perform cursor = (.error .endOfData, cursor) := by
  have missing : (require field.size).perform cursor = (.error .endOfData, cursor) := by
    rw [require, Steps.perform_get_bind, if_neg (Nat.not_le.mpr short), Steps.perform_throw]
  rw [takeValue, Steps.perform_bind_error missing]

theorem perform_take_window_of_le
    (enough : length = 0 ∨ cursor.position + length ≤ cursor.window.data.length) :
    (takeWindow length).perform cursor =
      (.ok ⟨cursor.window.base + cursor.position, cursor.ahead.take length⟩,
        cursor.seek (cursor.position + length)) := by
  rw [takeWindow, Steps.perform_get_bind, Window.part_of_le enough]
  rfl

theorem perform_take_window_of_lt (some : length ≠ 0)
    (short : cursor.window.data.length < cursor.position + length) :
    (takeWindow length).perform cursor = (.error .endOfData, cursor) := by
  obtain ⟨error, failed⟩ := Window.part_of_lt some short
  rw [takeWindow, Steps.perform_get_bind, failed]
  rfl

end Steps

end Cursor

end CompactFont
