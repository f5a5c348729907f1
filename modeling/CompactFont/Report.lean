import CompactFont.Notice

set_option autoImplicit false

namespace CompactFont

structure Report (α : Type) where
  value : α
  notices : List Notice

namespace Report

variable {α β σ : Type}

instance : Monad Report where
  pure value := ⟨value, []⟩
  bind report next :=
    let last := next report.value
    ⟨last.value, report.notices ++ last.notices⟩

instance : LawfulMonad Report := LawfulMonad.mk' Report
  (by intro α report; simp [Functor.map])
  (by intro α β value next; simp [bind, pure])
  (by intro α β γ report next last; simp [bind, List.append_assoc])

def note (notice : Notice) : Report Unit := ⟨(), [notice]⟩

@[simp] theorem value_pure (value : α) : (pure value : Report α).value = value := rfl

@[simp] theorem value_bind (report : Report α) (next : α → Report β) :
    (report >>= next).value = (next report.value).value := rfl

@[simp] theorem value_map (f : α → β) (report : Report α) :
    (f <$> report).value = f report.value := rfl

@[simp] theorem value_note (notice : Notice) : (note notice).value = () := rfl

theorem bind_congr_of_value {report : Report α} {first second : α → Report β}
    (same : first report.value = second report.value) : report >>= first = report >>= second := by
  simp only [bind, same]

end Report

-- Steps that can fail. The notices made before a failure are kept.
abbrev Attempt (ε : Type) := ExceptT ε Report

namespace Attempt

variable {ε α β : Type}

instance : MonadLift (Except ε) (Attempt ε) where
  monadLift result := ExceptT.mk (pure result)

def outcome (attempt : Attempt ε α) : Except ε α := attempt.run.value

def notices (attempt : Attempt ε α) : List Notice := attempt.run.notices

def mapError {φ : Type} (f : ε → φ) (attempt : Attempt ε α) : Attempt φ α :=
  ExceptT.mk (attempt.run >>= fun result => pure (result.mapError f))

@[simp] theorem outcome_pure (value : α) : outcome (pure value : Attempt ε α) = .ok value := rfl

@[simp] theorem outcome_throw (error : ε) :
    outcome (throw error : Attempt ε α) = .error error := rfl

@[simp] theorem outcome_lift (result : Except ε α) :
    outcome (liftM result : Attempt ε α) = result := rfl

@[simp] theorem outcome_report (report : Report α) :
    outcome (liftM report : Attempt ε α) = .ok report.value := rfl

@[simp] theorem outcome_bind (attempt : Attempt ε α) (next : α → Attempt ε β) :
    outcome (attempt >>= next) = outcome attempt >>= fun value => outcome (next value) := by
  simp only [outcome, ExceptT.run_bind, Report.value_bind]
  cases attempt.run.value <;> rfl

@[simp] theorem outcome_map (f : α → β) (attempt : Attempt ε α) :
    outcome (f <$> attempt) = f <$> outcome attempt := by
  simp only [outcome, ExceptT.run_map, Report.value_map]
  cases attempt.run.value <;> rfl

@[simp] theorem outcome_map_error {φ : Type} (f : ε → φ) (attempt : Attempt ε α) :
    outcome (mapError f attempt) = (outcome attempt).mapError f := rfl

end Attempt

end CompactFont
