import CompactFont.Report

set_option autoImplicit false

namespace CompactFont.Attempt

variable {ε α β : Type}

theorem except_bind_ok {result : Except ε α} {next : α → Except ε β} {value : β}
    (done : result >>= next = .ok value) :
    ∃ middle, result = .ok middle ∧ next middle = .ok value := by
  cases result with
  | error error => cases done
  | ok middle => exact ⟨middle, rfl, done⟩

theorem except_bind_error {result : Except ε α} {next : α → Except ε β} {error : ε}
    (failed : result >>= next = .error error) :
    result = .error error ∨ ∃ value, result = .ok value ∧ next value = .error error := by
  cases result with
  | error other => exact .inl (congrArg Except.error (Except.error.inj failed))
  | ok value => exact .inr ⟨value, rfl, failed⟩

theorem except_map_ok {result : Except ε α} {f : α → β} {value : β}
    (done : f <$> result = .ok value) : ∃ middle, result = .ok middle ∧ value = f middle := by
  cases result with
  | error error => cases done
  | ok middle => exact ⟨middle, rfl, (Except.ok.inj done).symm⟩

theorem except_map_error_iff {result : Except ε α} {f : α → β} {error : ε} :
    f <$> result = .error error ↔ result = .error error := by
  cases result with
  | error other => exact ⟨fun failed => congrArg _ (Except.error.inj failed), congrArg (f <$> ·)⟩
  | ok value => exact ⟨nofun, nofun⟩

theorem bind_ok {attempt : Attempt ε α} {next : α → Attempt ε β} {value : β}
    (done : outcome (attempt >>= next) = .ok value) :
    ∃ middle, outcome attempt = .ok middle ∧ outcome (next middle) = .ok value := by
  rw [outcome_bind] at done
  exact except_bind_ok done

theorem outcome_bind_of_ok {attempt : Attempt ε α} {next : α → Attempt ε β} {value : α}
    (done : outcome attempt = .ok value) : outcome (attempt >>= next) = outcome (next value) := by
  rw [outcome_bind, done]
  rfl

theorem outcome_bind_lift {result : Except ε α} {next : α → Attempt ε β} {value : α}
    (done : result = .ok value) :
    outcome ((liftM result : Attempt ε α) >>= next) = outcome (next value) :=
  outcome_bind_of_ok done

theorem lift_ok_bind (value : α) (next : α → Attempt ε β) :
    (liftM (Except.ok value : Except ε α) : Attempt ε α) >>= next = next value := rfl

theorem map_m_ok {items : List α} {f : α → Attempt ε β} {values : List β}
    (done : outcome (items.mapM f) = .ok values) :
    values.length = items.length ∧ ∀ (place : Nat) (value : β), values[place]? = some value →
      ∃ item, items[place]? = some item ∧ outcome (f item) = .ok value := by
  induction items generalizing values with
  | nil =>
      obtain rfl := Except.ok.inj done
      exact ⟨rfl, nofun⟩
  | cons item items ih =>
      rw [List.mapM_cons] at done
      obtain ⟨first, made, more⟩ := bind_ok done
      obtain ⟨later, others, last⟩ := bind_ok more
      obtain rfl := Except.ok.inj last
      obtain ⟨length, places⟩ := ih others
      refine ⟨congrArg (· + 1) length, fun place value found => ?_⟩
      cases place with
      | zero =>
          obtain rfl := Option.some.inj found
          exact ⟨item, rfl, made⟩
      | succ place => exact places place value found

theorem bind_congr_of_ok {attempt : Attempt ε α} {value : α} {first second : α → Attempt ε β}
    (done : outcome attempt = .ok value) (same : first value = second value) :
    attempt >>= first = attempt >>= second := by
  have result : attempt.run.value = .ok value := done
  apply ExceptT.ext
  simp only [ExceptT.run_bind]
  simp only [bind, result, same]

theorem bind_pure_of_ok {attempt : Attempt ε α} {value : α} {next : α → Attempt ε α}
    (done : outcome attempt = .ok value) (keeps : next value = pure value) :
    attempt >>= next = attempt :=
  (bind_congr_of_ok done keeps).trans (bind_pure attempt)

theorem notices_bind (attempt : Attempt ε α) (next : α → Attempt ε β) {value : α}
    (done : outcome attempt = .ok value) :
    notices (attempt >>= next) = notices attempt ++ notices (next value) := by
  have result : attempt.run.value = .ok value := done
  simp only [notices, ExceptT.run_bind]
  simp only [bind, result]

theorem ok_of_to_option {result : Except ε α} {value : α} (found : result.toOption = some value) :
    result = .ok value := by
  cases result with
  | error error => cases found
  | ok same => exact congrArg Except.ok (Option.some.inj found)

def Ensures (expected : Notice → Prop) (attempt : Attempt ε α) (property : α → Prop) : Prop :=
  (∀ notice ∈ notices attempt, expected notice) → ∀ value, outcome attempt = .ok value → property value

variable {expected : Notice → Prop} {attempt : Attempt ε α} {property : α → Prop}

theorem ensures_pure {value : α} (has : property value) :
    Ensures expected (pure value : Attempt ε α) property := by
  intro _ value' done
  exact Except.ok.inj done ▸ has

theorem ensures_throw (error : ε) : Ensures expected (throw error : Attempt ε α) property := by
  intro _ value done
  cases done

theorem ensures_bind {next : α → Attempt ε β} {final : β → Prop}
    (head : Ensures expected attempt property)
    (tail : ∀ value, outcome attempt = .ok value → property value →
      Ensures expected (next value) final) :
    Ensures expected (attempt >>= next) final := by
  intro quiet value done
  obtain ⟨middle, first, second⟩ := bind_ok done
  rw [notices_bind attempt next first] at quiet
  have has := head (fun notice member => quiet notice (List.mem_append_left _ member)) middle first
  exact tail middle first has
    (fun notice member => quiet notice (List.mem_append_right _ member)) value second

theorem ensures_mono {weaker : α → Prop} (implies : ∀ value, property value → weaker value)
    (ensures : Ensures expected attempt property) : Ensures expected attempt weaker :=
  fun quiet value done => implies value (ensures quiet value done)

theorem ensures_report {notice : Notice} {value : α}
    (has : (∀ made ∈ [notice], expected made) → property value) :
    Ensures expected (do Report.note notice; pure value : Attempt ε α) property := by
  intro quiet value' done
  exact Except.ok.inj done ▸ has quiet

theorem ensures_map {f : α → β} {final : β → Prop}
    (ensures : Ensures expected attempt fun value => final (f value)) :
    Ensures expected (f <$> attempt) final := by
  rw [map_eq_pure_bind]
  exact ensures_bind ensures fun _ _ has => ensures_pure has

def FailsOnly (expected : ε → Prop) (attempt : Attempt ε α) : Prop :=
  ∀ error, outcome attempt = .error error → expected error

section Failures

variable {expected : ε → Prop}

theorem fails_only_mono {attempt : Attempt ε α} {weaker : ε → Prop}
    (implies : ∀ error, expected error → weaker error) (fails : FailsOnly expected attempt) :
    FailsOnly weaker attempt :=
  fun error failed => implies error (fails error failed)

theorem fails_only_pure (value : α) : FailsOnly expected (pure value : Attempt ε α) := nofun

theorem fails_only_throw {error : ε} (has : expected error) :
    FailsOnly expected (throw error : Attempt ε α) := by
  intro other failed
  cases failed
  exact has

theorem fails_only_lift {result : Except ε α}
    (has : ∀ error, result = .error error → expected error) :
    FailsOnly expected (liftM result : Attempt ε α) := has

theorem fails_only_report (report : Report α) :
    FailsOnly expected (liftM report : Attempt ε α) := nofun

theorem fails_only_bind {attempt : Attempt ε α} {next : α → Attempt ε β}
    (head : FailsOnly expected attempt)
    (tail : ∀ value, outcome attempt = .ok value → FailsOnly expected (next value)) :
    FailsOnly expected (attempt >>= next) := by
  intro error failed
  rw [outcome_bind] at failed
  rcases except_bind_error failed with first | ⟨value, first, last⟩
  · exact head error first
  · exact tail value first error last

theorem fails_only_map {attempt : Attempt ε α} (f : α → β) (fails : FailsOnly expected attempt) :
    FailsOnly expected (f <$> attempt) := by
  rw [map_eq_pure_bind]
  exact fails_only_bind fails fun value _ => fails_only_pure (f value)

theorem fails_only_map_error {φ : Type} {attempt : Attempt ε α} {f : ε → φ} {also : φ → Prop}
    (fails : FailsOnly expected attempt) (implies : ∀ error, expected error → also (f error)) :
    FailsOnly also (mapError f attempt) := by
  intro error failed
  rw [outcome_map_error] at failed
  cases first : outcome attempt with
  | error other =>
      rw [first] at failed
      cases failed
      exact implies other (fails other first)
  | ok value =>
      rw [first] at failed
      cases failed

theorem fails_only_foldl_m {step : β → α → Attempt ε β}
    (fails : ∀ state item, FailsOnly expected (step state item)) (items : List α) (start : β) :
    FailsOnly expected (items.foldlM step start) := by
  induction items generalizing start with
  | nil => exact fails_only_pure start
  | cons item rest ih =>
      rw [List.foldlM_cons]
      exact fails_only_bind (fails start item) fun state _ => ih state

end Failures

end CompactFont.Attempt
