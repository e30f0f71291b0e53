/-!
# Computations that succeed or fail

What is known when a composed computation succeeds: each of its parts has. When it fails, one part
has, and those before it have succeeded. A run also goes from one world to another, and its second
part starts where the first one ends.
-/

namespace Concordance

variable {ε δ α β : Type}

theorem ok_bind (value : α) (next : α → Except ε β) : (Except.ok value >>= next) = next value := rfl

theorem bind_eq_ok {first : Except ε α} {next : α → Except ε β} {result : β} :
    (first >>= next) = .ok result ↔ ∃ value, first = .ok value ∧ next value = .ok result := by
  cases first with
  | error failure =>
    constructor
    · intro h
      cases h
    · rintro ⟨_, h, _⟩
      cases h
  | ok value =>
    constructor
    · exact fun h => ⟨value, rfl, h⟩
    · rintro ⟨_, h, hnext⟩
      cases h
      exact hnext

theorem map_eq_ok {first : Except ε α} {f : α → β} {result : β} :
    first.map f = .ok result ↔ ∃ value, first = .ok value ∧ f value = result := by
  cases first with
  | error failure =>
    constructor
    · intro h
      cases h
    · rintro ⟨_, h, _⟩
      cases h
  | ok value =>
    constructor
    · intro h
      cases h
      exact ⟨value, rfl, rfl⟩
    · rintro ⟨_, h, rfl⟩
      cases h
      rfl

theorem mapError_eq_ok {first : Except ε α} {f : ε → δ} {result : α} :
    first.mapError f = .ok result ↔ first = .ok result := by
  cases first with
  | error failure =>
    constructor
    · intro h
      cases h
    · intro h
      cases h
  | ok value =>
    constructor
    · intro h
      cases h
      rfl
    · intro h
      cases h
      rfl

/-- A computation that fails under a condition. -/
theorem guard_eq_ok {condition : Prop} [Decidable condition] {failure : ε}
    {next : Unit → Except ε β} {result : β} :
    (if condition then throw failure >>= next else next ()) = .ok result
      ↔ ¬condition ∧ next () = .ok result := by
  by_cases h : condition
  · rw [if_pos h]
    constructor
    · intro hfailed
      cases hfailed
    · exact fun hpassed => absurd h hpassed.1
  · rw [if_neg h]
    exact ⟨fun hpassed => ⟨h, hpassed⟩, fun hpassed => hpassed.2⟩

/-- What every action keeps of the values that are taken, a sequence of actions keeps. -/
theorem foldlM_keeps {action : β → α → Except ε β} (invariant : β → List α → Prop)
    (haction : ∀ {state next : β} {taken : List α} {value : α}, action state value = .ok next →
      invariant state taken → invariant next (taken ++ [value]))
    {state last : β} {taken values : List α} (h : values.foldlM action state = .ok last)
    (hstate : invariant state taken) : invariant last (taken ++ values) := by
  induction values generalizing state taken with
  | nil =>
    cases h
    rw [List.append_nil]
    exact hstate
  | cons value values ih =>
    rw [List.foldlM_cons] at h
    obtain ⟨next, hnext, h⟩ := bind_eq_ok.mp h
    rw [← List.singleton_append, ← List.append_assoc]
    exact ih h (haction hnext hstate)

/-! ## Computations that fail -/

theorem bind_eq_error {first : Except ε α} {next : α → Except ε β} {failure : ε} :
    (first >>= next) = .error failure
      ↔ first = .error failure ∨ ∃ value, first = .ok value ∧ next value = .error failure := by
  cases first with
  | error cause =>
    constructor
    · intro h
      cases h
      exact .inl rfl
    · rintro (h | ⟨_, h, _⟩)
      · cases h
        rfl
      · cases h
  | ok value =>
    constructor
    · exact fun h => .inr ⟨value, rfl, h⟩
    · rintro (h | ⟨_, h, hnext⟩)
      · cases h
      · cases h
        exact hnext

theorem map_eq_error {first : Except ε α} {f : α → β} {failure : ε} :
    first.map f = .error failure ↔ first = .error failure := by
  cases first with
  | error cause =>
    constructor
    · intro h
      cases h
      rfl
    · intro h
      cases h
      rfl
  | ok value =>
    constructor
    · intro h
      cases h
    · intro h
      cases h

theorem mapError_eq_error {first : Except ε α} {f : ε → δ} {failure : δ} :
    first.mapError f = .error failure ↔ ∃ cause, first = .error cause ∧ f cause = failure := by
  cases first with
  | error cause =>
    constructor
    · intro h
      cases h
      exact ⟨cause, rfl, rfl⟩
    · rintro ⟨_, h, rfl⟩
      cases h
      rfl
  | ok value =>
    constructor
    · intro h
      cases h
    · rintro ⟨_, h, _⟩
      cases h

theorem guard_eq_error {condition : Prop} [Decidable condition] {cause failure : ε}
    {next : Unit → Except ε β} :
    (if condition then throw cause >>= next else next ()) = .error failure
      ↔ (condition ∧ cause = failure) ∨ (¬condition ∧ next () = .error failure) := by
  by_cases h : condition
  · rw [if_pos h]
    constructor
    · intro hfailed
      cases hfailed
      exact .inl ⟨h, rfl⟩
    · rintro (⟨-, rfl⟩ | ⟨hpassed, -⟩)
      · rfl
      · exact absurd h hpassed
  · rw [if_neg h]
    constructor
    · exact fun hfailed => .inr ⟨h, hfailed⟩
    · rintro (⟨hcondition, -⟩ | ⟨-, hfailed⟩)
      · exact absurd hcondition h
      · exact hfailed

/-- A sequence of actions fails at one of them, and those before it have succeeded. -/
theorem foldlM_eq_error {action : β → α → Except ε β} {values : List α} {start : β} {failure : ε}
    (h : values.foldlM action start = .error failure) :
    ∃ before value later, values = before ++ value :: later
      ∧ ∃ between, before.foldlM action start = .ok between
        ∧ action between value = .error failure := by
  induction values generalizing start with
  | nil => cases h
  | cons first values ih =>
    rw [List.foldlM_cons] at h
    rcases bind_eq_error.mp h with hfirst | ⟨next, hnext, h⟩
    · exact ⟨[], first, values, rfl, start, rfl, hfirst⟩
    · obtain ⟨before, value, later, rfl, between, hbetween, hvalue⟩ := ih h
      refine ⟨first :: before, value, later, rfl, between, ?_, hvalue⟩
      rw [List.foldlM_cons]
      exact bind_eq_ok.mpr ⟨next, hnext, hbetween⟩

/-! ## Runs that succeed -/

variable {World : Type} {before between after : World} {first : ExceptT ε (StateM World) α}
  {next : α → ExceptT ε (StateM World) β}

/-- When the first part of a run succeeds, the second goes on from there. -/
theorem run_bind {value : α} (hfirst : first.run before = (.ok value, between)) :
    (first >>= next).run before = (next value).run between := by
  rw [ExceptT.run_bind]
  change StateT.bind first.run _ before = _
  unfold StateT.bind
  simp only [hfirst]
  rfl

/-- When it fails, the run does. -/
theorem run_bind_error {failure : ε} (hfirst : first.run before = (.error failure, between)) :
    (first >>= next).run before = (.error failure, between) := by
  rw [ExceptT.run_bind]
  change StateT.bind first.run _ before = _
  unfold StateT.bind
  simp only [hfirst]
  rfl

theorem run_bind_eq_ok {result : β} : (first >>= next).run before = (.ok result, after)
    ↔ ∃ value between, first.run before = (.ok value, between)
      ∧ (next value).run between = (.ok result, after) := by
  constructor
  · intro h
    rcases hfirst : first.run before with ⟨failure | value, between⟩
    · rw [run_bind_error hfirst] at h
      cases h
    · exact ⟨value, between, rfl, run_bind hfirst ▸ h⟩
  · rintro ⟨value, between, hfirst, hnext⟩
    rw [run_bind hfirst, hnext]

/-- An operation that tells its failures in its result does not end the run. -/
theorem run_lift (action : StateM World α) (before : World) :
    (liftM action : ExceptT ε (StateM World) α).run before
      = (.ok (action before).1, (action before).2) := rfl

/-! ## Runs with effects -/

section

variable {m : Type → Type} [Monad m]

theorem run_run_bind (first : ExceptT ε (StateT World m) α)
    (next : α → ExceptT ε (StateT World m) β) (world : World) :
    (first >>= next).run.run world = (do
      match ← first.run.run world with
      | (.ok value, after) => (next value).run.run after
      | (.error failure, after) => pure (.error failure, after)) := by
  rw [ExceptT.run_bind, StateT.run_bind]
  congr 1
  funext ⟨result, after⟩
  cases result with
  | ok value => rfl
  | error failure => rfl

theorem run_run_throw (failure : ε) (world : World) :
    (throw failure : ExceptT ε (StateT World m) α).run.run world = pure (.error failure, world) :=
  rfl

variable [LawfulMonad m]

theorem run_run_get (world : World) :
    (get : ExceptT ε (StateT World m) World).run.run world = pure (.ok world, world) :=
  pure_bind ..

theorem run_run_modify (change : World → World) (world : World) :
    (modify change : ExceptT ε (StateT World m) PUnit).run.run world
      = pure (.ok ⟨⟩, change world) :=
  pure_bind ..

/-- An effect does not touch the world. -/
theorem run_run_liftM (action : m α) (world : World) :
    (liftM action : ExceptT ε (StateT World m) α).run.run world
      = (fun value => (.ok value, world)) <$> action := by
  show ((liftM action : StateT World m α) >>= fun value =>
    pure (Except.ok (ε := ε) value)).run world = _
  simp

end

end Concordance
