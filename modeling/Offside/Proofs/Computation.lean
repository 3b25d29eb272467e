/-!
# Computations that may fail

Each stage is a computation on a state that gives a value or fails. What a sequence of two
computations does is told by what the first one does.
-/

namespace Offside.Computing

variable {ε σ α β : Type}

section

variable {action : EStateM ε σ α} {next : α → EStateM ε σ β} {state middle : σ}

theorem bind_of_ok {value : α} (done : action state = .ok value middle) :
    (action >>= next) state = next value middle := by
  simp [bind, EStateM.bind, done]

theorem bind_of_error {fault : ε} (failed : action state = .error fault middle) :
    (action >>= next) state = .error fault middle := by
  simp [bind, EStateM.bind, failed]

theorem adaptExcept_of_ok {ε' : Type} {change : ε → ε'} {value : α}
    (done : action state = .ok value middle) :
    EStateM.adaptExcept change action state = .ok value middle := by
  simp [EStateM.adaptExcept, done]

theorem get_bind_eq {next : σ → EStateM ε σ β} : (get >>= next) state = next state state := rfl

theorem modifyGet_bind_eq {change : σ → α × σ} :
    (modifyGet change >>= next) state = next (change state).1 (change state).2 :=
  rfl

end

/-- What a computation gives, without the state that it leaves. -/
def outcome : EStateM.Result ε σ α → Except ε α
  | .ok value _ => .ok value
  | .error fault _ => .error fault

/-- The state that a computation leaves. -/
def final : EStateM.Result ε σ α → σ
  | .ok _ state => state
  | .error _ state => state

/-! ### Changes of the state that make no difference -/

/-- The same result with a changed state. -/
def mapState (change : σ → σ) : EStateM.Result ε σ α → EStateM.Result ε σ α
  | .ok value state => .ok value (change state)
  | .error fault state => .error fault (change state)

@[simp]
theorem outcome_mapState (change : σ → σ) (result : EStateM.Result ε σ α) :
    outcome (mapState change result) = outcome result := by
  cases result <;> rfl

/-- From a changed state one computation does what another one does from the state as it was, and
the change is still there in the end. -/
def Agree (change : σ → σ) (changed action : EStateM ε σ α) (state : σ) : Prop :=
  changed (change state) = mapState change (action state)

/-- A change of the state makes no difference to the computation. -/
def Commutes (change : σ → σ) (action : EStateM ε σ α) : Prop :=
  ∀ state, Agree change action action state

section

variable {change : σ → σ} {changed action : EStateM ε σ α} {changedNext next : α → EStateM ε σ β}
  {state : σ}

theorem Agree.bind (first : Agree change changed action state)
    (second : ∀ value middle, action state = .ok value middle →
      Agree change (changedNext value) (next value) middle) :
    Agree change (changed >>= changedNext) (action >>= next) state := by
  unfold Agree at first ⊢
  cases acted : action state with
  | error fault middle =>
      rw [acted] at first
      rw [bind_of_error first, bind_of_error acted]
      rfl
  | ok value middle =>
      rw [acted] at first
      rw [bind_of_ok first, bind_of_ok acted]
      exact second value middle acted

namespace Commutes

theorem bind (first : Commutes change action) (second : ∀ value, Commutes change (next value)) :
    Commutes change (action >>= next) :=
  fun state => (first state).bind fun value middle _ => second value middle

/-- A computation whose faults are written in another way. -/
theorem adaptExcept {ε' : Type} {rewrite : ε → ε'} (commutes : Commutes change action) :
    Commutes change (EStateM.adaptExcept rewrite action) := by
  intro state
  have same := commutes state
  unfold Agree at same ⊢
  unfold EStateM.adaptExcept
  rw [same]
  cases action state <;> rfl

end Commutes

end

/-! ### What holds of every result -/

/-- From whatever state it starts, the computation gives a value with one property, or fails with a
fault that has the other one. -/
def Satisfies (action : EStateM ε σ α) (holds : α → Prop) (allowed : ε → Prop) : Prop :=
  ∀ state,
    match action state with
    | .ok value _ => holds value
    | .error fault _ => allowed fault

namespace Satisfies

variable {action : EStateM ε σ α} {next : α → EStateM ε σ β} {holds : α → Prop}
  {holdsNext : β → Prop} {allowed : ε → Prop}

theorem pure {value : α} (given : holds value) :
    Satisfies (pure value : EStateM ε σ α) holds allowed :=
  fun _ => given

theorem throw {fault : ε} (given : allowed fault) :
    Satisfies (throw fault : EStateM ε σ α) holds allowed :=
  fun _ => given

theorem bind (first : Satisfies action holds allowed)
    (second : ∀ value, holds value → Satisfies (next value) holdsNext allowed) :
    Satisfies (action >>= next) holdsNext allowed := by
  intro state
  have done := first state
  cases acted : action state with
  | error fault middle =>
      rw [bind_of_error acted]
      simpa only [acted] using done
  | ok value middle =>
      rw [bind_of_ok acted]
      simp only [acted] at done
      exact second value done middle

theorem mono {holdsMore : α → Prop} {allowedMore : ε → Prop}
    (satisfies : Satisfies action holds allowed) (values : ∀ value, holds value → holdsMore value)
    (faults : ∀ fault, allowed fault → allowedMore fault) :
    Satisfies action holdsMore allowedMore := by
  intro state
  have done := satisfies state
  cases acted : action state with
  | error fault middle =>
      simp only [acted] at done
      exact faults fault done
  | ok value middle =>
      simp only [acted] at done
      exact values value done

/-- A value has both properties. -/
theorem and {holdsToo : α → Prop} (satisfies : Satisfies action holds allowed)
    (too : Satisfies action holdsToo fun _ => True) :
    Satisfies action (fun value => holds value ∧ holdsToo value) allowed := by
  intro state
  have first := satisfies state
  have second := too state
  cases acted : action state with
  | error fault after => simpa only [acted] using first
  | ok value after =>
      simp only [acted] at first second
      exact ⟨first, second⟩

/-- A property under an assumption. -/
theorem of_imp {given : Prop} (satisfies : given → Satisfies action holds fun _ => True) :
    Satisfies action (fun value => given → holds value) fun _ => True := by
  intro state
  cases acted : action state with
  | error fault after => exact True.intro
  | ok value after =>
      intro assumed
      simpa only [acted] using satisfies assumed state

/-- What is known of a value that was given. -/
theorem value (satisfies : Satisfies action holds allowed) {state : σ} {value : α}
    (done : outcome (action state) = .ok value) : holds value := by
  have given := satisfies state
  cases acted : action state with
  | error fault after =>
      rw [acted] at done
      cases done
  | ok found after =>
      rw [acted] at done given
      cases done
      exact given

/-- Nothing is said about a computation whose result does not matter. -/
theorem trivial (action : EStateM ε σ α) :
    Satisfies action (fun _ => True) (fun _ => True) := by
  intro state
  cases action state <;> exact True.intro

/-- A look at the state. -/
theorem get_bind {next : σ → EStateM ε σ β}
    (each : ∀ state, Satisfies (next state) holdsNext allowed) :
    Satisfies (get >>= next) holdsNext allowed :=
  fun state => each state state

/-- A change of the state. -/
theorem modify (change : σ → σ) :
    Satisfies (modify change : EStateM ε σ Unit) (fun _ => True) allowed :=
  fun _ => True.intro

/-- A computation whose faults are written in another way. -/
theorem adaptExcept {ε' : Type} {change : ε → ε'} {allowedNext : ε' → Prop}
    (satisfies : Satisfies action holds allowed)
    (faults : ∀ fault, allowed fault → allowedNext (change fault)) :
    Satisfies (EStateM.adaptExcept change action) holds allowedNext := by
  intro state
  have done := satisfies state
  cases acted : action state with
  | error fault middle =>
      simp only [acted] at done
      simpa only [EStateM.adaptExcept, acted] using faults fault done
  | ok value middle =>
      simp only [acted] at done
      simpa only [EStateM.adaptExcept, acted] using done

end Satisfies

/-! ### What holds behind a result -/

/-- If the computation gives a value when it starts from a state, then that value and the state
behind it have a property. -/
def Ensures (action : EStateM ε σ α) (state : σ) (holds : α → σ → Prop) : Prop :=
  ∀ value after, action state = .ok value after → holds value after

namespace Ensures

variable {action : EStateM ε σ α} {next : α → EStateM ε σ β} {state : σ} {holds : α → σ → Prop}
  {holdsNext : β → σ → Prop}

theorem pure {value : α} (given : holds value state) :
    Ensures (pure value : EStateM ε σ α) state holds := by
  rintro _ _ ⟨⟩
  exact given

theorem throw {fault : ε} : Ensures (throw fault : EStateM ε σ α) state holds := by
  rintro _ _ ⟨⟩

theorem bind (first : Ensures action state holds)
    (second : ∀ value middle, holds value middle → Ensures (next value) middle holdsNext) :
    Ensures (action >>= next) state holdsNext := by
  intro value after done
  cases acted : action state with
  | error fault middle =>
      rw [bind_of_error acted] at done
      cases done
  | ok found middle =>
      rw [bind_of_ok acted] at done
      exact second found middle (first found middle acted) value after done

theorem mono {holdsMore : α → σ → Prop} (ensures : Ensures action state holds)
    (values : ∀ value after, holds value after → holdsMore value after) :
    Ensures action state holdsMore := by
  intro value after done
  exact values value after (ensures value after done)

/-- A value has both properties. -/
theorem and {holdsToo : α → σ → Prop} (ensures : Ensures action state holds)
    (too : Ensures action state holdsToo) :
    Ensures action state fun value after => holds value after ∧ holdsToo value after := by
  intro value after done
  exact ⟨ensures value after done, too value after done⟩

/-- Renaming faults changes no value. -/
theorem adaptExcept {ε' : Type} {change : ε → ε'} (ensures : Ensures action state holds) :
    Ensures (EStateM.adaptExcept change action) state holds := by
  intro value after done
  unfold EStateM.adaptExcept at done
  split at done
  · cases done
  · next acted =>
      cases done
      exact ensures _ _ acted

/-- A look at the state. -/
theorem get_bind {next : σ → EStateM ε σ β} (each : Ensures (next state) state holdsNext) :
    Ensures (get >>= next) state holdsNext :=
  each

theorem set {changed : σ} {holds : Unit → σ → Prop} (given : holds () changed) :
    Ensures (MonadStateOf.set changed : EStateM ε σ Unit) state holds := by
  rintro _ _ ⟨⟩
  exact given

/-- A new state. -/
theorem set_bind {next : Unit → EStateM ε σ β} {changed : σ}
    (each : Ensures (next ()) changed holdsNext) :
    Ensures (MonadStateOf.set changed >>= next) state holdsNext :=
  each

/-- A change of the state. -/
theorem modify_bind {next : Unit → EStateM ε σ β} {change : σ → σ}
    (each : Ensures (next ()) (change state) holdsNext) :
    Ensures (modify change >>= next) state holdsNext :=
  each

theorem modifyGet_bind {next : α → EStateM ε σ β} {change : σ → α × σ}
    (each : Ensures (next (change state).1) (change state).2 holdsNext) :
    Ensures (modifyGet change >>= next) state holdsNext :=
  each

end Ensures

/-- What holds of every result holds behind a result. -/
theorem Satisfies.ensures {action : EStateM ε σ α} {holds : α → Prop} {allowed : ε → Prop}
    (satisfies : Satisfies action holds allowed) (state : σ) :
    Ensures action state fun value _ => holds value := by
  intro value after done
  simpa only [done] using satisfies state

/-! ### What holds of the value of a computation without a state -/

/-- If the computation gives a value, then that value has a property. -/
def Gives (result : Except ε α) (holds : α → Prop) : Prop :=
  ∀ value, result = .ok value → holds value

namespace Gives

variable {result : Except ε α} {next : α → Except ε β} {holds : α → Prop} {holdsNext : β → Prop}

theorem ok {value : α} (given : holds value) : Gives (.ok value : Except ε α) holds := by
  rintro _ ⟨⟩
  exact given

theorem throw_bind {fault : ε} :
    Gives ((MonadExcept.throw fault : Except ε α) >>= next) holdsNext := by
  rintro _ ⟨⟩

theorem bind (first : Gives result holds)
    (second : ∀ value, holds value → Gives (next value) holdsNext) :
    Gives (result >>= next) holdsNext := by
  cases result with
  | error fault => rintro _ ⟨⟩
  | ok found => exact second found (first found rfl)

theorem mono {holdsMore : α → Prop} (gives : Gives result holds)
    (values : ∀ value, holds value → holdsMore value) : Gives result holdsMore := by
  intro value done
  exact values value (gives value done)

end Gives

end Offside.Computing
