import Offside.Proofs.Computation

/-!
# Two computations side by side

Two computations run in parallel if, from related states, they both give values or both fail, and
values, faults and states are related again.
-/

namespace Offside.Computing

variable {ε ε' σ σ' α α' β β' : Type}

/-- Two results are both values or both faults, and related. -/
def Matches (states : σ → σ' → Prop) (values : α → α' → Prop) (faults : ε → ε' → Prop) :
    EStateM.Result ε σ α → EStateM.Result ε' σ' α' → Prop
  | .ok value state, .ok value' state' => values value value' ∧ states state state'
  | .error fault state, .error fault' state' => faults fault fault' ∧ states state state'
  | _, _ => False

namespace Matches

variable {states : σ → σ' → Prop} {values : α → α' → Prop} {faults : ε → ε' → Prop} {state : σ}
  {state' : σ'}

/-- The first part may relate the states more closely than the whole does, and what both give is
known. -/
theorem bind_within {within : σ → σ' → Prop} {valuesNext : β → β' → Prop}
    {action : EStateM ε σ α} {other : EStateM ε' σ' α'} {next : α → EStateM ε σ β}
    {otherNext : α' → EStateM ε' σ' β'}
    (weaker : ∀ state state', within state state' → states state state')
    (first : Matches within values faults (action state) (other state'))
    (second : ∀ value value' middle middle', action state = .ok value middle →
      other state' = .ok value' middle' → values value value' → within middle middle' →
      Matches states valuesNext faults (next value middle) (otherNext value' middle')) :
    Matches states valuesNext faults ((action >>= next) state) ((other >>= otherNext) state') := by
  cases acted : action state with
  | ok value middle =>
      cases acted' : other state' with
      | ok value' middle' =>
          rw [acted, acted'] at first
          rw [bind_of_ok acted, bind_of_ok acted']
          exact second value value' middle middle' acted acted' first.1 first.2
      | error fault' middle' =>
          rw [acted, acted'] at first
          exact first.elim
  | error fault middle =>
      cases acted' : other state' with
      | ok value' middle' =>
          rw [acted, acted'] at first
          exact first.elim
      | error fault' middle' =>
          rw [acted, acted'] at first
          rw [bind_of_error acted, bind_of_error acted']
          exact ⟨first.1, weaker _ _ first.2⟩

theorem bind {valuesNext : β → β' → Prop} {action : EStateM ε σ α} {other : EStateM ε' σ' α'}
    {next : α → EStateM ε σ β} {otherNext : α' → EStateM ε' σ' β'}
    (first : Matches states values faults (action state) (other state'))
    (second : ∀ value value' middle middle', values value value' → states middle middle' →
      Matches states valuesNext faults (next value middle) (otherNext value' middle')) :
    Matches states valuesNext faults ((action >>= next) state) ((other >>= otherNext) state') :=
  bind_within (fun _ _ => id) first fun value value' middle middle' _ _ =>
    second value value' middle middle'

theorem mono {statesMore : σ → σ' → Prop} {valuesMore : α → α' → Prop}
    {faultsMore : ε → ε' → Prop} {result : EStateM.Result ε σ α} {result' : EStateM.Result ε' σ' α'}
    (given : Matches states values faults result result')
    (weakerValues : ∀ value value', values value value' → valuesMore value value')
    (weakerFaults : ∀ fault fault', faults fault fault' → faultsMore fault fault')
    (weakerStates : ∀ state state', states state state' → statesMore state state') :
    Matches statesMore valuesMore faultsMore result result' := by
  revert given
  cases result <;> cases result'
  · exact fun done => ⟨weakerValues _ _ done.1, weakerStates _ _ done.2⟩
  · exact id
  · exact id
  · exact fun done => ⟨weakerFaults _ _ done.1, weakerStates _ _ done.2⟩

end Matches

/-- From related states two computations have related results. -/
def Parallel (states : σ → σ' → Prop) (values : α → α' → Prop) (faults : ε → ε' → Prop)
    (action : EStateM ε σ α) (other : EStateM ε' σ' α') : Prop :=
  ∀ ⦃state state'⦄, states state state' → Matches states values faults (action state) (other state')

namespace Parallel

variable {states : σ → σ' → Prop} {values : α → α' → Prop} {valuesNext : β → β' → Prop}
  {faults : ε → ε' → Prop} {action : EStateM ε σ α} {other : EStateM ε' σ' α'}
  {next : α → EStateM ε σ β} {otherNext : α' → EStateM ε' σ' β'}

theorem pure {value : α} {value' : α'} (related : values value value') :
    Parallel states values faults (pure value) (pure value') :=
  fun _ _ given => ⟨related, given⟩

theorem throw {fault : ε} {fault' : ε'} (related : faults fault fault') :
    Parallel states values faults (throw fault) (throw fault') :=
  fun _ _ given => ⟨related, given⟩

theorem bind (first : Parallel states values faults action other)
    (second : ∀ value value', values value value' →
      Parallel states valuesNext faults (next value) (otherNext value')) :
    Parallel states valuesNext faults (action >>= next) (other >>= otherNext) :=
  fun _ _ given => (first given).bind fun _ _ _ _ related middle => second _ _ related middle

/-- The second part, where the other value is made from the first one. -/
theorem bind_change {change : α → α'}
    (first : Parallel states (fun value value' => value' = change value) faults action other)
    (second : ∀ value, Parallel states valuesNext faults (next value) (otherNext (change value))) :
    Parallel states valuesNext faults (action >>= next) (other >>= otherNext) := by
  apply bind first
  rintro value _ rfl
  exact second value

/-- The second part, where both values are the same. -/
theorem bind_same {other : EStateM ε' σ' α} {otherNext : α → EStateM ε' σ' β'}
    (first : Parallel states (fun value value' => value' = value) faults action other)
    (second : ∀ value, Parallel states valuesNext faults (next value) (otherNext value)) :
    Parallel states valuesNext faults (action >>= next) (other >>= otherNext) :=
  bind_change first second

/-- A look at the states. -/
theorem get_bind {next : σ → EStateM ε σ β} {otherNext : σ' → EStateM ε' σ' β'}
    (each : ∀ state state', states state state' →
      Parallel states valuesNext faults (next state) (otherNext state')) :
    Parallel states valuesNext faults (get >>= next) (get >>= otherNext) :=
  fun state state' given => each state state' given given

/-- Changes of the states that keep them related. -/
theorem modify {change : σ → σ} {change' : σ' → σ'}
    (keeps : ∀ state state', states state state' → states (change state) (change' state'))
    {values : Unit → Unit → Prop} (related : values () ()) :
    Parallel states values faults (modify change) (modify change') :=
  fun state state' given => ⟨related, keeps state state' given⟩

theorem mono {valuesMore : α → α' → Prop} {faultsMore : ε → ε' → Prop}
    (parallel : Parallel states values faults action other)
    (weakerValues : ∀ value value', values value value' → valuesMore value value')
    (weakerFaults : ∀ fault fault', faults fault fault' → faultsMore fault fault') :
    Parallel states valuesMore faultsMore action other :=
  fun _ _ given => (parallel given).mono weakerValues weakerFaults fun _ _ => id

/-- Two computations that run in parallel with the same third one. -/
theorem join {σ'' : Type} [Nonempty σ''] {ζ η κ : Type} (kept : ζ → κ) {keep : α → κ}
    {keep' : α' → κ} {blame : ε → η → Prop} {blame' : ε' → η → Prop} {between : EStateM η σ'' ζ}
    (left : Parallel (fun _ _ => True) (fun value common => kept common = keep value) blame action
      between)
    (right : Parallel (fun _ _ => True) (fun value common => kept common = keep' value) blame' other
      between) :
    Parallel (fun _ _ => True) (fun value value' => keep' value' = keep value)
      (fun fault fault' => ∃ common, blame fault common ∧ blame' fault' common) action other := by
  intro state state' _
  have start : True := True.intro
  obtain ⟨middle⟩ := ‹Nonempty σ''›
  have first := @left state middle start
  have second := @right state' middle start
  revert first second
  cases action state <;> cases other state' <;> cases between middle
  · exact fun first second => ⟨second.1.symm.trans first.1, True.intro⟩
  · exact fun first _ => first.elim
  · exact fun _ second => second.elim
  · exact fun first _ => first.elim
  · exact fun first _ => first.elim
  · exact fun _ second => second.elim
  · exact fun first _ => first.elim
  · exact fun first second => ⟨⟨_, first.1, second.1⟩, True.intro⟩

/-- Computations whose faults are written in another way. -/
theorem adaptExcept {γ γ' : Type} {change : ε → γ} {change' : ε' → γ'}
    {faultsNext : γ → γ' → Prop} (parallel : Parallel states values faults action other)
    (each : ∀ fault fault', faults fault fault' → faultsNext (change fault) (change' fault')) :
    Parallel states values faultsNext (EStateM.adaptExcept change action)
      (EStateM.adaptExcept change' other) := by
  intro state state' given
  have done := parallel given
  unfold EStateM.adaptExcept
  revert done
  cases action state <;> cases other state'
  · exact id
  · exact id
  · exact id
  · exact fun done => ⟨each _ _ done.1, done.2⟩

/-- A computation whose outcome does not depend on the state runs in parallel with itself. -/
theorem of_outcome {action : EStateM ε σ α}
    (one : ∀ state state', Computing.outcome (action state) = Computing.outcome (action state')) :
    Parallel (fun _ _ => True) (fun value value' => value' = value)
      (fun fault fault' => fault' = fault) action action := by
  intro state state' _
  have same := one state state'
  revert same
  cases action state <;> cases action state' <;> rintro ⟨⟩
  · exact ⟨rfl, True.intro⟩
  · exact ⟨rfl, True.intro⟩

/-- The outcomes of two computations that run in parallel from all states. -/
theorem outcome (parallel : Parallel (fun _ _ => True) values faults action other) (state : σ)
    (state' : σ') :
    (∃ value value', Computing.outcome (action state) = .ok value ∧
        Computing.outcome (other state') = .ok value' ∧ values value value') ∨
      ∃ fault fault', Computing.outcome (action state) = .error fault ∧
        Computing.outcome (other state') = .error fault' ∧ faults fault fault' := by
  have start : True := True.intro
  have done := @parallel state state' start
  revert done
  cases action state <;> cases other state'
  · exact fun done => .inl ⟨_, _, rfl, rfl, done.1⟩
  · exact False.elim
  · exact False.elim
  · exact fun done => .inr ⟨_, _, rfl, rfl, done.1⟩

end Parallel

end Offside.Computing
