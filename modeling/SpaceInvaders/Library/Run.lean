import Mathlib.Logic.Basic
import Mathlib.Data.List.Basic

namespace Transition

variable {σ ι γ : Type*}

-- A step answers none when it faults. A fault ends the run.
def run (step : ι → σ → Option σ) : σ → List ι → Option σ
  | state, [] => some state
  | state, input :: rest => (step input state).bind fun next => run step next rest

-- The run takes the step from `before` to `after` on `input`.
def Visits (step : ι → σ → Option σ) (start : σ) (inputs : List ι)
    (before : σ) (input : ι) (after : σ) : Prop :=
  ∃ done rest, inputs = done ++ input :: rest ∧ run step start done = some before ∧
    step input before = some after

-- What the steps of a run emit, in order. Each step is seen with its old state.
def log (step : ι → σ → Option σ) (emit : ι → σ → List γ) : σ → List ι → List γ
  | _, [] => []
  | state, input :: rest => emit input state ++
      match step input state with
      | some next => log step emit next rest
      | none => []

-- A history variable is computed from the visited states and never read by the step.
def withHistory (step : ι → σ → Option σ) (record : σ → γ → γ) (input : ι) :
    σ × γ → Option (σ × γ)
  | (state, history) => (step input state).map fun next => (next, record next history)

-- What was emitted is kept beside the state, the newest first.
def withLog (step : ι → σ → Option σ) (emit : ι → σ → List γ) (input : ι) :
    σ × List γ → Option (σ × List γ)
  | (state, past) => (step input state).map fun next => (next, (emit input state).reverse ++ past)

variable {step : ι → σ → Option σ}

@[simp] theorem run_nil (start : σ) : run step start [] = some start := rfl

@[simp] theorem run_cons (start : σ) (input : ι) (rest : List ι) :
    run step start (input :: rest) = (step input start).bind fun next => run step next rest := rfl

theorem run_append (start : σ) (first second : List ι) :
    run step start (first ++ second) = (run step start first).bind fun mid => run step mid second := by
  induction first generalizing start with
  | nil => rfl
  | cons input rest ih =>
      rw [List.cons_append, run_cons, run_cons, Option.bind_assoc]
      exact congrArg (Option.bind _) (funext ih)

theorem Visits.mem {start before after : σ} {inputs : List ι} {input : ι}
    (h : Visits step start inputs before input after) : input ∈ inputs := by
  obtain ⟨done, rest, rfl, _, _⟩ := h
  simp

theorem Visits.step_eq {start before after : σ} {inputs : List ι} {input : ι}
    (h : Visits step start inputs before input after) : step input before = some after :=
  h.choose_spec.choose_spec.2.2

theorem visits_head (start next : σ) (input : ι) (rest : List ι) (h : step input start = some next) :
    Visits step start (input :: rest) start input next :=
  ⟨[], rest, rfl, rfl, h⟩

theorem Visits.tail {start next before after : σ} {first input : ι} {rest : List ι}
    (hnext : step first start = some next) (h : Visits step next rest before input after) :
    Visits step start (first :: rest) before input after := by
  obtain ⟨done, tail, rfl, hrun, hstep⟩ := h
  exact ⟨first :: done, tail, rfl, by simp [hnext, hrun], hstep⟩

theorem Visits.append {start before after : σ} {done rest : List ι} {input : ι}
    (h : Visits step start done before input after) :
    Visits step start (done ++ rest) before input after := by
  obtain ⟨first, tail, rfl, hrun, hstep⟩ := h
  exact ⟨first, tail ++ rest, by simp, hrun, hstep⟩

-- The invariant rule. A step may use that the run takes it.
theorem run_invariant (Inv : σ → Prop) (inputs : List ι) (start final : σ)
    (hstep : ∀ before input after, Visits step start inputs before input after →
      Inv before → Inv after)
    (hinit : Inv start) (hrun : run step start inputs = some final) : Inv final := by
  induction inputs generalizing start with
  | nil =>
      cases hrun
      exact hinit
  | cons input rest ih =>
      rw [run_cons, Option.bind_eq_some_iff] at hrun
      obtain ⟨next, hnext, hrun⟩ := hrun
      exact ih next (fun before other after hv => hstep before other after (hv.tail hnext))
        (hstep start input next (visits_head start next input rest hnext) hinit) hrun

-- The same for every state that the run leaves by a step.
theorem Visits.invariant {start before after : σ} {inputs : List ι} {input : ι}
    (h : Visits step start inputs before input after) (Inv : σ → Prop)
    (hstep : ∀ s other t, Visits step start inputs s other t → Inv s → Inv t)
    (hinit : Inv start) : Inv before := by
  obtain ⟨done, rest, rfl, hrun, _⟩ := h
  exact run_invariant Inv done start before (fun s other t hv => hstep s other t hv.append) hinit hrun

theorem withLog_eq_some (emit : ι → σ → List γ) (input : ι) (state : σ) (past : List γ)
    (after : σ × List γ) (h : withLog step emit input (state, past) = some after) :
    ∃ next, step input state = some next ∧ after = (next, (emit input state).reverse ++ past) := by
  obtain ⟨next, hnext, rfl⟩ := Option.map_eq_some_iff.mp h
  exact ⟨next, hnext, rfl⟩

-- A run to its end leaves the whole log.
theorem run_withLog (emit : ι → σ → List γ) (inputs : List ι) (start final : σ) (past : List γ)
    (h : run step start inputs = some final) :
    run (withLog step emit) (start, past) inputs =
      some (final, (log step emit start inputs).reverse ++ past) := by
  induction inputs generalizing start past with
  | nil =>
      cases h
      rfl
  | cons input rest ih =>
      rw [run_cons, Option.bind_eq_some_iff] at h
      obtain ⟨next, hnext, hrun⟩ := h
      simp only [run_cons, withLog, hnext, Option.map_some, Option.bind_some, log,
        ih next _ hrun, List.reverse_append, List.append_assoc]

theorem rel_cases {τ : Type*} {R : σ → τ → Prop} {a : Option σ} {b : Option τ}
    (h : Option.Rel R a b) :
    (a = none ∧ b = none) ∨ ∃ s t, a = some s ∧ b = some t ∧ R s t := by
  cases h with
  | some hr => exact .inr ⟨_, _, rfl, rfl, hr⟩
  | none => exact .inl ⟨rfl, rfl⟩

theorem rel_map {σ' τ τ' : Type*} {R : σ → τ → Prop} {S : σ' → τ' → Prop} {f : σ → σ'} {g : τ → τ'}
    (hmap : ∀ s t, R s t → S (f s) (g t)) {a : Option σ} {b : Option τ} (h : Option.Rel R a b) :
    Option.Rel S (a.map f) (b.map g) := by
  cases h with
  | some hr => exact .some (hmap _ _ hr)
  | none => exact .none

theorem rel_bind {σ' τ τ' : Type*} {R : σ → τ → Prop} {S : σ' → τ' → Prop}
    {f : σ → Option σ'} {g : τ → Option τ'} (hbind : ∀ s t, R s t → Option.Rel S (f s) (g t))
    {a : Option σ} {b : Option τ} (h : Option.Rel R a b) : Option.Rel S (a.bind f) (b.bind g) := by
  cases h with
  | some hr => exact hbind _ _ hr
  | none => exact .none

-- A step that another one follows under a projection of the states.
theorem run_project {τ : Type*} {other : ι → τ → Option τ} (project : σ → τ)
    (hstep : ∀ input state, (step input state).map project = other input (project state))
    (inputs : List ι) (start : σ) :
    (run step start inputs).map project = run other (project start) inputs := by
  induction inputs generalizing start with
  | nil => rfl
  | cons input rest ih =>
      rw [run_cons, run_cons, ← hstep]
      cases h : step input start with
      | none => rfl
      | some next => exact ih next

-- The same for a run that meets no state in which the first step faults alone.
theorem run_project_of_safe {τ : Type*} {other : ι → τ → Option τ} (project : σ → τ)
    (Faults : ι → σ → Prop)
    (hstep : ∀ input state, ¬Faults input state →
      (step input state).map project = other input (project state))
    (inputs : List ι) (start : σ)
    (hsafe : ∀ done input rest state, inputs = done ++ input :: rest →
      run step start done = some state → ¬Faults input state) :
    (run step start inputs).map project = run other (project start) inputs := by
  induction inputs generalizing start with
  | nil => rfl
  | cons input rest ih =>
      rw [run_cons, run_cons, ← hstep input start (hsafe [] input rest start rfl rfl)]
      cases h : step input start with
      | none => rfl
      | some next =>
          apply ih next
          intro done other tail state hrest hrun
          exact hsafe (input :: done) other tail state (congrArg (input :: ·) hrest) (by simp [h, hrun])

-- Two steps that keep a relation on their states fault together and stay related.
theorem run_simulation {τ κ : Type*} {other : κ → τ → Option τ} (R : σ → τ → Prop)
    (inputs : List (ι × κ))
    (hstep : ∀ pair ∈ inputs, ∀ s t, R s t →
      Option.Rel R (step pair.1 s) (other pair.2 t))
    (s : σ) (t : τ) (hinit : R s t) :
    Option.Rel R (run step s (inputs.map Prod.fst)) (run other t (inputs.map Prod.snd)) := by
  induction inputs generalizing s t with
  | nil => exact .some hinit
  | cons pair rest ih =>
      have hhead := hstep pair (List.mem_cons_self ..) s t hinit
      exact rel_bind (fun next found hr =>
        ih (fun p hp => hstep p (List.mem_cons_of_mem _ hp)) next found hr) hhead

end Transition
