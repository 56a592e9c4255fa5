import Mathlib.Order.Basic
import SpaceInvaders.Library.Run

namespace Transition

variable {σ ι γ τ : Type*} {step : ι → σ → Option σ}

@[simp] theorem log_nil (emit : ι → σ → List γ) (start : σ) : log step emit start [] = [] := rfl

theorem log_cons_of_some (emit : ι → σ → List γ) {start next : σ} (input : ι) (rest : List ι)
    (h : step input start = some next) :
    log step emit start (input :: rest) = emit input start ++ log step emit next rest := by
  rw [log, h]

theorem log_append (emit : ι → σ → List γ) {start mid : σ} (first second : List ι)
    (h : run step start first = some mid) :
    log step emit start (first ++ second) = log step emit start first ++ log step emit mid second := by
  induction first generalizing start with
  | nil =>
      cases h
      rfl
  | cons input rest ih =>
      rw [run_cons, Option.bind_eq_some_iff] at h
      obtain ⟨next, hnext, hrun⟩ := h
      rw [List.cons_append, log_cons_of_some _ _ _ hnext, log_cons_of_some _ _ _ hnext, ih hrun,
        List.append_assoc]

theorem run_singleton (start : σ) (input : ι) : run step start [input] = step input start :=
  Option.bind_fun_some (step input start)

theorem run_single {start next : σ} {input : ι} (h : step input start = some next) :
    run step start [input] = some next :=
  (run_singleton start input).trans h

theorem log_short (emit : ι → σ → List γ) (start : σ) {inputs : List ι} (h : inputs.length ≤ 1) :
    log step emit start inputs = inputs.flatMap fun input => emit input start := by
  cases inputs with
  | nil => rfl
  | cons input rest =>
      obtain rfl : rest = [] := by simpa using h
      unfold log
      cases step input start <;> simp

-- What was emitted before a step of the run.
theorem Visits.log_before {start before after : σ} {inputs : List ι} {input : ι}
    (h : Visits step start inputs before input after) (emit : ι → σ → List γ) :
    ∃ done, run step start done = some before ∧
      ∀ item ∈ log step emit start done, item ∈ log step emit start inputs := by
  obtain ⟨done, rest, rfl, hrun, _⟩ := h
  refine ⟨done, hrun, fun item hitem => ?_⟩
  rw [log_append _ _ _ hrun]
  exact List.mem_append_left _ hitem

theorem Visits.mem_log {start before after : σ} {inputs : List ι} {input : ι}
    (h : Visits step start inputs before input after) (emit : ι → σ → List γ) {item : γ}
    (hitem : item ∈ emit input before) : item ∈ log step emit start inputs := by
  obtain ⟨done, rest, rfl, hrun, hstep⟩ := h
  rw [log_append _ _ _ hrun, log_cons_of_some _ _ _ hstep]
  exact List.mem_append_right _ (List.mem_append_left _ hitem)

-- The steps of the rest of a run are steps of the run.
theorem visits_tail {start next : σ} {first : ι} {rest : List ι} (hnext : step first start = some next)
    {P : σ → ι → σ → Prop}
    (h : ∀ before input after, Visits step start (first :: rest) before input after → P before input after) :
    ∀ before input after, Visits step next rest before input after → P before input after :=
  fun before input after hvisits => h before input after (hvisits.tail hnext)

-- What flows in leaves in the same order or is still there.
theorem log_flow (contents : σ → List γ) (gain loss : ι → σ → List γ) (inputs : List ι)
    (start final : σ)
    (hstep : ∀ before input after, Visits step start inputs before input after →
      contents before ++ gain input before = loss input before ++ contents after)
    (hrun : run step start inputs = some final) :
    contents start ++ log step gain start inputs = log step loss start inputs ++ contents final := by
  induction inputs generalizing start with
  | nil =>
      cases hrun
      simp
  | cons input rest ih =>
      rw [run_cons, Option.bind_eq_some_iff] at hrun
      obtain ⟨next, hnext, hrun⟩ := hrun
      rw [log_cons_of_some _ _ _ hnext, log_cons_of_some _ _ _ hnext, ← List.append_assoc,
        hstep start input next (visits_head start next input rest hnext), List.append_assoc,
        ih next (visits_tail hnext hstep) hrun, List.append_assoc]

-- A part of what is emitted, item by item, is the same part of the log.
theorem log_part {κ : Type*} (emit : ι → σ → List γ) (part : List γ → List κ) (hnil : part [] = [])
    (happend : ∀ first second, part (first ++ second) = part first ++ part second) (inputs : List ι)
    (start : σ) :
    log step (fun input state => part (emit input state)) start inputs =
      part (log step emit start inputs) := by
  induction inputs generalizing start with
  | nil => exact hnil.symm
  | cons input rest ih =>
      simp only [log, happend]
      cases step input start with
      | none => exact congrArg _ hnil.symm
      | some next => exact congrArg _ (ih next)

-- The invariant rule for a state and what has been emitted up to it.
theorem log_invariant (Inv : σ → List γ → Prop) (emit : ι → σ → List γ) (inputs : List ι)
    (start final : σ) (past : List γ)
    (hstep : ∀ before input after past, Visits step start inputs before input after → Inv before past →
      Inv after (past ++ emit input before))
    (hinit : Inv start past) (hrun : run step start inputs = some final) :
    Inv final (past ++ log step emit start inputs) := by
  induction inputs generalizing start past with
  | nil =>
      cases hrun
      rwa [log_nil, List.append_nil]
  | cons input rest ih =>
      rw [run_cons, Option.bind_eq_some_iff] at hrun
      obtain ⟨next, hnext, hrun⟩ := hrun
      rw [log_cons_of_some _ _ _ hnext, ← List.append_assoc]
      exact ih next (past ++ emit input start)
        (fun before other after earlier hv => hstep before other after earlier (hv.tail hnext))
        (hstep start input next past (visits_head start next input rest hnext) hinit) hrun

theorem log_forall (P : γ → Prop) (emit : ι → σ → List γ) (inputs : List ι) (start final : σ)
    (hstep : ∀ before input after, Visits step start inputs before input after →
      ∀ item ∈ emit input before, P item)
    (hrun : run step start inputs = some final) : ∀ item ∈ log step emit start inputs, P item := by
  induction inputs generalizing start with
  | nil => simp
  | cons input rest ih =>
      rw [run_cons, Option.bind_eq_some_iff] at hrun
      obtain ⟨next, hnext, hrun⟩ := hrun
      rw [log_cons_of_some _ _ _ hnext, List.forall_mem_append]
      exact ⟨hstep start input next (visits_head start next input rest hnext),
        ih next (visits_tail hnext hstep) hrun⟩

theorem log_quiet (emit : ι → σ → List γ) (inputs : List ι) (start : σ)
    (hquiet : ∀ input ∈ inputs, ∀ state, emit input state = []) : log step emit start inputs = [] := by
  induction inputs generalizing start with
  | nil => rfl
  | cons input rest ih =>
      rw [List.forall_mem_cons] at hquiet
      simp only [log, hquiet.1, List.nil_append]
      cases step input start with
      | none => rfl
      | some next => exact ih next hquiet.2

-- A round that brings something nearer is taken often enough until it is there.
theorem log_reaches (measure : σ → Nat) (Inv : σ → Prop) (emit : ι → σ → List γ) (goal : γ → Prop)
    (round : List ι)
    (hround : ∀ state, Inv state → ∃ next, run step state round = some next ∧
      measure next < measure state ∧ ((∃ item ∈ log step emit state round, goal item) ∨ Inv next))
    (start : σ) (hstart : Inv start) :
    ∃ count ≤ measure start, ∃ final, run step start (List.replicate count round).flatten = some final ∧
      ∃ item ∈ log step emit start (List.replicate count round).flatten, goal item := by
  generalize hbound : measure start = bound
  induction bound using Nat.strongRecOn generalizing start with
  | ind bound ih =>
      obtain ⟨next, hrun, hless, hgoal⟩ := hround start hstart
      rw [hbound] at hless
      rcases hgoal with ⟨item, hitem, hgoal⟩ | hinv
      · refine ⟨1, by omega, next, ?_, item, ?_, hgoal⟩
        · simpa using hrun
        · simpa using hitem
      · obtain ⟨count, hcount, final, hfinal, item, hitem, hgoal⟩ := ih (measure next) hless next hinv rfl
        refine ⟨count + 1, by omega, final, ?_, item, ?_, hgoal⟩
        · rw [List.replicate_succ, List.flatten_cons, run_append, hrun]
          exact hfinal
        · rw [List.replicate_succ, List.flatten_cons, log_append _ _ _ hrun]
          exact List.mem_append_right _ hitem

-- A system that takes its own turns, each of which leaves less to do, comes to an end.
theorem run_ends (measure : σ → Nat) (turn : σ → Option ι) (Inv : σ → Prop)
    (hturn : ∀ state input, Inv state → turn state = some input →
      ∃ next, step input state = some next ∧ Inv next ∧ measure next < measure state)
    (start : σ) (hstart : Inv start) :
    ∃ inputs final, inputs.length ≤ measure start ∧
      (∀ input ∈ inputs, ∃ state, turn state = some input) ∧ run step start inputs = some final ∧
      Inv final ∧ turn final = none := by
  generalize hbound : measure start = bound
  induction bound using Nat.strongRecOn generalizing start with
  | ind bound ih =>
      cases hinput : turn start with
      | none => exact ⟨[], start, by simp, by simp, rfl, hstart, hinput⟩
      | some input =>
          obtain ⟨next, hnext, hinv, hless⟩ := hturn start input hstart hinput
          rw [hbound] at hless
          obtain ⟨inputs, final, hlength, hturns, hrun, hend⟩ := ih (measure next) hless next hinv rfl
          refine ⟨input :: inputs, final, by simp only [List.length_cons]; omega, ?_, ?_, hend⟩
          · rw [List.forall_mem_cons]
            exact ⟨⟨start, hinput⟩, hturns⟩
          · rw [run_cons, hnext]
            exact hrun

-- A counter of what is emitted.
theorem log_length (count : σ → Nat) (emit : ι → σ → List γ) (inputs : List ι) (start final : σ)
    (hstep : ∀ before input after, Visits step start inputs before input after →
      count after = count before + (emit input before).length)
    (hrun : run step start inputs = some final) :
    count final = count start + (log step emit start inputs).length := by
  induction inputs generalizing start with
  | nil =>
      cases hrun
      rfl
  | cons input rest ih =>
      rw [run_cons, Option.bind_eq_some_iff] at hrun
      obtain ⟨next, hnext, hrun⟩ := hrun
      rw [log_cons_of_some _ _ _ hnext, List.length_append, ih next (visits_tail hnext hstep) hrun,
        hstep start input next (visits_head start next input rest hnext), Nat.add_assoc]

-- What a step emits increases, from the bound that it finds to the bound that it leaves.
def EmitsBetween [LE τ] [LT τ] (key : γ → τ) (emitted : List γ) (low high : τ) : Prop :=
  emitted.Pairwise (fun a b => key a < key b) ∧ (∀ item ∈ emitted, low ≤ key item ∧ key item < high) ∧
    low ≤ high

theorem EmitsBetween.nil [LE τ] [LT τ] (key : γ → τ) {low high : τ} (h : low ≤ high) :
    EmitsBetween key [] low high :=
  ⟨List.Pairwise.nil, by simp, h⟩

theorem EmitsBetween.append [Preorder τ] {key : γ → τ} {first second : List γ} {low mid high : τ}
    (hfirst : EmitsBetween key first low mid) (hsecond : EmitsBetween key second mid high) :
    EmitsBetween key (first ++ second) low high := by
  refine ⟨List.pairwise_append.mpr ⟨hfirst.1, hsecond.1, ?_⟩, ?_, hfirst.2.2.trans hsecond.2.2⟩
  · intro a ha b hb
    exact (hfirst.2.1 a ha).2.trans_le (hsecond.2.1 b hb).1
  · intro item hitem
    cases List.mem_append.mp hitem with
    | inl h => exact ⟨(hfirst.2.1 item h).1, (hfirst.2.1 item h).2.trans_le hsecond.2.2⟩
    | inr h => exact ⟨hfirst.2.2.trans (hsecond.2.1 item h).1, (hsecond.2.1 item h).2⟩

theorem log_sorted [Preorder τ] (key : γ → τ) (bound : σ → τ) (emit : ι → σ → List γ)
    (inputs : List ι) (start final : σ)
    (hstep : ∀ before input after, Visits step start inputs before input after →
      EmitsBetween key (emit input before) (bound before) (bound after))
    (hrun : run step start inputs = some final) :
    EmitsBetween key (log step emit start inputs) (bound start) (bound final) := by
  induction inputs generalizing start with
  | nil =>
      cases hrun
      exact EmitsBetween.nil key le_rfl
  | cons input rest ih =>
      rw [run_cons, Option.bind_eq_some_iff] at hrun
      obtain ⟨next, hnext, hrun⟩ := hrun
      rw [log_cons_of_some _ _ _ hnext]
      exact (hstep start input next (visits_head start next input rest hnext)).append
        (ih next (visits_tail hnext hstep) hrun)

-- A run that takes the steps of another one, several or none for each of its own.
theorem run_refines {κ : Type*} {other : κ → τ → Option τ} (project : σ → τ) (emit : ι → σ → List κ)
    (inputs : List ι) (start final : σ)
    (hstep : ∀ before input after, Visits step start inputs before input after →
      run other (project before) (emit input before) = some (project after))
    (hrun : run step start inputs = some final) :
    run other (project start) (log step emit start inputs) = some (project final) := by
  induction inputs generalizing start with
  | nil =>
      cases hrun
      rfl
  | cons input rest ih =>
      rw [run_cons, Option.bind_eq_some_iff] at hrun
      obtain ⟨next, hnext, hrun⟩ := hrun
      rw [log_cons_of_some _ _ _ hnext, run_append,
        hstep start input next (visits_head start next input rest hnext), Option.bind_some,
        ih next (visits_tail hnext hstep) hrun]

theorem log_refines {κ : Type*} {other : κ → τ → Option τ} (project : σ → τ) (emit : ι → σ → List κ)
    (outer : ι → σ → List γ) (inner : κ → τ → List γ) (inputs : List ι) (start final : σ)
    (hstep : ∀ before input after, Visits step start inputs before input after →
      run other (project before) (emit input before) = some (project after))
    (hlog : ∀ before input after, Visits step start inputs before input after →
      log other inner (project before) (emit input before) = outer input before)
    (hrun : run step start inputs = some final) :
    log other inner (project start) (log step emit start inputs) = log step outer start inputs := by
  induction inputs generalizing start with
  | nil => rfl
  | cons input rest ih =>
      rw [run_cons, Option.bind_eq_some_iff] at hrun
      obtain ⟨next, hnext, hrun⟩ := hrun
      have hhead := visits_head start next input rest hnext
      rw [log_cons_of_some _ _ _ hnext, log_cons_of_some _ _ _ hnext,
        log_append _ _ _ (hstep start input next hhead), hlog start input next hhead,
        ih next (visits_tail hnext hstep) (visits_tail hnext hlog) hrun]

end Transition
