import LogisticService.Effects.Contract

/-!
# Tasks and runs

A `Task` is a program part of whose operations have been answered; it carries
the trace that led there, so the history of a task is a trace of its program
by construction. `Task.step` lets the surroundings answer the next operation.

A run of a system with a partial step function is a list of events
(`runSteps`). `Throughout` says that a property holds in every state of a run,
`Along` that a condition holds at each of its steps, and the rules below carry
an invariant from one step to whole runs.
-/

namespace Effects

open Program

variable {σ : Signature} {ε α S : Type}

/-- A program part of whose operations have been answered. -/
structure Task (start : Program σ ε α) where
  history : List (Answered σ)
  rest : Program σ ε α
  leads : Leads start history rest

namespace Task

variable {start : Program σ ε α}

/-- Nothing has been answered yet. -/
def begin (start : Program σ ε α) : Task start := ⟨[], start, .refl _⟩

/-- The operation the task waits for. -/
def next? (t : Task start) : Option σ.Op :=
  match t.rest with
  | .call o _ => some o
  | _ => none

/-- The surroundings answer the operation the task waits for. -/
def step (answer : Answer σ S) (t : Task start) (s : S) :
    Option (Answered σ × Task start × S) :=
  match h : t.rest with
  | .call o k =>
    let r := (answer s o).1
    some (⟨o, r⟩, ⟨t.history ++ [⟨o, r⟩], k r, (h ▸ t.leads).snoc r⟩, (answer s o).2)
  | _ => none

/-- What a step does: it answers the next operation, appends the answer to the
history and leaves the surroundings as the answer leaves them. -/
theorem step_some {answer : Answer σ S} {t t' : Task start} {s s' : S} {e : Answered σ}
    (h : t.step answer s = some (e, t', s')) :
    ∃ k, t.rest = .call e.1 k ∧ e.2 = (answer s e.1).1 ∧ t'.history = t.history ++ [e] ∧
      t'.rest = k e.2 ∧ s' = (answer s e.1).2 := by
  unfold step at h
  split at h
  · next o k hrest =>
    simp only [Option.some.injEq, Prod.mk.injEq] at h
    obtain ⟨rfl, rfl, rfl⟩ := h
    exact ⟨k, hrest, rfl, rfl, rfl, rfl⟩
  · exact absurd h (by simp)

/-- A task that waits for an operation takes a step. -/
theorem step_of_call {t : Task start} {o : σ.Op} {k : σ.Reply o → Program σ ε α}
    (h : t.rest = .call o k) (answer : Answer σ S) (s : S) : ∃ r, t.step answer s = some r := by
  unfold step
  split
  · exact ⟨_, rfl⟩
  · next hnot => exact absurd h (hnot o k)

theorem next?_of_call {t : Task start} {o : σ.Op} {k : σ.Reply o → Program σ ε α}
    (h : t.rest = .call o k) : t.next? = some o := by
  unfold next?
  rw [h]

theorem call_of_next? {t : Task start} {o : σ.Op} (h : t.next? = some o) :
    ∃ k, t.rest = .call o k := by
  unfold next? at h
  split at h
  · next o' k hrest =>
    cases h
    exact ⟨k, hrest⟩
  · cases h

/-- A task that waits for an operation was led to it along its history. -/
theorem leads_call {t : Task start} {o : σ.Op} {k : σ.Reply o → Program σ ε α}
    (h : t.rest = .call o k) : Leads start t.history (.call o k) := h ▸ t.leads

/-- A task that is done was led to its result along its history. -/
theorem leads_pure {t : Task start} {a : α} (h : t.rest = .pure a) :
    Leads start t.history (.pure a) := h ▸ t.leads

end Task

/-! ## Runs of a partial step function -/

section Runs

variable {E : Type} (step : S → E → Option S)

/-- The state after a list of events, when each of them can happen. -/
def runSteps : S → List E → Option S
  | s, [] => some s
  | s, e :: es => (step s e).bind fun s' => runSteps s' es

/-- The property holds in every state of the run, the first one included. -/
def Throughout (P : S → Prop) : S → List E → Prop
  | s, [] => P s
  | s, e :: es => P s ∧ ∀ s', step s e = some s' → Throughout P s' es

/-- The condition holds at every step of the run. -/
def Along (C : S → E → Prop) : S → List E → Prop
  | _, [] => True
  | s, e :: es => ∀ s', step s e = some s' → C s e ∧ Along C s' es

/-- Whether a condition holds along a run can be computed. -/
instance Along.decidable {C : S → E → Prop} [∀ s e, Decidable (C s e)] :
    (s : S) → (es : List E) → Decidable (Along step C s es)
  | _, [] => isTrue trivial
  | s, e :: es =>
    match h : step s e with
    | none => isTrue fun s' hs' => by rw [h] at hs'; cases hs'
    | some s' =>
      have : Decidable (Along step C s' es) := Along.decidable s' es
      decidable_of_iff (C s e ∧ Along step C s' es)
        ⟨fun hc s'' hs'' => by rw [h] at hs''; cases hs''; exact hc, fun hc => hc s' h⟩

variable {step} {C : S → E → Prop} {P I : S → Prop}

@[simp] theorem runSteps_nil (s : S) : runSteps step s [] = some s := rfl

theorem runSteps_cons {s s'' : S} {e : E} {es : List E} :
    runSteps step s (e :: es) = some s'' ↔
      ∃ s', step s e = some s' ∧ runSteps step s' es = some s'' := by
  simp only [runSteps, Option.bind_eq_some_iff]

/-- One more event at the end of a run. -/
theorem runSteps_snoc {s s' s'' : S} {es : List E} {e : E} (hrun : runSteps step s es = some s')
    (he : step s' e = some s'') : runSteps step s (es ++ [e]) = some s'' := by
  induction es generalizing s with
  | nil =>
    cases hrun
    exact runSteps_cons.2 ⟨s'', he, rfl⟩
  | cons e' es ih =>
    obtain ⟨s₁, he', hrun⟩ := runSteps_cons.1 hrun
    exact runSteps_cons.2 ⟨s₁, he', ih hrun⟩

/-- An invariant that steps keep under a condition holds at the end of every
run along which the condition holds. -/
theorem runSteps_invariant_of_along {s s' : S} {es : List E}
    (hstep : ∀ s e s', I s → step s e = some s' → C s e → I s')
    (hI : I s) (hC : Along step C s es) (hrun : runSteps step s es = some s') : I s' := by
  induction es generalizing s with
  | nil => cases hrun; exact hI
  | cons e es ih =>
    obtain ⟨s₁, he, hrun⟩ := runSteps_cons.1 hrun
    obtain ⟨hc, hC⟩ := hC s₁ he
    exact ih (hstep s e s₁ hI he hc) hC hrun

theorem Along.mono {D : S → E → Prop} (himp : ∀ s e, C s e → D s e) {s : S} {es : List E}
    (h : Along step C s es) : Along step D s es := by
  induction es generalizing s with
  | nil => trivial
  | cons e es ih => exact fun s' he => ⟨himp s e (h s' he).1, ih (h s' he).2⟩

/-- A condition on events holds along a run of events that all meet it. -/
theorem Along.of_forall {C : E → Prop} {s : S} {es : List E} (h : ∀ e ∈ es, C e) :
    Along step (fun _ e => C e) s es := by
  induction es generalizing s with
  | nil => trivial
  | cons e es ih =>
    exact fun s' _ => ⟨h e List.mem_cons_self, ih fun e' he' => h e' (List.mem_cons_of_mem _ he')⟩

/-- Under an invariant that the steps keep on which a condition holds, two
conditions that say the same of every step say the same of every run. -/
theorem Along.congr_under {D : S → E → Prop}
    (hstep : ∀ s e s', I s → step s e = some s' → C s e → I s')
    (hsame : ∀ s e, I s → (C s e ↔ D s e)) {s : S} {es : List E} (hI : I s) :
    Along step C s es ↔ Along step D s es := by
  induction es generalizing s with
  | nil => exact Iff.rfl
  | cons e es ih =>
    constructor
    · intro h s' he
      obtain ⟨hc, h⟩ := h s' he
      exact ⟨(hsame s e hI).1 hc, (ih (hstep s e s' hI he hc)).1 h⟩
    · intro h s' he
      obtain ⟨hd, h⟩ := h s' he
      have hc := (hsame s e hI).2 hd
      exact ⟨hc, (ih (hstep s e s' hI he hc)).2 h⟩

/-- The same under an invariant that every step keeps. -/
theorem Along.congr {D : S → E → Prop} (hstep : ∀ s e s', I s → step s e = some s' → I s')
    (hsame : ∀ s e, I s → (C s e ↔ D s e)) {s : S} {es : List E} (hI : I s) :
    Along step C s es ↔ Along step D s es :=
  Along.congr_under (fun s e s' hI he _ => hstep s e s' hI he) hsame hI

/-- A condition along a run holds at its last step. -/
theorem Along.last {s s' s'' : S} {es : List E} {e : E} (h : Along step C s (es ++ [e]))
    (hrun : runSteps step s es = some s') (he : step s' e = some s'') : C s' e := by
  induction es generalizing s with
  | nil =>
    cases hrun
    exact (h s'' he).1
  | cons e' es ih =>
    obtain ⟨s₁, he', hrun⟩ := runSteps_cons.1 hrun
    exact ih (h s₁ he').2 hrun

/-- An invariant that every step keeps holds at the end of every run. -/
theorem runSteps_invariant {s s' : S} {es : List E}
    (hstep : ∀ s e s', I s → step s e = some s' → I s')
    (hI : I s) (hrun : runSteps step s es = some s') : I s' := by
  induction es generalizing s with
  | nil => cases hrun; exact hI
  | cons e es ih =>
    obtain ⟨s₁, he, hrun⟩ := runSteps_cons.1 hrun
    exact ih (hstep s e s₁ hI he) hrun

/-- An invariant that also speaks of the events so far. -/
theorem runSteps_recorded {J : List E → S → Prop} {s s' : S} {past es : List E}
    (hstep : ∀ past s e s', J past s → step s e = some s' → J (past ++ [e]) s')
    (hJ : J past s) (hrun : runSteps step s es = some s') : J (past ++ es) s' := by
  induction es generalizing s past with
  | nil =>
    cases hrun
    rwa [List.append_nil]
  | cons e es ih =>
    obtain ⟨s₁, he, hrun⟩ := runSteps_cons.1 hrun
    rw [List.append_cons]
    exact ih (hstep past s e s₁ hJ he) hrun

/-- The condition suffices: an invariant it preserves holds throughout. -/
theorem throughout_of_along (hstep : ∀ s e s', I s → step s e = some s' → C s e → I s')
    (hP : ∀ s, I s → P s) {s : S} {es : List E} (hI : I s) (hC : Along step C s es) :
    Throughout step P s es := by
  induction es generalizing s with
  | nil => exact hP s hI
  | cons e es ih =>
    exact ⟨hP s hI, fun s' he => ih (hstep s e s' hI he (hC s' he).1) (hC s' he).2⟩

theorem Throughout.head {s : S} {es : List E} (h : Throughout step P s es) : P s := by
  cases es with
  | nil => exact h
  | cons e es => exact h.1

/-- The condition is exact: it holds along a run just when the property holds
throughout, if a step that breaks it breaks the property. -/
theorem throughout_iff_along (hstep : ∀ s e s', I s → step s e = some s' → C s e → I s')
    (hP : ∀ s, I s → P s) (hneed : ∀ s e s', I s → step s e = some s' → P s' → C s e)
    {s : S} {es : List E} (hI : I s) : Throughout step P s es ↔ Along step C s es := by
  refine ⟨fun h => ?_, throughout_of_along hstep hP hI⟩
  induction es generalizing s with
  | nil => trivial
  | cons e es ih =>
    intro s' he
    have hc := hneed s e s' hI he (h.2 s' he).head
    exact ⟨hc, ih (hstep s e s' hI he hc) (h.2 s' he)⟩

/-- What holds throughout holds at the end. -/
theorem Throughout.last {s s' : S} {es : List E} (h : Throughout step P s es)
    (hrun : runSteps step s es = some s') : P s' := by
  induction es generalizing s with
  | nil => cases hrun; exact h
  | cons e es ih =>
    obtain ⟨s₁, he, hrun⟩ := runSteps_cons.1 hrun
    exact ih (h.2 s₁ he) hrun

end Runs

end Effects
