import LogisticService.Effects.Runs

/-!
# Two programs in any order

Two tasks over one state of their surroundings, in any interleaving of their
operations (`Weave`). When neither sees what the other does, an interleaving
that completes both is as good as running one after the other, in either
order: each task receives the same replies, and ends with the same result
(`Weave.serial`). What a task sees is a relation on states that its own
operations respect and the other's do not disturb (`Shielded`).
-/

namespace Effects

open Program

variable {σ : Signature} {ε α β S F : Type}

/-- Two tasks and the state they share. -/
structure Weave (p : Program σ ε α) (q : Program σ ε β) (S : Type) where
  left : Task p
  right : Task q
  state : S

/-- Which of two tasks takes the next step. -/
inductive Side
  | left
  | right
deriving DecidableEq

def Side.swap : Side → Side
  | .left => .right
  | .right => .left

/-- The choices of the surroundings for the operations of one side. -/
def choices (side : Side) (es : List (Side × F)) : List F :=
  (es.filter fun e => e.1 = side).map (·.2)

/-- A program run alone takes its choices from a list, and `default` after its end. -/
def feed (answer : F → Answer σ S) (default : F) : Answer σ (S × List F) := fun s o =>
  let r := answer (s.2.headD default) s.1 o
  (r.1, r.2, s.2.tail)

namespace Weave

variable {p : Program σ ε α} {q : Program σ ε β}

def begin (p : Program σ ε α) (q : Program σ ε β) (s : S) : Weave p q S :=
  ⟨.begin p, .begin q, s⟩

/-- The next operation of one side is answered. -/
def step (answer : F → Answer σ S) (w : Weave p q S) : Side × F → Option (Weave p q S)
  | (.left, f) => (w.left.step (answer f) w.state).map fun r => ⟨r.2.1, w.right, r.2.2⟩
  | (.right, f) => (w.right.step (answer f) w.state).map fun r => ⟨w.left, r.2.1, r.2.2⟩

def swap (w : Weave p q S) : Weave q p S := ⟨w.right, w.left, w.state⟩

variable {answer : F → Answer σ S} {w w' : Weave p q S}

/-- What a step of the left task does. -/
theorem step_left {f : F} (h : w.step answer (.left, f) = some w') : ∃ o k,
    w.left.rest = .call o k ∧ w'.left.rest = k (answer f w.state o).1 ∧
      w'.left.history = w.left.history ++ [⟨o, (answer f w.state o).1⟩] ∧
      w'.right = w.right ∧ w'.state = (answer f w.state o).2 := by
  obtain ⟨⟨e, t, s⟩, hstep, rfl⟩ := Option.map_eq_some_iff.1 h
  obtain ⟨k, hrest, hreply, hhistory, hrest', hs⟩ := Task.step_some hstep
  refine ⟨e.1, k, hrest, ?_, ?_, rfl, hs⟩
  · rw [← hreply]
    exact hrest'
  · rw [← hreply]
    exact hhistory

theorem step_swap (e : Side × F) :
    w.swap.step answer (e.1.swap, e.2) = (w.step answer e).map swap := by
  obtain ⟨side, f⟩ := e
  cases side with
  | left =>
    show (w.left.step (answer f) w.state).map _ = ((w.left.step (answer f) w.state).map _).map swap
    rw [Option.map_map]
    rfl
  | right =>
    show (w.right.step (answer f) w.state).map _ =
      ((w.right.step (answer f) w.state).map _).map swap
    rw [Option.map_map]
    rfl

/-- An interleaving with its sides exchanged. -/
theorem run_swap {es : List (Side × F)} (h : runSteps (step answer) w es = some w') :
    runSteps (step answer) w.swap (es.map fun e => (e.1.swap, e.2)) = some w'.swap := by
  induction es generalizing w with
  | nil => cases h; rfl
  | cons e es ih =>
    obtain ⟨w₁, hstep, hrun⟩ := runSteps_cons.1 h
    refine runSteps_cons.2 ⟨w₁.swap, ?_, ih hrun⟩
    rw [step_swap, hstep]
    rfl

theorem choices_swap (side : Side) (es : List (Side × F)) :
    choices side.swap (es.map fun e => (e.1.swap, e.2)) = choices side es := by
  induction es with
  | nil => rfl
  | cons e es ih =>
    obtain ⟨side', f⟩ := e
    have hsame : (side'.swap = side.swap) = (side' = side) := by
      cases side <;> cases side' <;> simp [Side.swap]
    unfold choices at ih ⊢
    simp only [List.map_cons, List.filter_cons, hsame]
    split
    · rw [List.map_cons, List.map_cons, ih]
    · exact ih

end Weave

/-! ## Tasks that do not see each other -/

/-- What a task with operations in `own` sees of the state: its operations
are answered alike in related states, which stay related, and those in `other`
leave a state that is related to what it was. -/
structure Shielded (answer : F → Answer σ S) (R : S → S → Prop) (own other : σ.Op → Prop) :
    Prop where
  equivalence : Equivalence R
  own : ∀ f o {s s'}, own o → R s s' →
    (answer f s o).1 = (answer f s' o).1 ∧ R (answer f s o).2 (answer f s' o).2
  other : ∀ f o {s}, other o → R (answer f s o).2 s

namespace Shielded

variable {answer : F → Answer σ S} {R : S → S → Prop} {own other : σ.Op → Prop}

/-- A program with operations of the other kind runs unseen. -/
theorem run_other (h : Shielded answer R own other) (default : F) {q : Program σ ε β}
    (hq : q.Only other) (s : S) (fs : List F) : R (q.run (feed answer default) (s, fs)).2.1 s := by
  induction q generalizing s fs with
  | pure b => exact h.equivalence.refl s
  | throw e => exact h.equivalence.refl s
  | call o k ih =>
    have hrest := ih (answer (fs.headD default) s o).1 (hq.2 _)
      (answer (fs.headD default) s o).2 fs.tail
    exact h.equivalence.trans hrest (h.other _ o hq.1)

/-- The left task of an interleaving that completes it, from what it has done
already, goes on as it would alone from any state that looks the same to it. -/
theorem left_alone (h : Shielded answer R own other) (default : F) {p : Program σ ε α}
    {q : Program σ ε β} {w w' : Weave p q S} {es : List (Side × F)} {s : S} {a : α}
    (hrun : runSteps (Weave.step answer) w es = some w') (hR : R w.state s)
    (hleft : w.left.rest.Only own) (hright : w.right.rest.Only other)
    (hdone : w'.left.rest = .pure a) :
    (w.left.rest.run (feed answer default) (s, choices .left es)).1 = .ok a ∧
      w'.left.history =
        w.left.history ++ w.left.rest.trace (feed answer default) (s, choices .left es) ∧
      R w'.state (w.left.rest.run (feed answer default) (s, choices .left es)).2.1 := by
  induction es generalizing w s with
  | nil =>
    cases hrun
    rw [hdone]
    exact ⟨rfl, (List.append_nil _).symm, hR⟩
  | cons e es ih =>
    obtain ⟨w₁, hstep, hrun₁⟩ := runSteps_cons.1 hrun
    obtain ⟨side, f⟩ := e
    cases side with
    | left =>
      obtain ⟨o, k, hrest, hrest₁, hhistory₁, hright₁, hstate₁⟩ := Weave.step_left hstep
      rw [hrest] at hleft
      obtain ⟨hsame, hR₁⟩ := h.own f o hleft.1 hR
      have hstep₁ := ih (s := (answer f s o).2) hrun₁ (by rw [hstate₁]; exact hR₁)
        (by rw [hrest₁]; exact hleft.2 _) (by rw [hright₁]; exact hright)
      rw [hrest₁, hhistory₁, hsame] at hstep₁
      have hchoices : choices Side.left ((Side.left, f) :: es) = f :: choices Side.left es := rfl
      rw [hrest, hchoices]
      refine ⟨hstep₁.1, ?_, hstep₁.2.2⟩
      rw [hstep₁.2.1, List.append_assoc]
      rfl
    | right =>
      have hswap : w.swap.step answer (.left, f) = some w₁.swap := by
        have heq := @Weave.step_swap _ _ _ _ _ _ _ _ answer w (.right, f)
        rw [hstep] at heq
        exact heq
      obtain ⟨o, k, hrest, hrest₁, _, hleft₁, hstate₁⟩ := Weave.step_left hswap
      have hright' : (Program.call o k).Only other := hrest ▸ hright
      have hR₁ : R w₁.state s := by
        have hunseen : R (answer f w.state o).2 w.state := h.other f o hright'.1
        have hstate : w₁.state = (answer f w.state o).2 := hstate₁
        rw [hstate]
        exact h.equivalence.trans hunseen hR
      have hleft' : w₁.left = w.left := hleft₁
      have hrest' : w₁.right.rest = k (answer f w.state o).1 := hrest₁
      have hstep₁ := ih hrun₁ hR₁ (by rw [hleft']; exact hleft) (by rw [hrest']; exact hright'.2 _)
      rw [hleft'] at hstep₁
      exact hstep₁

end Shielded

namespace Weave

/-- The interleaving is as good as the left task and then the right one: both
were answered the same and ended the same, and `R` cannot tell the states. -/
structure InOrder (answer : F → Answer σ S) (default : F) (R : S → S → Prop) {p : Program σ ε α}
    {q : Program σ ε β} (s : S) (fs gs : List F) (w : Weave p q S) (a : α) (b : β) : Prop where
  first : (p.run (feed answer default) (s, fs)).1 = .ok a
  firstHistory : w.left.history = p.trace (feed answer default) (s, fs)
  second : (q.run (feed answer default) ((p.run (feed answer default) (s, fs)).2.1, gs)).1 = .ok b
  secondHistory : w.right.history =
    q.trace (feed answer default) ((p.run (feed answer default) (s, fs)).2.1, gs)
  state : R w.state
    (q.run (feed answer default) ((p.run (feed answer default) (s, fs)).2.1, gs)).2.1

variable {answer : F → Answer σ S} {R R' : S → S → Prop} {own other : σ.Op → Prop}
  {p : Program σ ε α} {q : Program σ ε β} {s : S} {es : List (Side × F)} {w : Weave p q S} {a : α}
  {b : β}

/-- **No interference**: when neither task sees the other, an interleaving
that completes both is as good as the left one followed by the right one. -/
theorem inOrder (h : Shielded answer R own other) (h' : Shielded answer R' other own)
    (default : F) (hp : p.Only own) (hq : q.Only other)
    (hrun : runSteps (step answer) (begin p q s) es = some w)
    (hleft : w.left.rest = .pure a) (hright : w.right.rest = .pure b) :
    InOrder answer default (fun x y => R x y ∧ R' x y) s (choices .left es) (choices .right es)
      w a b := by
  obtain ⟨hfirst, hhistory, hR⟩ :=
    h.left_alone default hrun (h.equivalence.refl s) hp hq hleft
  -- the right task starts from what the left one alone left behind
  have hstart : R' s (p.run (feed answer default) (s, choices .left es)).2.1 :=
    h'.equivalence.symm (h'.run_other default hp s (choices .left es))
  obtain ⟨hsecond, hhistory', hR'⟩ :=
    h'.left_alone default (run_swap hrun) hstart hq hp hright
  have hchoices := @choices_swap F .right es
  have hchoices' : choices Side.left (es.map fun e => (e.1.swap, e.2)) = choices .right es :=
    hchoices
  rw [hchoices'] at hsecond hhistory' hR'
  refine ⟨hfirst, hhistory, hsecond, hhistory', ?_, hR'⟩
  exact h.equivalence.trans hR (h.equivalence.symm (h.run_other default hq _ _))

/-- And as good as the right one followed by the left one. -/
theorem inOrder_swap (h : Shielded answer R own other) (h' : Shielded answer R' other own)
    (default : F) (hp : p.Only own) (hq : q.Only other)
    (hrun : runSteps (step answer) (begin p q s) es = some w) (hleft : w.left.rest = .pure a)
    (hright : w.right.rest = .pure b) :
    InOrder answer default (fun x y => R' x y ∧ R x y) s (choices .right es) (choices .left es)
      w.swap b a := by
  have hswap := inOrder h' h default hq hp (run_swap hrun) hright hleft
  have hright' : choices Side.left (es.map fun e => (e.1.swap, e.2)) = choices .right es :=
    choices_swap .right es
  have hleft' : choices Side.right (es.map fun e => (e.1.swap, e.2)) = choices .left es :=
    choices_swap .left es
  rw [hright', hleft'] at hswap
  exact hswap

end Weave

end Effects
