import Mathlib.Logic.Basic

/-!
# Programs over an effect signature

A program is a finite tree of operations asked of its surroundings, each with a
continuation for every possible reply, ending in a value or in an uncaught
exception. Nothing is said here about how the surroundings answer: the same
program is run on its own (`Program.run`), or one operation at a time between
the operations of other programs.

`Leads p t q` says that `p`, answered along the trace `t`, is left with `q`.
Traces of a sequence split into traces of its parts (`Leads.bind_inv`).
-/

namespace Effects

/-- The operations a program may ask for, and the type of the reply to each. -/
structure Signature where
  Op : Type
  Reply : Op → Type

/-- One operation with the reply it received. -/
abbrev Answered (σ : Signature) := (o : σ.Op) × σ.Reply o

/-- A program over `σ`, with result `α` and exceptions `ε`. -/
inductive Program (σ : Signature) (ε α : Type) : Type
  | pure (a : α)
  | throw (e : ε)
  | call (o : σ.Op) (k : σ.Reply o → Program σ ε α)

namespace Program

variable {σ : Signature} {ε α β γ : Type}

protected def bind : Program σ ε α → (α → Program σ ε β) → Program σ ε β
  | .pure a, f => f a
  | .throw e, _ => .throw e
  | .call o k, f => .call o fun r => (k r).bind f

instance : Monad (Program σ ε) where
  pure := Program.pure
  bind := Program.bind

/-- Ask for one operation and return its reply. -/
def perform (o : σ.Op) : Program σ ε (σ.Reply o) := .call o .pure

/-- A computation that asks for nothing but may throw. -/
def ofExcept : Except ε α → Program σ ε α
  | .ok a => .pure a
  | .error e => .throw e

@[simp] theorem pure_bind' (a : α) (f : α → Program σ ε β) :
    (Program.pure a >>= f) = f a := rfl

@[simp] theorem monad_pure (a : α) : (Pure.pure a : Program σ ε α) = .pure a := rfl

@[simp] theorem throw_bind (e : ε) (f : α → Program σ ε β) :
    ((Program.throw e : Program σ ε α) >>= f) = .throw e := rfl

@[simp] theorem call_bind (o : σ.Op) (k : σ.Reply o → Program σ ε α) (f : α → Program σ ε β) :
    (Program.call o k >>= f) = .call o fun r => k r >>= f := rfl

@[simp] theorem ofExcept_ok (a : α) : (ofExcept (.ok a) : Program σ ε α) = .pure a := rfl

@[simp] theorem ofExcept_error (e : ε) : (ofExcept (.error e) : Program σ ε α) = .throw e := rfl

@[simp] theorem perform_bind (o : σ.Op) (f : σ.Reply o → Program σ ε β) :
    (perform o >>= f) = .call o f := rfl

theorem bind_pure' (p : Program σ ε α) : (p >>= Program.pure) = p := by
  induction p with
  | pure a => rfl
  | throw e => rfl
  | call o k ih => simp only [call_bind, ih]

theorem bind_assoc' (p : Program σ ε α) (f : α → Program σ ε β) (g : β → Program σ ε γ) :
    ((p >>= f) >>= g) = (p >>= fun a => f a >>= g) := by
  induction p with
  | pure a => rfl
  | throw e => rfl
  | call o k ih => simp only [call_bind, ih]

instance : LawfulMonad (Program σ ε) :=
  LawfulMonad.mk' _ (fun p => bind_pure' p) (fun _ _ => rfl) bind_assoc'

/-! ## Running a program alone -/

/-- How one state of the surroundings answers an operation. -/
abbrev Answer (σ : Signature) (S : Type) := S → (o : σ.Op) → σ.Reply o × S

/-- Run a program to its end with nothing in between its operations. -/
def run {S : Type} (answer : Answer σ S) : Program σ ε α → S → Except ε α × S
  | .pure a, s => (.ok a, s)
  | .throw e, s => (.error e, s)
  | .call o k, s => (k (answer s o).1).run answer (answer s o).2

/-- The state after the first operation of a program. -/
def afterFirst {S : Type} (answer : Answer σ S) : Program σ ε α → S → S
  | .call o _, s => (answer s o).2
  | _, s => s

section Run

variable {S : Type} (answer : Answer σ S)

@[simp] theorem run_pure (a : α) (s : S) :
    (Program.pure a : Program σ ε α).run answer s = (.ok a, s) := rfl

@[simp] theorem run_throw (e : ε) (s : S) :
    (Program.throw e : Program σ ε α).run answer s = (.error e, s) := rfl

@[simp] theorem run_call (o : σ.Op) (k : σ.Reply o → Program σ ε α) (s : S) :
    (Program.call o k).run answer s = (k (answer s o).1).run answer (answer s o).2 := rfl

theorem run_bind (p : Program σ ε α) (f : α → Program σ ε β) (s : S) :
    (p >>= f).run answer s =
      match p.run answer s with
      | (.ok a, s') => (f a).run answer s'
      | (.error e, s') => (.error e, s') := by
  induction p generalizing s with
  | pure a => rfl
  | throw e => rfl
  | call o k ih => simp only [call_bind, run_call, ih]

/-- A sequence that ends normally is its first part, ending normally, and its
second part from there. -/
theorem run_bind_ok {p : Program σ ε α} {f : α → Program σ ε β} {s s'' : S} {b : β}
    (h : (p >>= f).run answer s = (.ok b, s'')) :
    ∃ a s', p.run answer s = (.ok a, s') ∧ (f a).run answer s' = (.ok b, s'') := by
  rw [run_bind] at h
  rcases hp : p.run answer s with ⟨r, s'⟩
  rw [hp] at h
  cases r with
  | ok a => exact ⟨a, s', rfl, h⟩
  | error e => simp at h

/-- Run alone from `s`, the program ends normally in `Q` only. -/
def Ends (p : Program σ ε α) (s : S) (Q : α → S → Prop) : Prop :=
  ∀ a s', p.run answer s = (.ok a, s') → Q a s'

namespace Ends

variable {answer} {s : S} {Q : α → S → Prop}

theorem pure {a : α} (h : Q a s) : (Program.pure a : Program σ ε α).Ends answer s Q := by
  intro a' s' hrun
  cases hrun
  exact h

theorem call {o : σ.Op} {k : σ.Reply o → Program σ ε α}
    (h : (k (answer s o).1).Ends answer (answer s o).2 Q) : (Program.call o k).Ends answer s Q := h

theorem bind {Q' : β → S → Prop} {p : Program σ ε α} {f : α → Program σ ε β}
    (hp : p.Ends answer s Q) (hf : ∀ a s', Q a s' → (f a).Ends answer s' Q') :
    (p >>= f).Ends answer s Q' := by
  intro b s'' hrun
  obtain ⟨a, s', hfirst, hnext⟩ := run_bind_ok answer hrun
  exact hf a s' (hp a s' hfirst) b s'' hnext

theorem ofExcept {x : Except ε α} (h : ∀ a, x = .ok a → Q a s) :
    (ofExcept x : Program σ ε α).Ends answer s Q := by
  cases x with
  | ok a => exact Ends.pure (h a rfl)
  | error e => intro a s' hrun; cases hrun

theorem mono {Q' : α → S → Prop} {p : Program σ ε α} (hp : p.Ends answer s Q)
    (h : ∀ a s', Q a s' → Q' a s') : p.Ends answer s Q' :=
  fun a s' hrun => h a s' (hp a s' hrun)

end Ends

/-- Run alone from `s`, the program ends normally. -/
def Finishes (p : Program σ ε α) (s : S) : Prop := ∃ a s', p.run answer s = (.ok a, s')

namespace Finishes

variable {answer} {s : S}

theorem pure (a : α) : (Program.pure a : Program σ ε α).Finishes answer s := ⟨a, s, rfl⟩

theorem bind {p : Program σ ε α} {f : α → Program σ ε β} (hp : p.Finishes answer s)
    (hf : ∀ a s', (f a).Finishes answer s') : (p >>= f).Finishes answer s := by
  obtain ⟨a, s', hrun⟩ := hp
  obtain ⟨b, s'', hnext⟩ := hf a s'
  refine ⟨b, s'', ?_⟩
  rw [run_bind, hrun]
  exact hnext

/-- A conversion has to get through, and the rest has to finish with its value. -/
theorem ofExcept_bind_iff {x : Except ε α} {f : α → Program σ ε β} :
    (Program.ofExcept x >>= f).Finishes answer s ↔ ∃ a, x = .ok a ∧ (f a).Finishes answer s := by
  cases x with
  | ok a => exact ⟨fun h => ⟨a, rfl, h⟩, fun ⟨_, ha, h⟩ => Except.ok.inj ha ▸ h⟩
  | error e =>
    constructor
    · rintro ⟨b, s', hrun⟩
      cases hrun
    · rintro ⟨_, ha, _⟩
      cases ha

end Finishes

end Run

/-- The operations answered in a run, in order. -/
def trace {S : Type} (answer : Answer σ S) : Program σ ε α → S → List (Answered σ)
  | .pure _, _ => []
  | .throw _, _ => []
  | .call o k, s => ⟨o, (answer s o).1⟩ :: (k (answer s o).1).trace answer (answer s o).2

section Trace

variable {S : Type} (answer : Answer σ S)

/-- The part of a trace that a sequence adds after its first part has ended. -/
theorem trace_bind_ok {p : Program σ ε α} {f : α → Program σ ε β} {s s' : S}
    {a : α} (h : p.run answer s = (.ok a, s')) :
    (p >>= f).trace answer s = p.trace answer s ++ (f a).trace answer s' := by
  induction p generalizing s with
  | pure a' => cases h; rfl
  | throw e => cases h
  | call o k ih => exact congrArg (List.cons _) (ih _ h)

theorem trace_bind_error {p : Program σ ε α} {f : α → Program σ ε β}
    {s s' : S} {e : ε} (h : p.run answer s = (.error e, s')) :
    (p >>= f).trace answer s = p.trace answer s := by
  induction p generalizing s with
  | pure a' => cases h
  | throw e' => rfl
  | call o k ih => exact congrArg (List.cons _) (ih _ h)

theorem trace_begins_bind (p : Program σ ε α) (f : α → Program σ ε β)
    (s : S) : p.trace answer s <+: (p >>= f).trace answer s := by
  rcases h : p.run answer s with ⟨r, s'⟩
  cases r with
  | ok a => rw [trace_bind_ok answer h]; exact List.prefix_append _ _
  | error e => exact ⟨[], by rw [trace_bind_error answer h, List.append_nil]⟩

end Trace

/-! ## Traces -/

/-- `p` answered along `t` is left with `q`. -/
inductive Leads : Program σ ε α → List (Answered σ) → Program σ ε α → Prop
  | refl (p : Program σ ε α) : Leads p [] p
  | call {o : σ.Op} {k : σ.Reply o → Program σ ε α} {t : List (Answered σ)}
      {q : Program σ ε α} (r : σ.Reply o) (h : Leads (k r) t q) :
      Leads (.call o k) (⟨o, r⟩ :: t) q

namespace Leads

/-- One more answer at the end of a trace. -/
theorem snoc {p : Program σ ε α} {t : List (Answered σ)} {o : σ.Op}
    {k : σ.Reply o → Program σ ε α} (h : Leads p t (.call o k)) (r : σ.Reply o) :
    Leads p (t ++ [⟨o, r⟩]) (k r) := by
  generalize hq : Program.call o k = q at h
  induction h with
  | refl => subst hq; exact .call r (.refl _)
  | call r' _ ih => exact .call r' (ih hq)

theorem trans {p q r : Program σ ε α} {t t' : List (Answered σ)} (h : Leads p t q)
    (h' : Leads q t' r) : Leads p (t ++ t') r := by
  induction h with
  | refl p => exact h'
  | call a _ ih => exact .call a (ih h')

/-- A trace leaves one program. -/
theorem unique {p q q' : Program σ ε α} {t : List (Answered σ)} (h : Leads p t q)
    (h' : Leads p t q') : q = q' := by
  induction h with
  | refl p => cases h'; rfl
  | call a _ ih =>
    cases h' with
    | call _ h' => exact ih h'

/-- What follows a program waits for it. -/
theorem bind {p q : Program σ ε α} {t : List (Answered σ)} (h : Leads p t q)
    (f : α → Program σ ε β) : Leads (p >>= f) t (q >>= f) := by
  induction h with
  | refl p => exact .refl _
  | call a _ ih => exact .call a ih

/-- A program run alone is led along the trace of its run. -/
theorem of_trace {S : Type} (answer : Answer σ S) (p : Program σ ε α) (s : S) :
    ∃ q, Leads p (p.trace answer s) q := by
  induction p generalizing s with
  | pure a => exact ⟨_, .refl _⟩
  | throw e => exact ⟨_, .refl _⟩
  | call o k ih =>
    obtain ⟨q, hq⟩ := ih (answer s o).1 (answer s o).2
    exact ⟨q, .call _ hq⟩

theorem pure_inv {a : α} {t : List (Answered σ)} {q : Program σ ε α}
    (h : Leads (.pure a) t q) : t = [] ∧ q = .pure a := by
  cases h; exact ⟨rfl, rfl⟩

theorem throw_inv {e : ε} {t : List (Answered σ)} {q : Program σ ε α}
    (h : Leads (.throw e) t q) : t = [] ∧ q = .throw e := by
  cases h; exact ⟨rfl, rfl⟩

/-- A finished trace of an operation starts with that operation's reply. -/
theorem call_pure_inv {o : σ.Op} {k : σ.Reply o → Program σ ε α} {t : List (Answered σ)} {a : α}
    (h : Leads (.call o k) t (.pure a)) : ∃ r t', t = ⟨o, r⟩ :: t' ∧ Leads (k r) t' (.pure a) := by
  cases h with
  | call r h => exact ⟨r, _, rfl, h⟩

/-- A finished trace of a sequence is a finished trace of its first part
followed by one of its second part. -/
theorem bind_inv {p : Program σ ε α} {f : α → Program σ ε β} {t : List (Answered σ)} {b : β}
    (h : Leads (p >>= f) t (.pure b)) :
    ∃ t₁ t₂ a, t = t₁ ++ t₂ ∧ Leads p t₁ (.pure a) ∧ Leads (f a) t₂ (.pure b) := by
  induction p generalizing t with
  | pure a => exact ⟨[], t, a, rfl, .refl _, h⟩
  | throw e => exact absurd (throw_inv h).2 (by simp)
  | call o k ih =>
    obtain ⟨r, t', rfl, h'⟩ := call_pure_inv h
    obtain ⟨t₁, t₂, a, rfl, h₁, h₂⟩ := ih r h'
    exact ⟨⟨o, r⟩ :: t₁, t₂, a, rfl, .call r h₁, h₂⟩

theorem ofExcept_inv {x : Except ε α} {t : List (Answered σ)} {a : α}
    (h : Leads (ofExcept x : Program σ ε α) t (.pure a)) : t = [] ∧ x = .ok a := by
  cases x with
  | ok b =>
    obtain ⟨rfl, hb⟩ := pure_inv h
    cases hb
    exact ⟨rfl, rfl⟩
  | error e => exact absurd (throw_inv h).2 (by simp)

end Leads

end Program

end Effects
