import LogisticService.Effects.Program
import Mathlib.Data.List.Forall2

/-!
# Programs in lockstep

Two programs that do the same thing in two ways: operation by operation they
ask for paired operations, until the second one gives up. `Tracks` is this
relation on programs, closed under sequencing (`Tracks.bind`); `Tracks.run`
says what it means for two runs in surroundings that answer paired operations
alike: either all replies agreed and both end the same way, or what the second
program did is what the first one did up to the reply at which it gave up.
-/

namespace Effects

namespace Program

variable {σ : Signature} {ε α β S S' : Type}

/-! ## Tracking -/

/-- How the operations of two programs correspond: which are paired, which
replies to them count as the same, and which replies make the second program
give up. -/
structure Pairing (σ : Signature) where
  pair : σ.Op → σ.Op → Prop
  agree : Answered σ → Answered σ → Prop
  halts : σ.Op → Answered σ → Prop

/-- The second program does what the first one does, or gives up with a value
in `stop`. -/
inductive Tracks (π : Pairing σ) (stop : α → Prop) : Program σ ε α → Program σ ε α → Prop
  | pure (a : α) : Tracks π stop (.pure a) (.pure a)
  | throw (e : ε) : Tracks π stop (.throw e) (.throw e)
  | call {o o' : σ.Op} {k : σ.Reply o → Program σ ε α} {k' : σ.Reply o' → Program σ ε α}
      (hpair : π.pair o o')
      (hgo : ∀ r r', π.agree ⟨o, r⟩ ⟨o', r'⟩ → ¬ π.halts o ⟨o', r'⟩ → Tracks π stop (k r) (k' r'))
      (hstop : ∀ r', π.halts o ⟨o', r'⟩ → ∃ b, k' r' = .pure b ∧ stop b) :
      Tracks π stop (.call o k) (.call o' k')

/-- Surroundings that answer paired operations alike, unless the second
program gives up on the reply, and stay alike. -/
def Pairing.KeptBy (π : Pairing σ) (answer : Answer σ S) (answer' : Answer σ S')
    (R : S → S' → Prop) : Prop :=
  ∀ s s' o o', R s s' → π.pair o o' → R (answer s o).2 (answer' s' o').2 ∧
    (π.halts o ⟨o', (answer' s' o').1⟩ ∨ π.agree ⟨o, (answer s o).1⟩ ⟨o', (answer' s' o').1⟩)

namespace Tracks

variable {π : Pairing σ}

/-- Sequences track each other part by part, when what follows a first part
that gave up gives up as well. -/
theorem bind {stop : α → Prop} {stop' : β → Prop} {p q : Program σ ε α}
    {f g : α → Program σ ε β} (h : Tracks π stop p q)
    (hgo : ∀ a, Tracks π stop' (f a) (g a))
    (hstop : ∀ a, stop a → ∃ b, g a = .pure b ∧ stop' b) :
    Tracks π stop' (p >>= f) (q >>= g) := by
  induction h with
  | pure a => exact hgo a
  | throw e => exact .throw e
  | call hpair _ hhalt ih =>
    refine .call hpair (fun r r' ha hn => ih r r' ha hn) fun r' hr => ?_
    obtain ⟨a, hk, ha⟩ := hhalt r' hr
    obtain ⟨b, hb, hb'⟩ := hstop a ha
    exact ⟨b, by rw [hk]; exact hb, hb'⟩

theorem ofExcept {stop : α → Prop} (x : Except ε α) :
    Tracks π stop (Program.ofExcept x) (Program.ofExcept x) := by
  cases x with
  | ok a => exact .pure a
  | error e => exact .throw e

/-- Two entries of two traces that correspond. -/
def Matched (π : Pairing σ) (e e' : Answered σ) : Prop :=
  π.pair e.1 e'.1 ∧ (π.halts e.1 e' ∨ π.agree e e')

/-- The second program went all the way with the first. -/
structure Together (π : Pairing σ) (answer : Answer σ S) (answer' : Answer σ S')
    (R : S → S' → Prop) (p q : Program σ ε α) (s : S) (s' : S') : Prop where
  traces : List.Forall₂ (Matched π) (p.trace answer s) (q.trace answer' s')
  results : (p.run answer s).1 = (q.run answer' s').1
  states : R (p.run answer s).2 (q.run answer' s').2

/-- The second program gave up on its last reply. -/
structure GaveUp (π : Pairing σ) (answer : Answer σ S) (answer' : Answer σ S') (stop : α → Prop)
    (p q : Program σ ε α) (s : S) (s' : S') : Prop where
  traces : ∃ t, t <+: p.trace answer s ∧ List.Forall₂ (Matched π) t (q.trace answer' s')
  halted : ∃ o, ∃ e ∈ q.trace answer' s', π.pair o e.1 ∧ π.halts o e
  stopped : ∃ b, (q.run answer' s').1 = .ok b ∧ stop b

/-- **Lockstep**: in surroundings that keep the pairing, the second program
goes all the way with the first, or gives up. -/
theorem run {answer : Answer σ S} {answer' : Answer σ S'} {R : S → S' → Prop} {stop : α → Prop}
    {p q : Program σ ε α} {s : S} {s' : S'} (hkept : π.KeptBy answer answer' R)
    (h : Tracks π stop p q) (hR : R s s') :
    Together π answer answer' R p q s s' ∨ GaveUp π answer answer' stop p q s s' := by
  induction h generalizing s s' with
  | pure a => exact .inl ⟨.nil, rfl, hR⟩
  | throw e => exact .inl ⟨.nil, rfl, hR⟩
  | @call o o' k k' hpair hgo hstop ih =>
    obtain ⟨hR', hreply⟩ := hkept s s' o o' hR hpair
    have hmatch : Matched π ⟨o, (answer s o).1⟩ ⟨o', (answer' s' o').1⟩ := ⟨hpair, hreply⟩
    by_cases hhalt : π.halts o ⟨o', (answer' s' o').1⟩
    · obtain ⟨b, hb, hb'⟩ := hstop _ hhalt
      have htrace : (Program.call o' k').trace answer' s' = [⟨o', (answer' s' o').1⟩] := by
        rw [trace, hb]
        rfl
      refine .inr ⟨⟨[⟨o, (answer s o).1⟩], ⟨_, rfl⟩, ?_⟩, ⟨o, _, ?_, hpair, hhalt⟩, b, ?_, hb'⟩
      · rw [htrace]
        exact .cons hmatch .nil
      · rw [htrace]
        exact List.mem_singleton_self _
      · rw [run_call, hb]
        rfl
    · rcases ih _ _ (hreply.resolve_left hhalt) hhalt hR' with htogether | hgave
      · exact .inl ⟨.cons hmatch htogether.traces, htogether.results, htogether.states⟩
      · obtain ⟨⟨t, ht, hmatched⟩, ⟨o₁, e, he, hpe, hhe⟩, hstopped⟩ := hgave
        refine .inr ⟨⟨⟨o, (answer s o).1⟩ :: t, ?_, .cons hmatch hmatched⟩, ?_, hstopped⟩
        · exact List.cons_prefix_cons.2 ⟨rfl, ht⟩
        · exact ⟨o₁, e, List.mem_cons_of_mem _ he, hpe, hhe⟩

end Tracks

end Program

end Effects
