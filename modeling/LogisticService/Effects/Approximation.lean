import LogisticService.Effects.Program
import Mathlib.Data.List.Infix

/-!
# Programs that were cut off

A program with unbounded loops is written with a bound on their turns and ends
in an exception of its own (`cut`) when the bound is reached. `p.Approx cut q`
says that `q` does what `p` does, and whatever it likes where `p` was cut off:
a run of `p` that is not cut off is the run of `q`, and what `p` asked for is
the beginning of what `q` asks for.
-/

namespace Effects

namespace Program

variable {σ : Signature} {ε α β S : Type} {cut : ε}

inductive Approx (cut : ε) : Program σ ε α → Program σ ε α → Prop
  | pure (a : α) : Approx cut (.pure a) (.pure a)
  | throw (e : ε) : Approx cut (.throw e) (.throw e)
  | cut (q : Program σ ε α) : Approx cut (.throw cut) q
  | call {o : σ.Op} {k k' : σ.Reply o → Program σ ε α} (h : ∀ r, Approx cut (k r) (k' r)) :
      Approx cut (.call o k) (.call o k')

namespace Approx

theorem refl (p : Program σ ε α) : Approx cut p p := by
  induction p with
  | pure a => exact .pure a
  | throw e => exact .throw e
  | call o k ih => exact .call ih

theorem trans {p q r : Program σ ε α} (h : Approx cut p q) (h' : Approx cut q r) :
    Approx cut p r := by
  induction h generalizing r with
  | pure a => exact h'
  | throw e => exact h'
  | cut q => exact .cut r
  | call h ih =>
    cases h' with
    | call h' => exact .call fun a => ih a (h' a)

theorem bind {p q : Program σ ε α} {f g : α → Program σ ε β} (h : Approx cut p q)
    (hf : ∀ a, Approx cut (f a) (g a)) : Approx cut (p >>= f) (q >>= g) := by
  induction h with
  | pure a => exact hf a
  | throw e => exact .throw e
  | cut q => exact .cut _
  | call h ih => exact .call ih

/-- The same first part, with what follows it cut off or not. -/
theorem bind_right (p : Program σ ε α) {f g : α → Program σ ε β}
    (hf : ∀ a, Approx cut (f a) (g a)) : Approx cut (p >>= f) (p >>= g) :=
  bind (refl p) hf

theorem ite {c : Prop} [Decidable c] {p p' q q' : Program σ ε α} (hp : Approx cut p p')
    (hq : Approx cut q q') : Approx cut (if c then p else q) (if c then p' else q') := by
  by_cases h : c
  · rwa [if_pos h, if_pos h]
  · rwa [if_neg h, if_neg h]

/-- A program that each bound approximates by the next is approximated by every smaller bound. -/
theorem of_succ {f : Nat → Program σ ε α} (h : ∀ n, Approx cut (f n) (f (n + 1))) {n m : Nat}
    (hle : n ≤ m) : Approx cut (f n) (f m) := by
  induction hle with
  | refl => exact refl _
  | step _ ih => exact ih.trans (h _)

variable (answer : Answer σ S)

/-- A run is cut off, or it is the run of every approximated program. -/
theorem run {p q : Program σ ε α} (h : Approx cut p q) (s : S) :
    (p.run answer s).1 = .error cut ∨ q.run answer s = p.run answer s := by
  induction h generalizing s with
  | pure a => exact .inr rfl
  | throw e => exact .inr rfl
  | cut q => exact .inl rfl
  | call h ih => exact ih _ _

theorem trace {p q : Program σ ε α} (h : Approx cut p q) (s : S) :
    p.trace answer s <+: q.trace answer s := by
  induction h generalizing s with
  | pure a => exact List.prefix_rfl
  | throw e => exact List.prefix_rfl
  | cut q => exact List.nil_prefix
  | call h ih => exact List.cons_prefix_cons.2 ⟨rfl, ih _ _⟩

end Approx

end Program

end Effects
