import LogisticService.Effects.Program

/-!
# Contracts on the operations of a program

`p.Meets R G Q h` says: after the history `h`, whatever replies the relation
`R` allows, every operation `p` asks for satisfies `G` of the history up to
it, and every value it ends with satisfies `Q` of the whole history. A
contract speaks of all traces at once, unfinished ones included, so it bounds
what a program does however its operations are interleaved with others
(`Meets.issued`, `Meets.result`).
-/

namespace Effects

namespace Program

variable {σ : Signature} {ε α β : Type}

/-- The program keeps the guard `G` and ends in `Q`, on replies allowed by `R`. -/
def Meets (R : (o : σ.Op) → σ.Reply o → Prop) (G : List (Answered σ) → σ.Op → Prop)
    (Q : List (Answered σ) → α → Prop) : List (Answered σ) → Program σ ε α → Prop
  | h, .pure a => Q h a
  | _, .throw _ => True
  | h, .call o k => G h o ∧ ∀ r, R o r → Meets R G Q (h ++ [⟨o, r⟩]) (k r)

/-- Every operation of a history satisfies the guard of the history before it. -/
def Kept (G : List (Answered σ) → σ.Op → Prop) (h : List (Answered σ)) : Prop :=
  ∀ h₁ e h₂, h = h₁ ++ e :: h₂ → G h₁ e.1

theorem Kept.nil {G : List (Answered σ) → σ.Op → Prop} : Kept G [] :=
  fun h₁ e h₂ h => absurd h (by simp)

theorem Kept.snoc {G : List (Answered σ) → σ.Op → Prop} {h : List (Answered σ)}
    (hk : Kept G h) {e : Answered σ} (he : G h e.1) : Kept G (h ++ [e]) := by
  intro h₁ e' h₂ heq
  rcases List.eq_nil_or_concat h₂ with rfl | ⟨h₃, e₃, rfl⟩
  · obtain ⟨rfl, hlast⟩ := List.append_inj' heq rfl
    cases hlast
    exact he
  · have heq' : h ++ [e] = (h₁ ++ e' :: h₃) ++ [e₃] := by simpa using heq
    exact hk h₁ e' h₃ (List.append_inj' heq' rfl).1

theorem Kept.of_snoc {G : List (Answered σ) → σ.Op → Prop} {h : List (Answered σ)}
    {e : Answered σ} (hk : Kept G (h ++ [e])) : Kept G h ∧ G h e.1 :=
  ⟨fun h₁ e' h₂ heq => hk h₁ e' (h₂ ++ [e]) (by simp [heq]), hk h e [] rfl⟩

/-- Of two operations of a history, one came before the other. -/
theorem Kept.ordered {G : List (Answered σ) → σ.Op → Prop} {h : List (Answered σ)}
    (hk : Kept G h) {e e' : Answered σ} (he : e ∈ h) (he' : e' ∈ h) (hne : e ≠ e') :
    (∃ h₁, e ∈ h₁ ∧ G h₁ e'.1) ∨ ∃ h₁, e' ∈ h₁ ∧ G h₁ e.1 := by
  obtain ⟨h₁, h₂, rfl⟩ := List.append_of_mem he
  rcases List.mem_append.1 he' with hin | hin
  · exact .inr ⟨h₁, hin, hk h₁ e h₂ rfl⟩
  · rcases List.mem_cons.1 hin with rfl | hin
    · exact absurd rfl hne
    · obtain ⟨h₃, h₄, rfl⟩ := List.append_of_mem hin
      exact .inl ⟨h₁ ++ e :: h₃, by simp, hk _ e' h₄ (by simp)⟩

namespace Meets

variable {R : (o : σ.Op) → σ.Reply o → Prop} {G : List (Answered σ) → σ.Op → Prop}
  {Q : List (Answered σ) → α → Prop} {h : List (Answered σ)}

theorem throw (e : ε) : Meets R G Q h (.throw e) := trivial

/-- A weaker relation on replies, a weaker guard and a weaker end. -/
theorem mono {R' : (o : σ.Op) → σ.Reply o → Prop} {G' : List (Answered σ) → σ.Op → Prop}
    {Q' : List (Answered σ) → α → Prop} (hR : ∀ o r, R' o r → R o r)
    (hG : ∀ h o, G h o → G' h o) (hQ : ∀ h a, Q h a → Q' h a) {p : Program σ ε α}
    (hp : p.Meets R G Q h) : p.Meets R' G' Q' h := by
  induction p generalizing h with
  | pure a => exact hQ h a hp
  | throw e => trivial
  | call o k ih => exact ⟨hG h o hp.1, fun r hr => ih r (hp.2 r (hR o r hr))⟩

/-- Two contracts at once. -/
theorem and {G' : List (Answered σ) → σ.Op → Prop} {Q' : List (Answered σ) → α → Prop}
    {p : Program σ ε α} (hp : p.Meets R G Q h) (hp' : p.Meets R G' Q' h) :
    p.Meets R (fun h o => G h o ∧ G' h o) (fun h a => Q h a ∧ Q' h a) h := by
  induction p generalizing h with
  | pure a => exact ⟨hp, hp'⟩
  | throw e => trivial
  | call o k ih => exact ⟨⟨hp.1, hp'.1⟩, fun r hr => ih r (hp.2 r hr) (hp'.2 r hr)⟩

/-- The end of the first part is where the second part starts. -/
theorem bind {Q' : List (Answered σ) → β → Prop} {p : Program σ ε α} {f : α → Program σ ε β}
    (hp : p.Meets R G Q h) (hf : ∀ h' a, Q h' a → (f a).Meets R G Q' h') :
    (p >>= f).Meets R G Q' h := by
  induction p generalizing h with
  | pure a => exact hf h a hp
  | throw e => trivial
  | call o k ih => exact ⟨hp.1, fun r hr => ih r (hp.2 r hr)⟩

theorem perform {o : σ.Op} {Q : List (Answered σ) → σ.Reply o → Prop} (hG : G h o)
    (hQ : ∀ r, R o r → Q (h ++ [⟨o, r⟩]) r) : (perform o : Program σ ε _).Meets R G Q h :=
  ⟨hG, hQ⟩

theorem ofExcept {x : Except ε α} (hQ : ∀ a, x = .ok a → Q h a) :
    (ofExcept x : Program σ ε α).Meets R G Q h := by
  cases x with
  | ok a => exact hQ a rfl
  | error e => trivial

/-- A contract is kept along every trace of allowed replies. -/
theorem leads {p q : Program σ ε α} {t : List (Answered σ)} (hp : p.Meets R G Q h)
    (hl : Leads p t q) (ht : ∀ e ∈ t, R e.1 e.2) : q.Meets R G Q (h ++ t) := by
  induction hl generalizing h with
  | refl p => simpa using hp
  | call r _ ih =>
    have hr := ht _ List.mem_cons_self
    have := ih (hp.2 r hr) fun e he => ht e (List.mem_cons_of_mem _ he)
    simpa using this

/-- Every answered operation satisfied the guard when it was asked for. -/
theorem kept {p q : Program σ ε α} {t : List (Answered σ)} (hp : p.Meets R G Q h)
    (hl : Leads p t q) (ht : ∀ e ∈ t, R e.1 e.2) (hh : Kept G h) : Kept G (h ++ t) := by
  induction hl generalizing h with
  | refl p => simpa using hh
  | call r _ ih =>
    have hr := ht _ List.mem_cons_self
    have hrest := ih (hp.2 r hr) (fun e he => ht e (List.mem_cons_of_mem _ he))
      (hh.snoc hp.1)
    simpa using hrest

/-- Every operation a program asks for satisfies the guard. -/
theorem issued {p : Program σ ε α} {t : List (Answered σ)} {o : σ.Op}
    {k : σ.Reply o → Program σ ε α} (hp : p.Meets R G Q []) (hl : Leads p t (.call o k))
    (ht : ∀ e ∈ t, R e.1 e.2) : G t o := by
  simpa using (hp.leads hl ht).1

/-- Every value a program ends with satisfies the end condition. -/
theorem result {p : Program σ ε α} {t : List (Answered σ)} {a : α} (hp : p.Meets R G Q [])
    (hl : Leads p t (.pure a)) (ht : ∀ e ∈ t, R e.1 e.2) : Q t a := by
  simpa [Meets] using hp.leads hl ht

end Meets

/-! ## Programs that always return -/

/-- Whatever the replies, the program ends without an exception, in `Q`. -/
def Returns (Q : α → Prop) : Program σ ε α → Prop
  | .pure a => Q a
  | .throw _ => False
  | .call _ k => ∀ r, Returns Q (k r)

namespace Returns

variable {Q : α → Prop}

theorem bind {Q' : β → Prop} {p : Program σ ε α} {f : α → Program σ ε β} (hp : p.Returns Q)
    (hf : ∀ a, Q a → (f a).Returns Q') : (p >>= f).Returns Q' := by
  induction p with
  | pure a => exact hf a hp
  | throw e => exact hp.elim
  | call o k ih => exact fun r => ih r (hp r)

theorem ofExcept {x : Except ε α} {a : α} (hx : x = .ok a) (hQ : Q a) :
    (ofExcept x : Program σ ε α).Returns Q := by
  rw [hx]
  exact hQ

/-- Run alone from any state, it ends without an exception. -/
theorem finishes {S : Type} {p : Program σ ε α} (hp : p.Returns Q) (answer : Answer σ S) (s : S) :
    p.Finishes answer s := by
  induction p generalizing s with
  | pure a => exact .pure a
  | throw e => exact hp.elim
  | call o k ih => exact ih _ (hp _) _

/-- No trace of such a program ends in an exception. -/
theorem leads {p q : Program σ ε α} {t : List (Answered σ)} (hp : p.Returns Q)
    (hl : Leads p t q) : q.Returns Q := by
  induction hl with
  | refl p => exact hp
  | call r _ ih => exact ih (hp r)

end Returns

/-- Whatever the replies that `R` allows, the program ends without an
exception, in `Q`. -/
def ReturnsOn (R : (o : σ.Op) → σ.Reply o → Prop) (Q : α → Prop) : Program σ ε α → Prop
  | .pure a => Q a
  | .throw _ => False
  | .call o k => ∀ r, R o r → ReturnsOn R Q (k r)

theorem Returns.on {R : (o : σ.Op) → σ.Reply o → Prop} {Q : α → Prop} {p : Program σ ε α}
    (hp : p.Returns Q) : p.ReturnsOn R Q := by
  induction p with
  | pure a => exact hp
  | throw e => exact hp.elim
  | call o k ih => exact fun r _ => ih r (hp r)

namespace ReturnsOn

variable {R : (o : σ.Op) → σ.Reply o → Prop} {Q : α → Prop}

theorem bind {Q' : β → Prop} {p : Program σ ε α} {f : α → Program σ ε β} (hp : p.ReturnsOn R Q)
    (hf : ∀ a, Q a → (f a).ReturnsOn R Q') : (p >>= f).ReturnsOn R Q' := by
  induction p with
  | pure a => exact hf a hp
  | throw e => exact hp.elim
  | call o k ih => exact fun r hr => ih r (hp r hr)

theorem mono {Q' : α → Prop} {p : Program σ ε α} (hp : p.ReturnsOn R Q) (hQ : ∀ a, Q a → Q' a) :
    p.ReturnsOn R Q' := by
  induction p with
  | pure a => exact hQ a hp
  | throw e => exact hp.elim
  | call o k ih => exact fun r hr => ih r (hp r hr)

/-- No trace of allowed replies ends in an exception. -/
theorem leads {p q : Program σ ε α} {t : List (Answered σ)} (hp : p.ReturnsOn R Q)
    (hl : Leads p t q) (ht : ∀ e ∈ t, R e.1 e.2) : q.ReturnsOn R Q := by
  induction hl with
  | refl p => exact hp
  | call r _ ih =>
    exact ih (hp r (ht _ List.mem_cons_self)) fun e he => ht e (List.mem_cons_of_mem _ he)

end ReturnsOn

/-! ## The operations of a program -/

/-- Whatever the replies, every operation the program asks for is in `G`. -/
def Only (G : σ.Op → Prop) : Program σ ε α → Prop
  | .pure _ => True
  | .throw _ => True
  | .call o k => G o ∧ ∀ r, Only G (k r)

namespace Only

variable {G : σ.Op → Prop}

theorem bind {p : Program σ ε α} {f : α → Program σ ε β} (hp : p.Only G)
    (hf : ∀ a, (f a).Only G) : (p >>= f).Only G := by
  induction p with
  | pure a => exact hf a
  | throw e => trivial
  | call o k ih => exact ⟨hp.1, fun r => ih r (hp.2 r)⟩

theorem mono {G' : σ.Op → Prop} {p : Program σ ε α} (hp : p.Only G) (h : ∀ o, G o → G' o) :
    p.Only G' := by
  induction p with
  | pure a => trivial
  | throw e => trivial
  | call o k ih => exact ⟨h o hp.1, fun r => ih r (hp.2 r)⟩

/-- What every operation of `G` keeps, the program keeps. -/
theorem meets {R : (o : σ.Op) → σ.Reply o → Prop} {G' : List (Answered σ) → σ.Op → Prop}
    {P : List (Answered σ) → Prop} (hG : ∀ h o, P h → G o → G' h o)
    (hP : ∀ h o r, P h → G o → P (h ++ [⟨o, r⟩])) {p : Program σ ε α} (hp : p.Only G)
    {h : List (Answered σ)} (hh : P h) : p.Meets R G' (fun h' _ => P h') h := by
  induction p generalizing h with
  | pure a => exact hh
  | throw e => trivial
  | call o k ih => exact ⟨hG h o hh hp.1, fun r _ => ih r (hp.2 r) (hP h o r hh hp.1)⟩

/-- What follows a computation that asks for nothing. -/
theorem ofExcept_bind {x : Except ε α} {f : α → Program σ ε β}
    (hf : ∀ a, x = .ok a → (f a).Only G) : (Program.ofExcept x >>= f).Only G := by
  cases x with
  | ok a => exact hf a rfl
  | error e => trivial

end Only

/-! ## The length of a program -/

/-- Whatever the replies, the program asks for at most so many operations. -/
def Short : Nat → Program σ ε α → Prop
  | _, .pure _ => True
  | _, .throw _ => True
  | 0, .call _ _ => False
  | n + 1, .call _ k => ∀ r, Short n (k r)

namespace Short

variable {n m : Nat}

theorem mono {p : Program σ ε α} (hp : p.Short n) (h : n ≤ m) : p.Short m := by
  induction p generalizing n m with
  | pure a => cases m <;> trivial
  | throw e => cases m <;> trivial
  | call o k ih =>
    cases n with
    | zero => exact hp.elim
    | succ n =>
      cases m with
      | zero => cases h
      | succ m => exact fun r => ih r (hp r) (Nat.le_of_succ_le_succ h)

theorem pure (a : α) : (Program.pure a : Program σ ε α).Short n := by
  cases n <;> trivial

theorem bind {p : Program σ ε α} {f : α → Program σ ε β} (hp : p.Short n)
    (hf : ∀ a, (f a).Short m) : (p >>= f).Short (n + m) := by
  induction p generalizing n with
  | pure a => exact (hf a).mono (Nat.le_add_left m n)
  | throw e => cases n + m <;> trivial
  | call o k ih =>
    cases n with
    | zero => exact hp.elim
    | succ n =>
      rw [Nat.succ_add]
      exact fun r => ih r (hp r)

theorem ofExcept (x : Except ε α) : (Program.ofExcept x : Program σ ε α).Short n := by
  cases x with
  | ok a => exact Short.pure a
  | error e => cases n <;> trivial

/-- What follows a computation that asks for nothing. -/
theorem ofExcept_bind {x : Except ε α} {f : α → Program σ ε β} (hf : ∀ a, (f a).Short n) :
    (Program.ofExcept x >>= f).Short n := by
  cases x with
  | ok a => exact hf a
  | error e => cases n <;> trivial

/-- A short program within what is left of a bound on the whole history. -/
theorem meets {p : Program σ ε α} (hp : p.Short n) {R : (o : σ.Op) → σ.Reply o → Prop}
    {h : List (Answered σ)} {left : Nat} (hleft : h.length + n ≤ left) :
    p.Meets R (fun h _ => h.length < left) (fun h' _ => h'.length ≤ h.length + n) h := by
  induction p generalizing n h with
  | pure a => exact Nat.le_add_right _ _
  | throw e => trivial
  | call o k ih =>
    cases n with
    | zero => exact hp.elim
    | succ n =>
      refine ⟨by omega, fun r _ => ?_⟩
      have hlength : (h ++ [(⟨o, r⟩ : Answered σ)]).length = h.length + 1 := List.length_append
      refine (ih r (hp r) (by omega)).mono (fun _ _ h => h) (fun _ _ h => h) fun h' _ hh' => ?_
      rw [hlength] at hh'
      omega

end Short

end Program

end Effects
