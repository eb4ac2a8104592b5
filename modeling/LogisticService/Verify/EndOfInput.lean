import LogisticService.Verify.Session

/-!
# The menus at the end of the input

At the end of the input `get_int_input` returns the smallest option, which is
always an option to go on: connect, log in, send a message. No menu returns
from there with a connection, and the first menu asks again without one. So
the client halts just in the runs in which no menu asks for an option at the
end of the input (`halts_iff`), whatever connections, exchanges and the
database do, as long as they return.
-/

namespace LogisticService

open Effects CLib Program

/-- A menu that asks for an option finds the end of the input. -/
def isEnd : Answered Console → Bool
  | ⟨.fgets .option, none⟩ => true
  | _ => false

theorem isEnd_eq_false {o : ConsoleOperation} (ho : o ≠ .fgets .option) (r : o.Reply) :
    isEnd ⟨o, r⟩ = false := by
  unfold isEnd
  split
  · next heq => exact absurd (congrArg Sigma.fst heq) ho
  · rfl

namespace Host

variable {S : Type} (host : Host S)

/-- Somewhere in the run an option is asked for at the end of the input. -/
def meetsEnd {α : Type} (p : Interact α) (s : S) : Bool := (p.trace host.answer s).any isEnd

/-- Exchanges and authentication return. -/
structure Returns : Prop where
  communicates : ∀ s transport, (host.answer s (.clientCommunicate transport)).1 ≠ none
  authenticates : ∀ s proxy email password,
    (manageDbUserWithAuth proxy email password).Finishes host.answer s

/-- `show_protocol_menu` returns, or the program exits. -/
def Halts (g : Globals) (s : S) : Prop :=
  ∃ fuel, (∃ g', ((showProtocolMenu fuel g).run host.answer s).1 = .ok g') ∨
    ((showProtocolMenu fuel g).run host.answer s).1 = .error .exit

/-- The end has been met only where no input is left, and the input did not grow. -/
structure Within (s : S) (ended : Bool) (s' : S) : Prop where
  ofEnd : ended = true → host.stdin s' = []
  le : (host.stdin s').length ≤ (host.stdin s).length

/-- As long as the end has not been met, input was used up. -/
structure Spent (s : S) (ended : Bool) (s' : S) : Prop where
  ofEnd : ended = true → host.stdin s' = []
  shorter : ended = false → (host.stdin s').length < (host.stdin s).length

/-- An option was chosen, the smallest if the end has been met. -/
structure Chose (low : Int) (s : S) (ended : Bool) (option : Int) (s' : S) : Prop
    extends host.Spent s ended s' where
  smallest : ended = true → option = low

/-- A part between two options: it does not meet the end, and takes from the
input what it likes. -/
structure Passed (ended : Bool) (s : S) (ended' : Bool) (s' : S) : Prop where
  same : ended' = ended
  takes : host.stdin s' <:+ host.stdin s

/-- How a part of the menus fares, when the end may have been met before
(`ended`): it ends in `Q`, which also sees whether the end has been met by
then; it does not exit once it has; and it runs out of turns only after it has,
if there were enough of them. -/
def Fares {α : Type} (enough : Prop) (ended : Bool) (p : Interact α) (s : S)
    (Q : Bool → α → S → Prop) : Prop :=
  match p.run host.answer s with
  | (.ok a, s') => Q (ended || host.meetsEnd p s) a s'
  | (.error .exit, _) => (ended || host.meetsEnd p s) = false
  | (.error .outOfFuel, _) => enough → (ended || host.meetsEnd p s) = true
  | (.error .undefined, _) => False

namespace Fares

variable {host} {α β : Type} {enough enough' : Prop} {ended : Bool} {s : S}
  {Q Q' : Bool → α → S → Prop} {R : Bool → β → S → Prop}

theorem pure {a : α} (h : Q ended a s) : host.Fares enough ended (.pure a) s Q := by
  show Q (ended || false) a s
  rwa [Bool.or_false]

theorem exit (h : ended = false) : host.Fares enough ended (.throw .exit) s Q := by
  show (ended || false) = false
  rwa [Bool.or_false]

theorem outOfFuel (h : enough → ended = true) :
    host.Fares enough ended (.throw .outOfFuel) s Q := by
  intro henough
  rw [h henough]
  rfl

/-- What is left of a program after its first operation. -/
theorem consult {o : ConsoleOperation} {f : o.Reply → Interact α}
    (h : host.Fares enough (ended || isEnd ⟨o, (host.answer s o).1⟩) (f (host.answer s o).1)
      (host.answer s o).2 Q) : host.Fares enough ended (LogisticService.consult o >>= f) s Q := by
  unfold Fares at h ⊢
  have hrun : (LogisticService.consult o >>= f).run host.answer s =
      (f (host.answer s o).1).run host.answer (host.answer s o).2 := rfl
  have hends : host.meetsEnd (LogisticService.consult o >>= f) s =
      (isEnd ⟨o, (host.answer s o).1⟩ ||
        host.meetsEnd (f (host.answer s o).1) (host.answer s o).2) := rfl
  rw [hrun, hends, ← Bool.or_assoc]
  exact h

/-- A sequence fares as its parts do. -/
theorem bind {p : Interact α} {f : α → Interact β} (hp : host.Fares enough ended p s Q)
    (hf : ∀ ended' a s', (ended = true → ended' = true) → Q ended' a s' →
      host.Fares enough ended' (f a) s' R) : host.Fares enough ended (p >>= f) s R := by
  unfold Fares at hp ⊢
  rcases hrun : p.run host.answer s with ⟨r, s'⟩
  rw [hrun] at hp
  cases r with
  | error e =>
    have hends : host.meetsEnd (p >>= f) s = host.meetsEnd p s := by
      unfold meetsEnd
      rw [trace_bind_error host.answer hrun]
    rw [run_bind, hrun, hends]
    cases e <;> exact hp
  | ok a =>
    have hends : host.meetsEnd (p >>= f) s = (host.meetsEnd p s || host.meetsEnd (f a) s') := by
      unfold meetsEnd
      rw [trace_bind_ok host.answer hrun, List.any_append]
    have hnext := hf _ a s' (fun h => by rw [h]; rfl) hp
    unfold Fares at hnext
    rw [run_bind, hrun, hends, ← Bool.or_assoc]
    exact hnext

theorem mono {p : Interact α} (hp : host.Fares enough ended p s Q)
    (henough : enough' → ended = false → enough)
    (hQ : ∀ ended' a s', (ended = true → ended' = true) → Q ended' a s' → Q' ended' a s') :
    host.Fares enough' ended p s Q' := by
  unfold Fares at hp ⊢
  split
  · next a s' hrun =>
    rw [hrun] at hp
    exact hQ _ a s' (fun h => by rw [h]; rfl) hp
  · next s' hrun =>
    rw [hrun] at hp
    exact hp
  · next s' hrun =>
    rw [hrun] at hp
    intro h
    cases hended : ended with
    | true => rfl
    | false =>
      rw [hended] at hp henough
      exact hp (henough h rfl)
  · next s' hrun =>
    rw [hrun] at hp
    exact hp

theorem of_enough {p : Interact α} (hp : host.Fares enough ended p s Q)
    (henough : enough' → ended = false → enough) : host.Fares enough' ended p s Q :=
  hp.mono henough fun _ _ _ _ h => h

end Fares

/-! ## The parts of the menus -/

theorem run_takes {α : Type} (p : Interact α) (s : S) :
    host.stdin (p.run host.answer s).2 <:+ host.stdin s := by
  induction p generalizing s with
  | pure a => exact List.suffix_rfl
  | throw e => exact List.suffix_rfl
  | call o k ih => exact (ih _ _).trans (host.takes s o)

section

variable {host} {enough : Prop} {ended : Bool} {g : Globals} {s : S}

/-- A part that asks for no option and returns. -/
theorem fares_of_finishes {α : Type} {p : Interact α}
    (hp : p.Only fun o : ConsoleOperation => o ≠ .fgets .option)
    (hfinishes : p.Finishes host.answer s) :
    host.Fares enough ended p s fun ended' _ s' => host.Passed ended s ended' s' := by
  have hends : host.meetsEnd p s = false := by
    unfold meetsEnd
    clear hfinishes
    induction p generalizing s with
    | pure a => rfl
    | throw e => rfl
    | call o k ih =>
      have hfirst : isEnd ⟨o, (host.answer s o).1⟩ = false := isEnd_eq_false hp.1 _
      rw [trace, List.any_cons, hfirst]
      exact ih _ (hp.2 _)
  obtain ⟨a, s', hrun⟩ := hfinishes
  have htakes := host.run_takes p s
  unfold Fares
  rw [hrun] at htakes ⊢
  rw [hends, Bool.or_false]
  exact ⟨rfl, htakes⟩

theorem Within.trans {s₁ s₂ : S} {ended₁ ended₂ : Bool} (h₁ : host.Within s ended₁ s₁)
    (h₂ : host.Within s₁ ended₂ s₂) : host.Within s ended₂ s₂ :=
  ⟨h₂.ofEnd, h₂.le.trans h₁.le⟩

theorem Spent.trans {s₁ s₂ : S} {ended₁ ended₂ : Bool} (h₁ : host.Spent s ended₁ s₁)
    (h₂ : host.Within s₁ ended₂ s₂) (hgrow : ended₁ = true → ended₂ = true) :
    host.Spent s ended₂ s₂ := by
  refine ⟨h₂.ofEnd, fun h => Nat.lt_of_le_of_lt h₂.le (h₁.shorter ?_)⟩
  exact Bool.eq_false_iff.2 fun hended => by simp [hgrow hended] at h

theorem Spent.within {ended' : Bool} {s' : S} (h : host.Spent s ended' s') :
    host.Within s ended' s' := by
  refine ⟨h.ofEnd, ?_⟩
  cases hended : ended' with
  | false => exact (h.shorter hended).le
  | true =>
    rw [h.ofEnd hended]
    exact Nat.zero_le _

theorem getIntInput_fares (low high : Int) (fuel : Nat)
    (hended : ended = true → host.stdin s = []) :
    host.Fares ((host.stdin s).length < fuel) ended (getIntInput low high fuel) s
      (host.Chose low s) := by
  induction fuel generalizing ended s with
  | zero => exact .outOfFuel fun h => absurd h (Nat.not_lt_zero _)
  | succ fuel ih =>
    rw [getIntInput_succ]
    refine .consult ?_
    by_cases hstdin : host.stdin s = []
    · obtain ⟨hnone, hrest⟩ := host.reads_end hstdin .option
      rw [hnone]
      have hmet : (ended || isEnd ⟨.fgets .option, none⟩) = true := Bool.or_true _
      exact .pure ⟨⟨fun _ => hrest, fun h => absurd (hmet.symm.trans h) (by decide)⟩, fun _ => rfl⟩
    · obtain ⟨line, hline, hshorter⟩ := host.reads_line hstdin .option
      have hnot : ended = false := Bool.eq_false_iff.2 fun h => hstdin (hended h)
      rw [hline, hnot]
      generalize (host.answer s (.fgets .option)).2 = s' at hshorter
      have hagain : host.Fares ((host.stdin s).length < fuel + 1) false
          (getIntInput low high fuel) s' (host.Chose low s) := by
        refine (ih (by simp)).mono (fun h _ => by omega) fun ended' v s'' _ hchose => ?_
        exact ⟨⟨hchose.ofEnd, fun h => Nat.lt_trans (hchose.shorter h) hshorter⟩, hchose.smallest⟩
      show host.Fares _ false (afterRead low high fuel (some line)) _ _
      rcases afterRead_cases low high fuel line with ⟨option, h⟩ | h
      · rw [h]
        exact .pure ⟨⟨by simp, fun _ => hshorter⟩, by simp⟩
      · rw [h]
        exact hagain

theorem Passed.within {ended' : Bool} {s' : S} (h : host.Passed ended s ended' s')
    (hended : ended = true → host.stdin s = []) : host.Within s ended' s' := by
  have htakes := h.takes
  refine ⟨fun h' => ?_, htakes.length_le⟩
  rw [hended (h.same ▸ h')] at htakes
  exact List.suffix_nil.1 htakes

/-- An operation that is not the question for an option, and what follows it. -/
theorem fares_consult {α : Type} {o : ConsoleOperation} {f : o.Reply → Interact α}
    {Q : Bool → α → S → Prop} (ho : o ≠ .fgets .option)
    (hf : ∀ s', host.Passed ended s ended s' →
      host.Fares enough ended (f (host.answer s o).1) s' Q) :
    host.Fares enough ended (consult o >>= f) s Q := by
  refine .consult ?_
  have hfirst : isEnd ⟨o, (host.answer s o).1⟩ = false := isEnd_eq_false ho _
  rw [hfirst, Bool.or_false]
  exact hf _ ⟨rfl, host.takes s o⟩

theorem login_fares (hreturns : host.Returns) :
    host.Fares enough ended (login g) s fun ended' g' s' => host.Passed ended s ended' s' ∧
      g'.isConnected = g.isConnected := by
  refine fares_consult (by simp) fun s₁ h₁ => ?_
  cases (host.answer s (.fgets .email)).1 with
  | none => exact .pure ⟨h₁, rfl⟩
  | some email =>
    refine fares_consult (by simp) fun s₂ h₂ => ?_
    cases (host.answer s₁ (.fgets .password)).1 with
    | none => exact .pure ⟨⟨rfl, h₂.takes.trans h₁.takes⟩, rfl⟩
    | some password =>
      refine .bind (fares_of_finishes ?_ (hreturns.authenticates _ _ _ _)) ?_
      · refine (authenticate_only _ _ _).mono fun o ho heq => ?_
        rw [heq] at ho
        exact ho
      · intro ended' result s₃ _ h₃
        obtain rfl := h₃.same
        obtain ⟨ok, proxy⟩ := result
        have htakes : host.stdin s₃ <:+ host.stdin s := h₃.takes.trans (h₂.takes.trans h₁.takes)
        cases ok with
        | true =>
          refine fares_consult (by simp) fun s₄ h₄ => ?_
          exact .pure ⟨⟨rfl, h₄.takes.trans htakes⟩, rfl⟩
        | false =>
          refine fares_consult (by simp) fun s₄ h₄ => ?_
          exact .pure ⟨⟨rfl, h₄.takes.trans htakes⟩, rfl⟩

theorem initClientConnection_fares (protocolChoice : Int) :
    host.Fares enough ended (initClientConnection protocolChoice g) s fun ended' _ s' =>
      host.Passed ended s ended' s' := by
  have hconnect : ∀ transport, host.Fares enough ended
      (do
        let ok ← consult (.initializeClient transport)
        if ok then return (true, { g with isConnected := true }) else return (false, g)) s
      fun ended' _ s' => host.Passed ended s ended' s' := by
    intro transport
    refine fares_consult (by simp) fun s' h => ?_
    cases (host.answer s (.initializeClient transport)).1 <;> exact .pure h
  unfold initClientConnection
  by_cases hudp : protocolChoice = 1
  · rw [if_pos hudp]
    exact hconnect .udp
  · rw [if_neg hudp]
    by_cases htcp : protocolChoice = 2
    · rw [if_pos htcp]
      exact hconnect .tcp
    · rw [if_neg htcp]
      exact .pure ⟨rfl, List.suffix_rfl⟩

theorem startCommunication_fares (hreturns : host.Returns) (protocolChoice : Int) :
    host.Fares enough ended (startCommunication protocolChoice g) s fun ended' g' s' =>
      host.Passed ended s ended' s' ∧ g'.isLoggedIn = g.isLoggedIn := by
  unfold startCommunication
  by_cases hudp : protocolChoice = 1
  · rw [if_pos hudp]
    refine fares_consult (by simp) fun s' h => ?_
    obtain ⟨result, hresult⟩ := Option.ne_none_iff_exists'.1 (hreturns.communicates s .udp)
    rw [hresult]
    dsimp only
    split
    · exact .pure ⟨h, rfl⟩
    · split <;> exact .pure ⟨h, rfl⟩
  · rw [if_neg hudp]
    by_cases htcp : protocolChoice = 2
    · rw [if_pos htcp]
      refine fares_consult (by simp) fun s' h => ?_
      obtain ⟨result, hresult⟩ := Option.ne_none_iff_exists'.1 (hreturns.communicates s .tcp)
      rw [hresult]
      dsimp only
      split <;> exact .pure ⟨h, rfl⟩
    · rw [if_neg htcp]
      exact .pure ⟨⟨rfl, List.suffix_rfl⟩, rfl⟩

theorem sendMessage_fares (hreturns : host.Returns) :
    host.Fares enough ended (sendMessage g) s fun ended' g' s' =>
      host.Passed ended s ended' s' ∧ g'.isLoggedIn = g.isLoggedIn := by
  unfold sendMessage
  split
  · exact .pure ⟨⟨rfl, List.suffix_rfl⟩, rfl⟩
  · exact startCommunication_fares hreturns g.optionSelected

theorem request_fares (message : String) :
    host.Fares enough ended (request message g) s fun ended' _ s' =>
      host.Passed ended s ended' s' := by
  unfold request
  split
  · exact .pure ⟨rfl, List.suffix_rfl⟩
  · split
    · exact fares_consult (by simp) fun s' h => .pure h
    · split
      · exact fares_consult (by simp) fun s' h => .pure h
      · exact .pure ⟨rfl, List.suffix_rfl⟩

theorem disconnect_fares (hended : ended = false) :
    host.Fares enough ended (disconnect g) s fun ended' _ s' => host.Passed ended s ended' s' := by
  unfold disconnect
  split
  · exact .exit hended
  · exact .pure ⟨rfl, List.suffix_rfl⟩

theorem logout_fares :
    host.Fares enough ended (logout g) s fun ended' _ s' => host.Passed ended s ended' s' :=
  fares_consult (by simp) fun _ h => .pure h

theorem selectProtocolAndConnect_fares (fuel : Nat) (hended : ended = true → host.stdin s = []) :
    host.Fares ((host.stdin s).length < fuel) ended (selectProtocolAndConnect fuel g) s
      fun ended' _ s' => host.Within s ended' s' := by
  unfold selectProtocolAndConnect
  by_cases hconnected : g.isConnected = true
  · rw [if_pos hconnected]
    exact .pure ⟨hended, le_rfl⟩
  · rw [if_neg hconnected]
    refine .bind (getIntInput_fares 1 2 fuel hended) fun ended₁ option s₁ _ hchose => ?_
    refine .bind (initClientConnection_fares option) fun ended₂ result s₂ _ hpassed => ?_
    exact .pure (hchose.within.trans (hpassed.within hchose.ofEnd))

end

/-! ## The menus -/

/-- How the menus leave the connection: once the end has been met, none of them
returns with one. -/
structure Left (s : S) (ended : Bool) (g : Globals) (s' : S) : Prop
    extends host.Within s ended s' where
  lost : ended = true → g.isConnected = false

/-- How the menus fare, given so many turns. The first menu returns only when
the end has not been met. -/
structure MenusFare (fuel : Nat) : Prop where
  protocol : ∀ {ended g s}, (ended = true → host.stdin s = []) →
    host.Fares (2 * (host.stdin s).length + 2 ≤ fuel) ended (showProtocolMenu fuel g) s
      fun ended' _ _ => ended' = false
  auth : ∀ {ended g s}, (ended = true → host.stdin s = []) → g.isConnected = true →
    host.Fares (2 * (host.stdin s).length + 2 ≤ fuel) ended (showAuthMenu fuel g) s (host.Left s)
  connected : ∀ {ended g s}, (ended = true → host.stdin s = []) → g.isConnected = true →
    g.isLoggedIn = true →
    host.Fares (2 * (host.stdin s).length + 3 ≤ fuel) ended (showConnectedMenu fuel g) s
      (host.Left s)
  turns : ∀ {ended g s}, (ended = true → host.stdin s = []) → g.isConnected = true →
    g.isLoggedIn = true →
    host.Fares (2 * (host.stdin s).length + 2 ≤ fuel) ended (connectedMenuTurns fuel g) s
      (host.Left s)

section

variable {host} {ended : Bool} {g : Globals} {s : S} {fuel : Nat}

/-- Where the end has been met, only the smallest option is chosen. -/
theorem Chose.not_ended {low option : Int} {s' : S} (h : host.Chose low s ended option s')
    (hoption : ¬ option = low) : ended = false :=
  Bool.eq_false_iff.2 fun hended => hoption (h.smallest hended)

/-- A menu that is called after an option was chosen. -/
theorem Spent.left {p : Interact Globals} {s' : S} (h : host.Spent s ended s')
    (hp : host.Fares (2 * (host.stdin s').length + 2 ≤ fuel) ended p s' (host.Left s')) :
    host.Fares (2 * (host.stdin s).length + 2 ≤ fuel + 1) ended p s' (host.Left s) := by
  refine hp.mono (fun _ hnot => ?_) fun ended₁ g₁ s₁ _ hleft => ?_
  · have hshorter := h.shorter hnot
    omega
  · exact ⟨h.within.trans hleft.toWithin, hleft.lost⟩

theorem protocolAgain_fares (hmenus : host.MenusFare fuel) {s' : S} (hspent : host.Spent s ended s')
    (hlost : ended = true → g.isConnected = false) :
    host.Fares (2 * (host.stdin s).length + 2 ≤ fuel + 1) ended (protocolAgain fuel g) s'
      fun ended' _ _ => ended' = false := by
  unfold protocolAgain
  cases hconnected : g.isConnected with
  | true => exact .pure (Bool.eq_false_iff.2 fun h => by simp [hlost h] at hconnected)
  | false =>
    refine (hmenus.protocol hspent.ofEnd).of_enough fun _ h => ?_
    have hshorter := hspent.shorter h
    omega

theorem authAgain_fares (hmenus : host.MenusFare fuel) {s' : S} (hspent : host.Spent s ended s')
    (hflags : ended = true → g.isConnected = false ∨ g.isLoggedIn = false) :
    host.Fares (2 * (host.stdin s).length + 2 ≤ fuel + 1) ended (authAgain fuel g) s'
      (host.Left s) := by
  unfold authAgain
  by_cases hloop : (g.isConnected && !g.isLoggedIn) = true
  · rw [if_pos hloop]
    exact hspent.left (hmenus.auth hspent.ofEnd (Bool.and_eq_true_iff.1 hloop).1)
  · rw [if_neg hloop]
    refine .pure ⟨hspent.within, fun h => (hflags h).elim id fun hloggedIn => ?_⟩
    exact Bool.eq_false_iff.2 fun hc => hloop (by rw [hc, hloggedIn]; rfl)

theorem connectedAgain_fares (hmenus : host.MenusFare fuel) {s' : S}
    (hspent : host.Spent s ended s') (hflag : ended = true → g.isLoggedIn = true) :
    host.Fares (2 * (host.stdin s).length + 2 ≤ fuel + 1) ended (connectedAgain fuel g) s'
      (host.Left s) := by
  unfold connectedAgain
  by_cases hlost : (!g.isConnected) = true
  · rw [if_pos hlost]
    exact .pure ⟨hspent.within, fun _ => by simpa using hlost⟩
  · rw [if_neg hlost]
    by_cases hloop : (g.isConnected && g.isLoggedIn) = true
    · rw [if_pos hloop]
      obtain ⟨hconnected, hloggedIn⟩ := Bool.and_eq_true_iff.1 hloop
      exact hspent.left (hmenus.turns hspent.ofEnd hconnected hloggedIn)
    · rw [if_neg hloop]
      refine .pure ⟨hspent.within, fun h => ?_⟩
      exact Bool.eq_false_iff.2 fun hc => hloop (by rw [hc, hflag h]; rfl)

/-- A command of the connected menu other than the first, and the turns after it. -/
theorem command_fares (hmenus : host.MenusFare fuel) {p : Interact Globals} {s' : S}
    (hspent : host.Spent s ended s') (hnot : ended = false)
    (hp : host.Fares (2 * (host.stdin s).length + 2 ≤ fuel + 1) ended p s'
      fun ended' _ s'' => host.Passed ended s' ended' s'') :
    host.Fares (2 * (host.stdin s).length + 2 ≤ fuel + 1) ended (p >>= connectedAgain fuel) s'
      (host.Left s) := by
  refine .bind hp fun ended₁ g₁ s₁ hgrow hpassed => ?_
  have hwithin := hpassed.within hspent.ofEnd
  exact connectedAgain_fares hmenus (hspent.trans hwithin hgrow) fun h => by
    simp [hpassed.same, hnot] at h

/-! In each menu the smallest option is the case in which the end may have been
met; every other option was read from the input. -/

theorem showProtocolMenu_fares (hmenus : host.MenusFare fuel)
    (hended : ended = true → host.stdin s = []) :
    host.Fares (2 * (host.stdin s).length + 2 ≤ fuel + 1) ended (showProtocolMenu (fuel + 1) g) s
      fun ended' _ _ => ended' = false := by
  unfold showProtocolMenu
  refine .bind ((getIntInput_fares 1 2 fuel hended).of_enough fun _ _ => by omega)
    fun ended₁ option s₁ _ hchose => ?_
  by_cases hselect : option = 1
  · rw [if_pos hselect]
    refine .bind ((selectProtocolAndConnect_fares fuel hchose.ofEnd).of_enough fun _ h => ?_)
      fun ended₂ g₂ s₂ hgrow hwithin => ?_
    · have hshorter := hchose.shorter h
      omega
    have hspent := hchose.toSpent.trans hwithin hgrow
    cases hconnected : g₂.isConnected with
    | true =>
      refine .bind ((hmenus.auth hwithin.ofEnd hconnected).of_enough fun _ h => ?_)
        fun ended₃ g₃ s₃ hgrow' hleft => ?_
      · have hshorter := hspent.shorter h
        omega
      exact protocolAgain_fares hmenus (hspent.trans hleft.toWithin hgrow') hleft.lost
    | false => exact protocolAgain_fares hmenus hspent fun _ => hconnected
  · rw [if_neg hselect]
    have hnot := hchose.not_ended hselect
    by_cases hexit : option = 2
    · rw [if_pos hexit]
      exact .exit hnot
    · rw [if_neg hexit]
      exact protocolAgain_fares hmenus hchose.toSpent fun h => by simp [hnot] at h

theorem showAuthMenu_fares (hreturns : host.Returns) (hmenus : host.MenusFare fuel)
    (hended : ended = true → host.stdin s = []) (hconnected : g.isConnected = true) :
    host.Fares (2 * (host.stdin s).length + 2 ≤ fuel + 1) ended (showAuthMenu (fuel + 1) g) s
      (host.Left s) := by
  unfold showAuthMenu
  refine .bind ((getIntInput_fares 1 3 fuel hended).of_enough fun _ _ => by omega)
    fun ended₁ option s₁ _ hchose => ?_
  by_cases hlogin : option = 1
  · rw [if_pos hlogin]
    refine .bind (login_fares hreturns) fun ended₂ g₂ s₂ hgrow hresult => ?_
    obtain ⟨hpassed, hsame⟩ := hresult
    have hspent := hchose.toSpent.trans (hpassed.within hchose.ofEnd) hgrow
    by_cases hloggedIn : g₂.isLoggedIn = true
    · rw [if_pos hloggedIn]
      have hmenu := hmenus.connected hspent.ofEnd (hsame.trans hconnected) hloggedIn
      refine .bind (hmenu.of_enough fun _ h => ?_) fun ended₃ g₃ s₃ hgrow' hleft => ?_
      · have hshorter := hspent.shorter h
        omega
      have hspent₃ := hspent.trans hleft.toWithin hgrow'
      have hnext := authAgain_fares (g := g₃) hmenus hspent₃ fun h => .inl (hleft.lost h)
      by_cases hcontinue : (g₃.isConnected && !g₃.isLoggedIn) = true
      · rw [if_pos hcontinue]
        exact hnext
      · rw [if_neg hcontinue]
        by_cases hlost : (!g₃.isConnected) = true
        · rw [if_pos hlost]
          exact .pure ⟨hspent₃.within, fun _ => by simpa using hlost⟩
        · rw [if_neg hlost]
          exact hnext
    · rw [if_neg hloggedIn]
      exact authAgain_fares hmenus hspent fun _ => .inr (Bool.eq_false_iff.2 hloggedIn)
  · rw [if_neg hlogin]
    have hnot := hchose.not_ended hlogin
    by_cases hsignIn : option = 2
    · rw [if_pos hsignIn]
      refine fares_consult (by simp) fun s₂ hpassed => ?_
      exact authAgain_fares hmenus (hchose.toSpent.trans (hpassed.within hchose.ofEnd) id)
        fun h => by simp [hnot] at h
    · rw [if_neg hsignIn]
      by_cases hdisconnect : option = 3
      · rw [if_pos hdisconnect]
        refine (disconnect_fares hnot).mono (fun _ _ => trivial) fun ended₂ g₂ s₂ _ hpassed => ?_
        refine ⟨hchose.within.trans (hpassed.within hchose.ofEnd), fun h => ?_⟩
        simp [hpassed.same, hnot] at h
      · rw [if_neg hdisconnect]
        exact authAgain_fares hmenus hchose.toSpent fun h => by simp [hnot] at h

theorem showConnectedMenu_fares (hmenus : host.MenusFare fuel)
    (hended : ended = true → host.stdin s = []) (hconnected : g.isConnected = true)
    (hloggedIn : g.isLoggedIn = true) :
    host.Fares (2 * (host.stdin s).length + 3 ≤ fuel + 1) ended (showConnectedMenu (fuel + 1) g) s
      (host.Left s) := by
  refine fares_consult (by simp) fun s₁ hpassed => ?_
  have hwithin := hpassed.within hended
  have hturns := hmenus.turns hwithin.ofEnd hconnected hloggedIn
  refine hturns.mono (fun _ _ => ?_) fun ended₂ g₂ s₂ _ hleft => ?_
  · have hle := hwithin.le
    omega
  · exact ⟨hwithin.trans hleft.toWithin, hleft.lost⟩

theorem connectedMenuTurns_fares (hreturns : host.Returns) (hmenus : host.MenusFare fuel)
    (hended : ended = true → host.stdin s = []) (hloggedIn : g.isLoggedIn = true) :
    host.Fares (2 * (host.stdin s).length + 2 ≤ fuel + 1) ended (connectedMenuTurns (fuel + 1) g) s
      (host.Left s) := by
  unfold connectedMenuTurns
  refine .bind ((getIntInput_fares 1 5 fuel hended).of_enough fun _ _ => by omega)
    fun ended₁ option s₁ _ hchose => ?_
  by_cases hsend : option = 1
  · rw [if_pos hsend]
    refine .bind (sendMessage_fares hreturns) fun ended₂ g₂ s₂ hgrow hresult => ?_
    obtain ⟨hpassed, hsame⟩ := hresult
    have hspent := hchose.toSpent.trans (hpassed.within hchose.ofEnd) hgrow
    exact connectedAgain_fares hmenus hspent fun _ => hsame.trans hloggedIn
  · rw [if_neg hsend]
    have hnot := hchose.not_ended hsend
    by_cases hlist : option = 2
    · rw [if_pos hlist]
      exact command_fares hmenus hchose.toSpent hnot (request_fares _)
    · rw [if_neg hlist]
      by_cases hreport : option = 3
      · rw [if_pos hreport]
        exact command_fares hmenus hchose.toSpent hnot (request_fares _)
      · rw [if_neg hreport]
        by_cases hlogout : option = 4
        · rw [if_pos hlogout]
          refine .bind logout_fares fun ended₂ g₂ s₂ hgrow hpassed => ?_
          have hspent := hchose.toSpent.trans (hpassed.within hchose.ofEnd) hgrow
          have hnot₂ : ended₂ = false := hpassed.same.trans hnot
          by_cases hauth : (!g₂.isLoggedIn && g₂.isConnected) = true
          · rw [if_pos hauth]
            exact hspent.left (hmenus.auth hspent.ofEnd (Bool.and_eq_true_iff.1 hauth).2)
          · rw [if_neg hauth]
            by_cases hlost : (!g₂.isConnected) = true
            · rw [if_pos hlost]
              exact .pure ⟨hspent.within, fun _ => by simpa using hlost⟩
            · rw [if_neg hlost]
              exact connectedAgain_fares hmenus hspent fun h => by simp [hnot₂] at h
        · rw [if_neg hlogout]
          by_cases hdisconnect : option = 5
          · rw [if_pos hdisconnect]
            exact command_fares hmenus hchose.toSpent hnot (disconnect_fares hnot)
          · rw [if_neg hdisconnect]
            exact connectedAgain_fares hmenus hchose.toSpent fun h => by simp [hnot] at h

/-- However many turns the menus take. -/
theorem menusFare (hreturns : host.Returns) (fuel : Nat) : host.MenusFare fuel := by
  induction fuel with
  | zero =>
    exact ⟨fun _ => .outOfFuel fun h => by omega, fun _ _ => .outOfFuel fun h => by omega,
      fun _ _ _ => .outOfFuel fun h => by omega, fun _ _ _ => .outOfFuel fun h => by omega⟩
  | succ fuel ih =>
    exact ⟨showProtocolMenu_fares ih, showAuthMenu_fares hreturns ih, showConnectedMenu_fares ih,
      fun hended _ => connectedMenuTurns_fares hreturns ih hended⟩

end

variable {host}

/-- What the first menu does with so many turns, when the end has not been met before. -/
theorem Returns.fares (hreturns : host.Returns) (fuel : Nat) (g : Globals) (s : S) :
    host.Fares (2 * (host.stdin s).length + 2 ≤ fuel) false (showProtocolMenu fuel g) s
      fun ended' _ _ => ended' = false :=
  (host.menusFare hreturns fuel).protocol (by simp)

/-- A run of the first menu that is over has not met the end. -/
theorem Returns.meetsEnd (hreturns : host.Returns) {fuel : Nat} {g : Globals} {s : S}
    (h : ((showProtocolMenu fuel g).run host.answer s).1 ≠ .error .outOfFuel) :
    host.meetsEnd (showProtocolMenu fuel g) s = false := by
  have hfares := hreturns.fares fuel g s
  unfold Fares at hfares
  rcases hrun : (showProtocolMenu fuel g).run host.answer s with ⟨r, s'⟩
  rw [hrun] at hfares h
  rcases r with e | g'
  · cases e with
    | exit => exact hfares
    | outOfFuel => exact absurd rfl h
    | undefined => exact hfares.elim
  · exact hfares

/-- **The client halts just when no menu meets the end**: `show_protocol_menu`
returns, or the program exits, if and only if no menu asks for an option at the
end of the input. -/
theorem halts_iff (hreturns : host.Returns) (g : Globals) (s : S) :
    host.Halts g s ↔ ∀ fuel, host.meetsEnd (showProtocolMenu fuel g) s = false := by
  constructor
  · rintro ⟨fuel, hover⟩ fuel'
    have hnot : ((showProtocolMenu fuel g).run host.answer s).1 ≠ .error .outOfFuel := by
      rcases hover with ⟨g', hok⟩ | hexit
      · simp [hok]
      · simp [hexit]
    have hsucc := fun n => (menusApprox n).protocol g
    -- With more turns the run is the same, and it begins with what it did with fewer.
    have hlater := ((Approx.of_succ hsucc (Nat.le_max_left fuel fuel')).run host.answer s)
      |>.resolve_left hnot
    have hbegins := (Approx.of_succ hsucc (Nat.le_max_right fuel fuel')).trace host.answer s
    have hmeets := hreturns.meetsEnd (hlater ▸ hnot)
    unfold Host.meetsEnd at hmeets ⊢
    rw [List.any_eq_false] at hmeets ⊢
    exact fun e he => hmeets e (hbegins.subset he)
  · intro hmeets
    have hfares := hreturns.fares (2 * (host.stdin s).length + 2) g s
    refine ⟨2 * (host.stdin s).length + 2, ?_⟩
    unfold Fares at hfares
    rcases hrun : (showProtocolMenu (2 * (host.stdin s).length + 2) g).run host.answer s
      with ⟨r, s'⟩
    rw [hrun, hmeets] at hfares
    rcases r with e | g'
    · cases e with
      | exit => exact .inr rfl
      | outOfFuel => exact absurd (hfares le_rfl) (by decide)
      | undefined => exact hfares.elim
    · exact .inl ⟨g', rfl⟩

/-- Where the input is at its end, the client never halts. -/
theorem not_halts_of_end (hreturns : host.Returns) (g : Globals) {s : S}
    (hstdin : host.stdin s = []) : ¬ host.Halts g s := by
  rintro ⟨fuel, hover⟩
  have hfares : host.Fares (2 * (host.stdin s).length + 2 ≤ fuel) true (showProtocolMenu fuel g) s
      fun ended' _ _ => ended' = false :=
    (host.menusFare hreturns fuel).protocol fun _ => hstdin
  unfold Fares at hfares
  rcases hrun : (showProtocolMenu fuel g).run host.answer s with ⟨r, s'⟩
  rw [hrun] at hfares hover
  rcases hover with ⟨g', hok⟩ | hexit
  · cases hok
    exact absurd hfares (by simp)
  · cases hexit
    exact absurd hfares (by simp)

/-- Surroundings where connections succeed and the database does not answer;
the state is the input that is left. -/
def withoutDb : Host (List Byte) where
  answer stdin
    | .fgets prompt => ((fgets prompt.size stdin).map Prod.fst,
        ((fgets prompt.size stdin).map Prod.snd).getD stdin)
    | .initializeClient _ => (true, stdin)
    | .clientCommunicate _ => (some 0, stdin)
    | .sendto _ => (true, stdin)
    | .send _ => (true, stdin)
    | .db _ => (false, stdin)
    | .stmtFetch _ => (none, stdin)
    | .crypt _ _ => (none, stdin)
    | .manageDbUser => ((), stdin)
    | .moment _ => ((), stdin)
  stdin := id
  reads _ _ := rfl
  leaves _ _ := rfl
  takes stdin o := by
    cases o with
    | fgets prompt =>
      show ((fgets prompt.size stdin).map Prod.snd).getD stdin <:+ stdin
      cases hfgets : fgets prompt.size stdin with
      | none => exact List.suffix_rfl
      | some read => exact ⟨read.1, (fgets_some prompt.two_le_size hfgets).2⟩
    | _ => exact List.suffix_rfl

theorem withoutDb_returns : withoutDb.Returns :=
  ⟨fun _ _ => Option.some_ne_none _, fun stdin proxy _ _ => ⟨(false, proxy), stdin, rfl⟩⟩

/-- Connect, and disconnect. -/
theorem halts_iff_disconnect : withoutDb.Halts .initial (ascii "1\n1\n3\n") ∧
    ∀ fuel, withoutDb.meetsEnd (showProtocolMenu fuel .initial) (ascii "1\n1\n3\n") = false := by
  have hhalts : withoutDb.Halts .initial (ascii "1\n1\n3\n") := ⟨8, .inr (by rfl)⟩
  exact ⟨hhalts, (halts_iff withoutDb_returns _ _).1 hhalts⟩

/-- **No input, no end**: the client takes the end of the input for the option
to connect and then for the option to log in, over and over. -/
theorem not_halts_without_input : withoutDb.Returns ∧ ¬ withoutDb.Halts .initial [] :=
  ⟨withoutDb_returns, not_halts_of_end withoutDb_returns _ rfl⟩

end Host

end LogisticService
