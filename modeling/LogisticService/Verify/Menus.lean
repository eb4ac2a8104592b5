import LogisticService.Verify.Session

/-!
# The way to the connected menu

The menus share the flags `is_connected` and `is_logged_in`, and a lost
connection clears only the first. What a run is entitled to is read off its
history (`standing`): whether a login has succeeded on the current connection
and nobody logged out since. The connected menu is entered with that standing
in every run in which no login that starts with `is_logged_in` still set, from
an earlier connection, meets the end of the input (`connectedMenu_vouched`);
such a login returns with the flag as it was.
-/

namespace LogisticService

open Effects CLib Program

/-- What the history of a run says about its connection and its login. -/
structure Standing where
  /-- A connection was established and has not been found lost. -/
  connected : Bool
  /-- The value of `is_logged_in`. -/
  loggedIn : Bool
  /-- A login succeeded on the current connection, and there was no logout after it. -/
  vouched : Bool
  /-- A login made while `is_logged_in` was set met the end of the input. -/
  stale : Bool
deriving DecidableEq

namespace Standing

def initial : Standing := ⟨false, false, false, false⟩

def lost (s : Standing) : Standing := { s with connected := false, vouched := false }

/-- What one answer changes. -/
def after (s : Standing) : Answered Console → Standing
  | ⟨.fgets .email, none⟩ => { s with stale := s.stale || s.loggedIn }
  | ⟨.fgets .password, none⟩ => { s with stale := s.stale || s.loggedIn }
  | ⟨.initializeClient _, true⟩ => { s with connected := true, vouched := false }
  | ⟨.clientCommunicate .udp, some result⟩ => if result = 1 ∨ result < 0 then s.lost else s
  | ⟨.clientCommunicate .tcp, some result⟩ => if result = -1 then s.lost else s
  | ⟨.moment .authenticated, _⟩ => { s with loggedIn := true, vouched := s.connected }
  | ⟨.moment .refused, _⟩ => { s with loggedIn := false }
  | ⟨.moment .loggedOut, _⟩ => { s with loggedIn := false, vouched := false }
  | _ => s

end Standing

/-- The standing a history leads to. -/
def standing (h : List (Answered Console)) : Standing := h.foldl Standing.after .initial

/-- The connected menu is entered only when a login has succeeded on the
current connection and nobody has logged out since. -/
def EntersVouched (h : List (Answered Console)) (o : ConsoleOperation) : Prop :=
  o = .moment .connectedMenu → (standing h).vouched = true

theorem standing_snoc (h : List (Answered Console)) (e : Answered Console) :
    standing (h ++ [e]) = (standing h).after e := by
  unfold standing
  rw [List.foldl_append]
  rfl

/-- What met the end of the input stays so. -/
theorem Standing.after_stale {s : Standing} {e : Answered Console} (h : s.stale = true) :
    (s.after e).stale = true := by
  unfold Standing.after
  split <;> (try split) <;> simp [h, Standing.lost]

theorem standing_stale (h₂ : List (Answered Console)) {h₁ : List (Answered Console)}
    (h : (standing h₁).stale = true) : (standing (h₁ ++ h₂)).stale = true := by
  induction h₂ using List.reverseRecOn with
  | nil => rwa [List.append_nil]
  | append_singleton h₂ e ih =>
    rw [← List.append_assoc, standing_snoc]
    exact Standing.after_stale ih

/-! ## What the parts of the menus keep -/

/-- The guard the menus keep in every run. -/
def Enters (h : List (Answered Console)) (o : ConsoleOperation) : Prop :=
  o = .moment .connectedMenu → (standing h).vouched = true ∨ (standing h).stale = true

/-- The flags are what the history says. -/
structure Fits (h : List (Answered Console)) (g : Globals) : Prop where
  connected : (standing h).connected = g.isConnected
  loggedIn : (standing h).loggedIn = g.isLoggedIn

/-- Operations that say nothing about connections and logins. -/
def Neutral (o : ConsoleOperation) : Prop :=
  o ≠ .moment .connectedMenu ∧ ∀ (s : Standing) (r : o.Reply), s.after ⟨o, r⟩ = s

/-- A part of the menus keeps the guard and ends in `Q`. -/
abbrev Guarded {α : Type} (h : List (Answered Console)) (p : Interact α)
    (Q : List (Answered Console) → α → Prop) : Prop :=
  p.Meets (fun _ _ => True) Enters Q h

section

variable {α : Type} {h : List (Answered Console)} {g : Globals}

theorem passes_neutral {p : Interact α} (hp : p.Only Neutral) :
    Guarded h p fun h' _ => standing h' = standing h := by
  have hgeneral : ∀ h₁, standing h₁ = standing h →
      Guarded h₁ p fun h' _ => standing h' = standing h := by
    induction p with
    | pure a => exact fun h₁ h => h
    | throw e => exact fun _ _ => trivial
    | call o k ih =>
      intro h₁ hh
      refine ⟨fun ho => absurd ho hp.1.1, fun r _ => ih r (hp.2 r) _ ?_⟩
      rw [standing_snoc]
      exact (hp.1.2 _ r).trans hh
  exact hgeneral h rfl

theorem Fits.of_standing {h' : List (Answered Console)} (hf : Fits h g)
    (hs : standing h' = standing h) : Fits h' g := ⟨hs ▸ hf.connected, hs ▸ hf.loggedIn⟩

/-- A neutral part, and then what the standing allowed before. -/
theorem passes_after_neutral {β : Type} {p : Interact α} {f : α → Interact β}
    {Q : List (Answered Console) → β → Prop} (hp : p.Only Neutral)
    (hf : ∀ h' a, standing h' = standing h → Guarded h' (f a) Q) : Guarded h (p >>= f) Q :=
  Meets.bind (passes_neutral hp) hf

/-- What follows an operation, whatever its reply. -/
theorem passes_consult {o : ConsoleOperation} {f : o.Reply → Interact α}
    {Q : List (Answered Console) → α → Prop} (ho : o ≠ .moment .connectedMenu)
    (hf : ∀ r : o.Reply, Guarded (h ++ [⟨o, r⟩]) (f r) Q) : Guarded h (consult o >>= f) Q :=
  ⟨fun h => absurd h ho, fun r _ => hf r⟩

theorem neutral_option : Neutral (.fgets .option) := ⟨by simp, fun _ _ => rfl⟩

theorem neutral_db (call : DbCall) : Neutral (.db call) := ⟨by simp, fun _ _ => rfl⟩

theorem getIntInput_neutral (low high : Int) (fuel : Nat) :
    (getIntInput low high fuel).Only Neutral := by
  induction fuel with
  | zero => trivial
  | succ fuel ih =>
    rw [getIntInput_succ]
    refine ⟨neutral_option, fun r => ?_⟩
    cases r with
    | none => trivial
    | some line =>
      show (afterRead low high fuel (some line)).Only Neutral
      rcases afterRead_cases low high fuel line with ⟨option, h⟩ | h
      · rw [h]
        trivial
      · rw [h]
        exact ih

theorem authenticate_neutral (proxy : AuthProxy) (email password : CString) :
    (authenticate proxy email password).Only Neutral := by
  refine (authenticate_only proxy email password).mono fun o ho => ?_
  cases o with
  | db call => exact neutral_db call
  | stmtFetch email => exact ⟨by simp, fun _ _ => rfl⟩
  | crypt password salt => exact ⟨by simp, fun _ _ => rfl⟩
  | _ => exact ho.elim

/-- A login on a connection: when the flag is set after it, the connected menu
may be entered. -/
theorem login_passes (hf : Fits h g) (hconnected : g.isConnected = true) :
    Guarded h (login g) fun h' g' => Fits h' g' ∧
      (g'.isLoggedIn = true → (standing h').vouched = true ∨ (standing h').stale = true) := by
  -- The input ends: the globals stay, and with the flag set the login is stale.
  have hends : ∀ {h' : List (Answered Console)},
      standing h' = { standing h with stale := (standing h).stale || (standing h).loggedIn } →
      Fits h' g ∧ (g.isLoggedIn = true →
        (standing h').vouched = true ∨ (standing h').stale = true) := by
    intro h' hs
    refine ⟨⟨by rw [hs]; exact hf.connected, by rw [hs]; exact hf.loggedIn⟩, fun hflag => .inr ?_⟩
    rw [hs, hf.loggedIn, hflag]
    exact Bool.or_true _
  refine passes_consult (by simp) fun email => ?_
  cases email with
  | none => exact hends (standing_snoc _ _)
  | some email =>
    have hs₁ : standing (h ++ [⟨.fgets .email, some email⟩]) = standing h := standing_snoc _ _
    refine passes_consult (by simp) fun password => ?_
    cases password with
    | none =>
      refine hends ?_
      rw [standing_snoc, hs₁]
      rfl
    | some password =>
      have hs₂ : standing (h ++ [⟨.fgets .email, some email⟩] ++
          [⟨.fgets .password, some password⟩]) = standing h := (standing_snoc _ _).trans hs₁
      refine passes_after_neutral (authenticate_neutral _ _ _) fun h' result hs => ?_
      rw [hs₂] at hs
      obtain ⟨ok, proxy⟩ := result
      cases ok with
      | true =>
        refine passes_consult (by simp) fun _ => ?_
        have hsnoc := standing_snoc h' ⟨.moment .authenticated, ()⟩
        rw [hs] at hsnoc
        refine ⟨⟨?_, ?_⟩, fun _ => .inl ?_⟩
        · rw [hsnoc]
          exact hf.connected
        · rw [hsnoc]
          rfl
        · rw [hsnoc]
          exact hf.connected.trans hconnected
      | false =>
        refine passes_consult (by simp) fun _ => ?_
        have hsnoc := standing_snoc h' ⟨.moment .refused, ()⟩
        rw [hs] at hsnoc
        refine ⟨⟨?_, ?_⟩, fun hflag => absurd hflag (by simp)⟩
        · rw [hsnoc]
          exact hf.connected
        · rw [hsnoc]
          rfl

theorem initClientConnection_passes (protocolChoice : Int) (hf : Fits h g) :
    Guarded h (initClientConnection protocolChoice g) fun h' result => Fits h' result.2 := by
  have hconnect : ∀ transport, Guarded h
      (do
        let ok ← consult (.initializeClient transport)
        if ok then return (true, { g with isConnected := true }) else return (false, g))
      fun h' result => Fits h' result.2 := by
    intro transport
    refine passes_consult (by simp) fun ok => ?_
    have hsnoc := standing_snoc h ⟨.initializeClient transport, ok⟩
    cases ok with
    | false => exact hf.of_standing hsnoc
    | true =>
      refine ⟨?_, ?_⟩
      · rw [hsnoc]
        rfl
      · rw [hsnoc]
        exact hf.loggedIn
  unfold initClientConnection
  by_cases hudp : protocolChoice = 1
  · rw [if_pos hudp]
    exact hconnect .udp
  · rw [if_neg hudp]
    by_cases htcp : protocolChoice = 2
    · rw [if_pos htcp]
      exact hconnect .tcp
    · rw [if_neg htcp]
      exact hf

theorem selectProtocolAndConnect_passes (fuel : Nat) (hf : Fits h g) :
    Guarded h (selectProtocolAndConnect fuel g) Fits := by
  unfold selectProtocolAndConnect
  by_cases hconnected : g.isConnected = true
  · rw [if_pos hconnected]
    exact hf
  · rw [if_neg hconnected]
    refine passes_after_neutral (getIntInput_neutral 1 2 fuel) fun h' option hs => ?_
    have hf' : Fits h' { g with optionSelected := option } :=
      ⟨(hf.of_standing hs).connected, (hf.of_standing hs).loggedIn⟩
    exact Meets.bind (initClientConnection_passes option hf') fun h'' result hf'' => hf''

/-- A connection found lost. -/
theorem Fits.lost {h' : List (Answered Console)} (hf : Fits h g)
    (hs : standing h' = (standing h).lost) : Fits h' { g with isConnected := false } := by
  refine ⟨?_, ?_⟩
  · rw [hs]
    rfl
  · rw [hs]
    exact hf.loggedIn

theorem startCommunication_passes (protocolChoice : Int) (hf : Fits h g) :
    Guarded h (startCommunication protocolChoice g) Fits := by
  unfold startCommunication
  by_cases hudp : protocolChoice = 1
  · rw [if_pos hudp]
    refine passes_consult (by simp) fun r => ?_
    cases r with
    | none => trivial
    | some result =>
      have hsnoc : standing (h ++ [⟨.clientCommunicate .udp, some result⟩]) =
          if result = 1 ∨ result < 0 then (standing h).lost else standing h := standing_snoc _ _
      dsimp only
      by_cases htimeout : result = 1
      · rw [if_pos htimeout]
        rw [if_pos (.inl htimeout)] at hsnoc
        exact hf.lost hsnoc
      · rw [if_neg htimeout]
        by_cases herror : result < 0
        · rw [if_pos herror]
          rw [if_pos (.inr herror)] at hsnoc
          exact hf.lost hsnoc
        · rw [if_neg herror]
          rw [if_neg (fun h => h.elim htimeout herror)] at hsnoc
          exact hf.of_standing hsnoc
  · rw [if_neg hudp]
    by_cases htcp : protocolChoice = 2
    · rw [if_pos htcp]
      refine passes_consult (by simp) fun r => ?_
      cases r with
      | none => trivial
      | some result =>
        have hsnoc : standing (h ++ [⟨.clientCommunicate .tcp, some result⟩]) =
            if result = -1 then (standing h).lost else standing h := standing_snoc _ _
        dsimp only
        by_cases hfailed : result = -1
        · rw [if_pos hfailed]
          rw [if_pos hfailed] at hsnoc
          exact hf.lost hsnoc
        · rw [if_neg hfailed]
          rw [if_neg hfailed] at hsnoc
          exact hf.of_standing hsnoc
    · rw [if_neg htcp]
      exact hf

theorem sendMessage_passes (hf : Fits h g) : Guarded h (sendMessage g) Fits := by
  unfold sendMessage
  cases g.isConnected with
  | false => exact hf
  | true => exact startCommunication_passes g.optionSelected hf

theorem request_passes (message : String) (hf : Fits h g) : Guarded h (request message g) Fits := by
  have hsend : ∀ o : ConsoleOperation, Neutral o → Guarded h
      (do
        let _ ← consult o
        return g) Fits :=
    fun o ho => passes_consult ho.1 fun r => hf.of_standing ((standing_snoc _ _).trans (ho.2 _ r))
  unfold request
  cases g.isConnected with
  | false => exact hf
  | true =>
    show Guarded h (if g.optionSelected = 1 then _ else _) Fits
    by_cases hudp : g.optionSelected = 1
    · rw [if_pos hudp]
      exact hsend (.sendto message) ⟨by simp, fun _ _ => rfl⟩
    · rw [if_neg hudp]
      by_cases htcp : g.optionSelected = 2
      · rw [if_pos htcp]
        exact hsend (.send message) ⟨by simp, fun _ _ => rfl⟩
      · rw [if_neg htcp]
        exact hf

theorem disconnect_passes (hf : Fits h g) : Guarded h (disconnect g) Fits := by
  unfold disconnect
  cases g.isConnected with
  | false => exact hf
  | true => trivial

theorem logout_passes (hf : Fits h g) : Guarded h (logout g) Fits := by
  refine passes_consult (by simp) fun _ => ?_
  have hsnoc := standing_snoc h ⟨.moment .loggedOut, ()⟩
  refine ⟨?_, ?_⟩
  · rw [hsnoc]
    exact hf.connected
  · rw [hsnoc]
    rfl

end

/-! ## The menus -/

/-- What the menus keep, given so many turns. -/
structure MenusPass (fuel : Nat) : Prop where
  protocol : ∀ {h g}, Fits h g → Guarded h (showProtocolMenu fuel g) Fits
  auth : ∀ {h g}, Fits h g → g.isConnected = true → Guarded h (showAuthMenu fuel g) Fits
  connected : ∀ {h g}, Fits h g → (standing h).vouched = true ∨ (standing h).stale = true →
    Guarded h (showConnectedMenu fuel g) Fits
  turns : ∀ {h g}, Fits h g → Guarded h (connectedMenuTurns fuel g) Fits

section

variable {h : List (Answered Console)} {g : Globals} {fuel : Nat}

theorem showProtocolMenu_passes (hmenus : MenusPass fuel) (hf : Fits h g) :
    Guarded h (showProtocolMenu (fuel + 1) g) Fits := by
  have hagain : ∀ {h g}, Fits h g → Guarded h (protocolAgain fuel g) Fits := by
    intro h g hf
    unfold protocolAgain
    cases hconnected : g.isConnected with
    | true => exact hf
    | false => exact hmenus.protocol hf
  unfold showProtocolMenu
  refine passes_after_neutral (getIntInput_neutral 1 2 fuel) fun h₁ option hs => ?_
  have hf₁ := hf.of_standing hs
  by_cases hselect : option = 1
  · rw [if_pos hselect]
    refine Meets.bind (selectProtocolAndConnect_passes fuel hf₁) fun h₂ g₂ hf₂ => ?_
    cases hconnected : g₂.isConnected with
    | true => exact Meets.bind (hmenus.auth hf₂ hconnected) fun h₃ g₃ hf₃ => hagain hf₃
    | false => exact hagain hf₂
  · rw [if_neg hselect]
    by_cases hexit : option = 2
    · rw [if_pos hexit]
      trivial
    · rw [if_neg hexit]
      exact hagain hf₁

theorem showAuthMenu_passes (hmenus : MenusPass fuel) (hf : Fits h g)
    (hconnected : g.isConnected = true) : Guarded h (showAuthMenu (fuel + 1) g) Fits := by
  have hagain : ∀ {h g}, Fits h g → Guarded h (authAgain fuel g) Fits := by
    intro h g hf
    unfold authAgain
    by_cases hloop : (g.isConnected && !g.isLoggedIn) = true
    · rw [if_pos hloop]
      exact hmenus.auth hf (Bool.and_eq_true_iff.1 hloop).1
    · rw [if_neg hloop]
      exact hf
  unfold showAuthMenu
  refine passes_after_neutral (getIntInput_neutral 1 3 fuel) fun h₁ option hs => ?_
  have hf₁ := hf.of_standing hs
  by_cases hlogin : option = 1
  · rw [if_pos hlogin]
    refine Meets.bind (login_passes hf₁ hconnected) fun h₂ g₂ hlogged => ?_
    obtain ⟨hf₂, hvouched⟩ := hlogged
    by_cases hloggedIn : g₂.isLoggedIn = true
    · rw [if_pos hloggedIn]
      refine Meets.bind (hmenus.connected hf₂ (hvouched hloggedIn)) fun h₃ g₃ hf₃ => ?_
      by_cases hcontinue : (g₃.isConnected && !g₃.isLoggedIn) = true
      · rw [if_pos hcontinue]
        exact hagain hf₃
      · rw [if_neg hcontinue]
        by_cases hlost : (!g₃.isConnected) = true
        · rw [if_pos hlost]
          exact hf₃
        · rw [if_neg hlost]
          exact hagain hf₃
    · rw [if_neg hloggedIn]
      exact hagain hf₂
  · rw [if_neg hlogin]
    by_cases hsignIn : option = 2
    · rw [if_pos hsignIn]
      exact passes_consult (by simp) fun _ => hagain (hf₁.of_standing (standing_snoc _ _))
    · rw [if_neg hsignIn]
      by_cases hdisconnect : option = 3
      · rw [if_pos hdisconnect]
        exact disconnect_passes hf₁
      · rw [if_neg hdisconnect]
        exact hagain hf₁

theorem showConnectedMenu_passes (hmenus : MenusPass fuel) (hf : Fits h g)
    (henters : (standing h).vouched = true ∨ (standing h).stale = true) :
    Guarded h (showConnectedMenu (fuel + 1) g) Fits :=
  ⟨fun _ => henters, fun _ _ => hmenus.turns (hf.of_standing (standing_snoc _ _))⟩

theorem connectedMenuTurns_passes (hmenus : MenusPass fuel) (hf : Fits h g) :
    Guarded h (connectedMenuTurns (fuel + 1) g) Fits := by
  have hagain : ∀ {h g}, Fits h g → Guarded h (connectedAgain fuel g) Fits := by
    intro h g hf
    unfold connectedAgain
    by_cases hlost : (!g.isConnected) = true
    · rw [if_pos hlost]
      exact hf
    · rw [if_neg hlost]
      by_cases hloop : (g.isConnected && g.isLoggedIn) = true
      · rw [if_pos hloop]
        exact hmenus.turns hf
      · rw [if_neg hloop]
        exact hf
  unfold connectedMenuTurns
  refine passes_after_neutral (getIntInput_neutral 1 5 fuel) fun h₁ option hs => ?_
  have hf₁ := hf.of_standing hs
  by_cases hsend : option = 1
  · rw [if_pos hsend]
    exact Meets.bind (sendMessage_passes hf₁) fun _ _ hf₂ => hagain hf₂
  · rw [if_neg hsend]
    by_cases hlist : option = 2
    · rw [if_pos hlist]
      exact Meets.bind (request_passes _ hf₁) fun _ _ hf₂ => hagain hf₂
    · rw [if_neg hlist]
      by_cases hreport : option = 3
      · rw [if_pos hreport]
        exact Meets.bind (request_passes _ hf₁) fun _ _ hf₂ => hagain hf₂
      · rw [if_neg hreport]
        by_cases hlogout : option = 4
        · rw [if_pos hlogout]
          refine Meets.bind (logout_passes hf₁) fun h₂ g₂ hf₂ => ?_
          by_cases hauth : (!g₂.isLoggedIn && g₂.isConnected) = true
          · rw [if_pos hauth]
            exact hmenus.auth hf₂ (Bool.and_eq_true_iff.1 hauth).2
          · rw [if_neg hauth]
            by_cases hlost : (!g₂.isConnected) = true
            · rw [if_pos hlost]
              exact hf₂
            · rw [if_neg hlost]
              exact hagain hf₂
        · rw [if_neg hlogout]
          by_cases hdisconnect : option = 5
          · rw [if_pos hdisconnect]
            exact Meets.bind (disconnect_passes hf₁) fun _ _ hf₂ => hagain hf₂
          · rw [if_neg hdisconnect]
            exact hagain hf₁

/-- However many turns the menus take. -/
theorem menusPass (fuel : Nat) : MenusPass fuel := by
  induction fuel with
  | zero => exact ⟨fun _ => trivial, fun _ _ => trivial, fun _ _ => trivial, fun _ => trivial⟩
  | succ fuel ih =>
    exact ⟨showProtocolMenu_passes ih, showAuthMenu_passes ih, showConnectedMenu_passes ih,
      connectedMenuTurns_passes ih⟩

end

/-- **The connected menu is entered only by a login on this connection**, in
every run of the client, however far it has come, in which no login made while
`is_logged_in` was set met the end of the input. -/
theorem connectedMenu_vouched {fuel : Nat} {t : List (Answered Console)} {rest : Interact Globals}
    (hrun : Leads (showProtocolMenu fuel .initial) t rest) (hfresh : (standing t).stale = false) :
    Kept EntersVouched t := by
  have hstart : Fits [] Globals.initial := ⟨rfl, rfl⟩
  have hkept := ((menusPass fuel).protocol hstart).kept hrun (fun _ _ => trivial) Kept.nil
  intro h₁ e h₂ ht hentry
  rcases hkept h₁ e h₂ ht hentry with hvouched | hstale
  · exact hvouched
  · have hlater := standing_stale (e :: h₂) hstale
    rw [← ht] at hlater
    exact absurd (hlater.symm.trans hfresh) (by decide)

/-! ## A login that finds no input -/

def isEntry : Answered Console → Bool
  | ⟨.moment .connectedMenu, _⟩ => true
  | _ => false

/-- A run of the client on a typed input. -/
def typedRun (fuel : Nat) (lines : String) (communicated : Int) : List (Answered Console) :=
  (showProtocolMenu fuel .initial).trace (respond selectFrom saltedCrypt)
    { typing lines (annWith []) with communicated := fun _ => some communicated }

/-- Connect, log in and send a message, which is answered. -/
theorem connectedMenu_vouched_ann :
    (typedRun 12 "1\n1\n1\nann@example.com\nsecret\n1\n4\n3\n" 0).countP isEntry = 1 ∧
      Kept EntersVouched (typedRun 12 "1\n1\n1\nann@example.com\nsecret\n1\n4\n3\n" 0) := by
  refine ⟨by decide +kernel, ?_⟩
  obtain ⟨rest, hrun⟩ := Leads.of_trace (respond selectFrom saltedCrypt)
    (showProtocolMenu 12 .initial)
    { typing "1\n1\n1\nann@example.com\nsecret\n1\n4\n3\n" (annWith []) with
      communicated := fun _ => some 0 }
  exact connectedMenu_vouched hrun (by decide +kernel)

theorem isEntry_op {e : Answered Console} (h : isEntry e = true) :
    e.1 = .moment .connectedMenu := by
  unfold isEntry at h
  split at h
  · rfl
  · cases h

/-- The answer with the given number, when it enters the connected menu without standing. -/
theorem not_kept_of_entry {t : List (Answered Console)} (n : Nat)
    (hentry : (t[n]?).map isEntry = some true) (hstanding : (standing (t.take n)).vouched = false) :
    ¬ Kept EntersVouched t := by
  intro hkept
  obtain ⟨e, he, hentry⟩ := Option.map_eq_some_iff.1 hentry
  obtain ⟨hlt, hget⟩ := List.getElem?_eq_some_iff.1 he
  have hsplit : t = t.take n ++ e :: t.drop (n + 1) := by
    rw [← hget, List.getElem_cons_drop, List.take_append_drop]
  have hvouched := hkept (t.take n) e (t.drop (n + 1)) hsplit (isEntry_op hentry)
  exact absurd (hvouched.symm.trans hstanding) (by decide)

/-- **The flag outlives its connection**: the user connects over UDP, logs in
and sends a message that fails, and there the input ends. The client connects
again, its login returns at once with `is_logged_in` still set, and the
connected menu is entered although nobody has logged in on this connection. -/
theorem connectedMenu_unvouched :
    ¬ Kept EntersVouched (typedRun 5 "1\n1\n1\nann@example.com\nsecret\n1\n" (-1)) :=
  not_kept_of_entry 23 (by decide +kernel) (by decide +kernel)

end LogisticService
