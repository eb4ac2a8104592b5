import LogisticService.Verify.Menus

/-!
# What leaves the client

Orders and requests are sent from the connected menu alone. In every run each
of them goes over the transport of the connection that the client made last and
has not found lost, and for a user whose login was the last to be decided
(`sends_vouched`). The menus' recursion is done once, for any guard that their
parts keep (`MenuParts.menus`).
-/

namespace LogisticService

open Effects CLib Program

/-! ## Any guard that the parts of the menus keep -/

/-- A condition outlasts the questions of the menus. -/
structure Outlasts (G : List (Answered Console) → ConsoleOperation → Prop)
    (K : List (Answered Console) → Globals → Prop) : Prop where
  asks : ∀ {h g}, K h g → G h (.fgets .option)
  answered : ∀ {h g} r, K h g → K (h ++ [⟨.fgets .option, r⟩]) g

/-- The parts of the menus keep the guard `G`: between the menus `I` holds, and
in the connected menu `J` besides. -/
structure MenuParts (G : List (Answered Console) → ConsoleOperation → Prop)
    (I J : List (Answered Console) → Globals → Prop) : Prop where
  between : Outlasts G I
  inside : Outlasts G J
  weaken : ∀ {h g}, J h g → I h g
  select : ∀ {h g} fuel, I h g →
    (selectProtocolAndConnect fuel g).Meets (fun _ _ => True) G I h
  login : ∀ {h g}, I h g → g.isConnected = true → (login g).Meets (fun _ _ => True) G
    (fun h' g' => I h' g' ∧ (g'.isLoggedIn = true → J h' g')) h
  signIn : ∀ {h g}, I h g → G h .manageDbUser ∧ I (h ++ [⟨.manageDbUser, ()⟩]) g
  enter : ∀ {h g}, J h g →
    G h (.moment .connectedMenu) ∧ J (h ++ [⟨.moment .connectedMenu, ()⟩]) g
  send : ∀ {h g}, J h g → (sendMessage g).Meets (fun _ _ => True) G
    (fun h' g' => I h' g' ∧ (g'.isConnected = true → J h' g')) h
  request : ∀ {h g} message, J h g → (request message g).Meets (fun _ _ => True) G
    (fun h' g' => I h' g' ∧ (g'.isConnected = true → J h' g')) h
  logout : ∀ {h g}, J h g → (logout g).Meets (fun _ _ => True) G
    (fun h' g' => I h' g' ∧ g'.isLoggedIn = false) h

/-- What the menus keep, given so many turns. -/
structure MenusMeet (G : List (Answered Console) → ConsoleOperation → Prop)
    (I J : List (Answered Console) → Globals → Prop) (fuel : Nat) : Prop where
  protocol : ∀ {h g}, I h g → (showProtocolMenu fuel g).Meets (fun _ _ => True) G I h
  auth : ∀ {h g}, I h g → g.isConnected = true →
    (showAuthMenu fuel g).Meets (fun _ _ => True) G I h
  connected : ∀ {h g}, J h g → (showConnectedMenu fuel g).Meets (fun _ _ => True) G I h
  turns : ∀ {h g}, J h g → (connectedMenuTurns fuel g).Meets (fun _ _ => True) G I h

section

variable {G : List (Answered Console) → ConsoleOperation → Prop}
  {I J K : List (Answered Console) → Globals → Prop} {h : List (Answered Console)} {g : Globals}
  {fuel : Nat}

theorem Outlasts.getIntInput (hout : Outlasts G K) (hK : K h g) (low high : Int) (fuel : Nat) :
    (getIntInput low high fuel).Meets (fun _ _ => True) G (fun h' _ => K h' g) h := by
  induction fuel generalizing h with
  | zero => trivial
  | succ fuel ih =>
    rw [getIntInput_succ]
    refine ⟨hout.asks hK, fun r _ => ?_⟩
    have hanswered := hout.answered r hK
    cases r with
    | none => exact hanswered
    | some line =>
      show (afterRead low high fuel (some line)).Meets _ _ _ _
      rcases afterRead_cases low high fuel line with ⟨option, hread⟩ | hread
      · rw [hread]
        exact hanswered
      · rw [hread]
        exact ih hanswered

theorem Outlasts.disconnect (hK : K h g) : (disconnect g).Meets (fun _ _ => True) G K h := by
  unfold LogisticService.disconnect
  cases g.isConnected with
  | false => exact hK
  | true => trivial

namespace MenuParts

theorem protocol (hparts : MenuParts G I J) (hmenus : MenusMeet G I J fuel) (hI : I h g) :
    (showProtocolMenu (fuel + 1) g).Meets (fun _ _ => True) G I h := by
  have hagain : ∀ {h g}, I h g → (protocolAgain fuel g).Meets (fun _ _ => True) G I h := by
    intro h g hI
    unfold protocolAgain
    cases g.isConnected with
    | true => exact hI
    | false => exact hmenus.protocol hI
  unfold showProtocolMenu
  refine Meets.bind (hparts.between.getIntInput hI 1 2 fuel) fun h₁ option hI₁ => ?_
  by_cases hselect : option = 1
  · rw [if_pos hselect]
    refine Meets.bind (hparts.select fuel hI₁) fun h₂ g₂ hI₂ => ?_
    cases hconnected : g₂.isConnected with
    | true => exact Meets.bind (hmenus.auth hI₂ hconnected) fun h₃ g₃ hI₃ => hagain hI₃
    | false => exact hagain hI₂
  · rw [if_neg hselect]
    by_cases hexit : option = 2
    · rw [if_pos hexit]
      trivial
    · rw [if_neg hexit]
      exact hagain hI₁

theorem auth (hparts : MenuParts G I J) (hmenus : MenusMeet G I J fuel) (hI : I h g)
    (hconnected : g.isConnected = true) :
    (showAuthMenu (fuel + 1) g).Meets (fun _ _ => True) G I h := by
  have hagain : ∀ {h g}, I h g → (authAgain fuel g).Meets (fun _ _ => True) G I h := by
    intro h g hI
    unfold authAgain
    by_cases hloop : (g.isConnected && !g.isLoggedIn) = true
    · rw [if_pos hloop]
      exact hmenus.auth hI (Bool.and_eq_true_iff.1 hloop).1
    · rw [if_neg hloop]
      exact hI
  unfold showAuthMenu
  refine Meets.bind (hparts.between.getIntInput hI 1 3 fuel) fun h₁ option hI₁ => ?_
  by_cases hlogin : option = 1
  · rw [if_pos hlogin]
    refine Meets.bind (hparts.login hI₁ hconnected) fun h₂ g₂ hlogged => ?_
    by_cases hloggedIn : g₂.isLoggedIn = true
    · rw [if_pos hloggedIn]
      refine Meets.bind (hmenus.connected (hlogged.2 hloggedIn)) fun h₃ g₃ hI₃ => ?_
      by_cases hcontinue : (g₃.isConnected && !g₃.isLoggedIn) = true
      · rw [if_pos hcontinue]
        exact hagain hI₃
      · rw [if_neg hcontinue]
        by_cases hlost : (!g₃.isConnected) = true
        · rw [if_pos hlost]
          exact hI₃
        · rw [if_neg hlost]
          exact hagain hI₃
    · rw [if_neg hloggedIn]
      exact hagain hlogged.1
  · rw [if_neg hlogin]
    by_cases hsignIn : option = 2
    · rw [if_pos hsignIn]
      obtain ⟨hguard, hI₂⟩ := hparts.signIn hI₁
      exact ⟨hguard, fun _ _ => hagain hI₂⟩
    · rw [if_neg hsignIn]
      by_cases hdisconnect : option = 3
      · rw [if_pos hdisconnect]
        exact Outlasts.disconnect hI₁
      · rw [if_neg hdisconnect]
        exact hagain hI₁

theorem turns (hparts : MenuParts G I J) (hmenus : MenusMeet G I J fuel) (hJ : J h g) :
    (connectedMenuTurns (fuel + 1) g).Meets (fun _ _ => True) G I h := by
  have hagain : ∀ {h g}, I h g ∧ (g.isConnected = true → J h g) →
      (connectedAgain fuel g).Meets (fun _ _ => True) G I h := by
    intro h g hboth
    unfold connectedAgain
    by_cases hlost : (!g.isConnected) = true
    · rw [if_pos hlost]
      exact hboth.1
    · rw [if_neg hlost]
      by_cases hloop : (g.isConnected && g.isLoggedIn) = true
      · rw [if_pos hloop]
        exact hmenus.turns (hboth.2 (Bool.and_eq_true_iff.1 hloop).1)
      · rw [if_neg hloop]
        exact hboth.1
  unfold connectedMenuTurns
  refine Meets.bind (hparts.inside.getIntInput hJ 1 5 fuel) fun h₁ option hJ₁ => ?_
  by_cases hsend : option = 1
  · rw [if_pos hsend]
    exact Meets.bind (hparts.send hJ₁) fun _ _ hboth => hagain hboth
  · rw [if_neg hsend]
    by_cases hlist : option = 2
    · rw [if_pos hlist]
      exact Meets.bind (hparts.request _ hJ₁) fun _ _ hboth => hagain hboth
    · rw [if_neg hlist]
      by_cases hreport : option = 3
      · rw [if_pos hreport]
        exact Meets.bind (hparts.request _ hJ₁) fun _ _ hboth => hagain hboth
      · rw [if_neg hreport]
        by_cases hlogout : option = 4
        · rw [if_pos hlogout]
          refine Meets.bind (hparts.logout hJ₁) fun h₂ g₂ hout => ?_
          obtain ⟨hI₂, hloggedOut⟩ := hout
          rw [hloggedOut]
          cases hconnected : g₂.isConnected with
          | true => exact hmenus.auth hI₂ hconnected
          | false => exact hI₂
        · rw [if_neg hlogout]
          have hstay : ∀ {h g}, J h g → (connectedAgain fuel g).Meets (fun _ _ => True) G I h :=
            fun hJ => hagain ⟨hparts.weaken hJ, fun _ => hJ⟩
          by_cases hdisconnect : option = 5
          · rw [if_pos hdisconnect]
            exact Meets.bind (Outlasts.disconnect hJ₁) fun _ _ hJ₂ => hstay hJ₂
          · rw [if_neg hdisconnect]
            exact hstay hJ₁

/-- However many turns the menus take. -/
theorem menus (hparts : MenuParts G I J) (fuel : Nat) : MenusMeet G I J fuel := by
  induction fuel with
  | zero => exact ⟨fun _ => trivial, fun _ _ => trivial, fun _ => trivial, fun _ => trivial⟩
  | succ fuel ih =>
    refine ⟨hparts.protocol ih, hparts.auth ih, fun hJ => ?_, hparts.turns ih⟩
    obtain ⟨hguard, hJ'⟩ := hparts.enter hJ
    exact ⟨hguard, fun _ _ => ih.turns hJ'⟩

end MenuParts

end

/-! ## The connection of a history -/

/-- The connection that a history made last and has not found lost. -/
def linkAfter (link : Option Transport) : Answered Console → Option Transport
  | ⟨.initializeClient transport, true⟩ => some transport
  | ⟨.clientCommunicate .udp, some result⟩ => if result = 1 ∨ result < 0 then none else link
  | ⟨.clientCommunicate .tcp, some result⟩ => if result = -1 then none else link
  | _ => link

def link (h : List (Answered Console)) : Option Transport := h.foldl linkAfter none

/-- The transport over which an operation sends an order or a request. -/
def ConsoleOperation.carrier? : ConsoleOperation → Option Transport
  | .clientCommunicate transport => some transport
  | .sendto _ => some .udp
  | .send _ => some .tcp
  | _ => none

/-- What is sent goes over the connection there is, for a user who logged in
on it, or whose stale login the menus took for one. -/
def SendsVouched (h : List (Answered Console)) (o : ConsoleOperation) : Prop :=
  ∀ transport, o.carrier? = some transport → link h = some transport ∧
    (standing h).loggedIn = true ∧ ((standing h).vouched = true ∨ (standing h).stale = true)

/-- `option_selected` for a transport. -/
def Transport.option : Transport → Int
  | .udp => 1
  | .tcp => 2

/-- The flags and the selected option are what the history says. -/
structure Linked (h : List (Answered Console)) (g : Globals) : Prop where
  fits : Fits h g
  live : g.isConnected = true →
    ∃ transport, link h = some transport ∧ g.optionSelected = transport.option

/-- Inside the connected menu. -/
structure Serving (h : List (Answered Console)) (g : Globals) : Prop where
  linked : Linked h g
  connected : g.isConnected = true
  loggedIn : g.isLoggedIn = true
  vouched : (standing h).vouched = true ∨ (standing h).stale = true

/-- Operations that neither send anything nor touch the connection. -/
def Offline (o : ConsoleOperation) : Prop :=
  o.carrier? = none ∧ ∀ (l : Option Transport) (r : o.Reply), linkAfter l ⟨o, r⟩ = l

section

variable {α : Type} {h : List (Answered Console)} {g : Globals}

theorem link_snoc (h : List (Answered Console)) (e : Answered Console) :
    link (h ++ [e]) = linkAfter (link h) e := by
  unfold link
  rw [List.foldl_append]
  rfl

theorem sendsVouched_of_none {o : ConsoleOperation} (ho : o.carrier? = none) : SendsVouched h o :=
  fun transport htransport => by cases ho.symm.trans htransport

/-- What follows an operation that sends nothing, whatever its reply. -/
theorem offline_consult {o : ConsoleOperation} {f : o.Reply → Interact α}
    {Q : List (Answered Console) → α → Prop} (ho : o.carrier? = none)
    (hf : ∀ r : o.Reply, (f r).Meets (fun _ _ => True) SendsVouched Q (h ++ [⟨o, r⟩])) :
    (consult o >>= f).Meets (fun _ _ => True) SendsVouched Q h :=
  ⟨sendsVouched_of_none ho, fun r _ => hf r⟩

/-- A part that stays offline keeps the connection as it is. -/
theorem offline_link {p : Interact α} (hp : p.Only Offline) :
    p.Meets (fun _ _ => True) SendsVouched (fun h' _ => link h' = link h) h :=
  hp.meets (fun _ _ _ ho => sendsVouched_of_none ho.1)
    (fun h' _ r hlink ho => (link_snoc h' _).trans ((ho.2 _ r).trans hlink)) rfl

theorem Linked.of_same {h' : List (Answered Console)} {g' : Globals} (hl : Linked h g)
    (hfits : Fits h' g') (hlink : link h' = link h) (hconnected : g'.isConnected = g.isConnected)
    (hoption : g'.optionSelected = g.optionSelected) : Linked h' g' where
  fits := hfits
  live hlive := by
    rw [hlink, hoption]
    exact hl.live (hconnected.symm.trans hlive)

/-- No connection, nothing to be said of it. -/
theorem Linked.of_lost {h' : List (Answered Console)} {g' : Globals} (hfits : Fits h' g')
    (hlost : g'.isConnected = false) : Linked h' g' :=
  ⟨hfits, fun hlive => by cases hlost.symm.trans hlive⟩

/-- What is sent inside the connected menu over the transport of `option_selected`. -/
theorem Serving.vouches {transport : Transport} (hs : Serving h g)
    (hoption : g.optionSelected = transport.option) {o : ConsoleOperation}
    (ho : o.carrier? = some transport) : SendsVouched h o := by
  obtain ⟨live, hlink, hlive⟩ := hs.linked.live hs.connected
  have hsame : live = transport := by
    have heq := hlive.symm.trans hoption
    cases live <;> cases transport <;> first | rfl | cases heq
  intro other hother
  cases hother.symm.trans ho
  exact ⟨hsame ▸ hlink, hs.linked.fits.loggedIn.trans hs.loggedIn, hs.vouched⟩

/-! ## The parts of the menus -/

theorem authenticate_offline (proxy : AuthProxy) (email password : CString) :
    (authenticate proxy email password).Only Offline := by
  refine (authenticate_only proxy email password).mono fun o ho => ?_
  cases o with
  | db call => exact ⟨rfl, fun _ _ => rfl⟩
  | stmtFetch email => exact ⟨rfl, fun _ _ => rfl⟩
  | crypt password salt => exact ⟨rfl, fun _ _ => rfl⟩
  | _ => exact ho.elim

/-- A login neither sends anything nor touches the connection. -/
theorem login_offline (g : Globals) : (login g).Meets (fun _ _ => True) SendsVouched
    (fun h' g' => link h' = link h ∧ g'.isConnected = g.isConnected ∧
      g'.optionSelected = g.optionSelected) h := by
  refine offline_consult rfl fun email => ?_
  have hemail : link (h ++ [⟨.fgets .email, email⟩]) = link h := link_snoc _ _
  cases email with
  | none => exact ⟨hemail, rfl, rfl⟩
  | some email =>
    refine offline_consult rfl fun password => ?_
    have hpassword := (link_snoc _ ⟨.fgets .password, password⟩).trans hemail
    cases password with
    | none => exact ⟨hpassword, rfl, rfl⟩
    | some password =>
      refine Meets.bind (offline_link (authenticate_offline _ _ _)) fun h' result hlink => ?_
      have hdecided := hlink.trans hpassword
      obtain ⟨ok, proxy⟩ := result
      cases ok with
      | true =>
        exact offline_consult rfl fun _ => ⟨(link_snoc _ _).trans hdecided, rfl, rfl⟩
      | false =>
        exact offline_consult rfl fun _ => ⟨(link_snoc _ _).trans hdecided, rfl, rfl⟩

theorem login_serves (hl : Linked h g) (hconnected : g.isConnected = true) :
    (login g).Meets (fun _ _ => True) SendsVouched
      (fun h' g' => Linked h' g' ∧ (g'.isLoggedIn = true → Serving h' g')) h := by
  refine ((login_passes hl.fits hconnected).and (login_offline g)).mono (fun _ _ h => h)
    (fun _ _ h => h.2) fun h' g' hboth => ?_
  obtain ⟨⟨hfits, hvouched⟩, hlink, hsame, hoption⟩ := hboth
  have hl' : Linked h' g' := hl.of_same hfits hlink hsame hoption
  exact ⟨hl', fun hflag => ⟨hl', hsame.trans hconnected, hflag, hvouched hflag⟩⟩

/-- A connection that is made is that of the option. -/
theorem initClientConnection_live (hconnected : g.isConnected = false) :
    (initClientConnection g.optionSelected g).Meets (fun _ _ => True) SendsVouched
      (fun h' result => result.2.isConnected = true → ∃ transport,
        link h' = some transport ∧ result.2.optionSelected = transport.option) h := by
  have hconnect : ∀ transport : Transport, g.optionSelected = transport.option →
      (do
        let ok ← consult (.initializeClient transport)
        if ok then return (true, { g with isConnected := true })
        else return (false, g) : Interact (Bool × Globals)).Meets (fun _ _ => True) SendsVouched
      (fun h' result => result.2.isConnected = true → ∃ transport,
        link h' = some transport ∧ result.2.optionSelected = transport.option) h := by
    intro transport hoption
    refine offline_consult rfl fun ok => ?_
    cases ok with
    | true => exact fun _ => ⟨transport, link_snoc _ _, hoption⟩
    | false => exact fun hlive => by cases hconnected.symm.trans hlive
  unfold initClientConnection
  by_cases hudp : g.optionSelected = 1
  · rw [if_pos hudp]
    exact hconnect .udp hudp
  · rw [if_neg hudp]
    by_cases htcp : g.optionSelected = 2
    · rw [if_pos htcp]
      exact hconnect .tcp htcp
    · rw [if_neg htcp]
      exact fun hlive => by cases hconnected.symm.trans hlive

theorem selectProtocolAndConnect_live (fuel : Nat) (hl : Linked h g) :
    (selectProtocolAndConnect fuel g).Meets (fun _ _ => True) SendsVouched
      (fun h' g' => g'.isConnected = true →
        ∃ transport, link h' = some transport ∧ g'.optionSelected = transport.option) h := by
  unfold selectProtocolAndConnect
  cases hconnected : g.isConnected with
  | true => exact fun _ => hl.live hconnected
  | false =>
    have hasks : Outlasts SendsVouched fun h' (_ : Globals) => link h' = link h :=
      ⟨fun _ => sendsVouched_of_none rfl, fun _ hlink => (link_snoc _ _).trans hlink⟩
    refine Meets.bind (hasks.getIntInput (g := g) rfl 1 2 fuel) fun h₁ option _ => ?_
    exact Meets.bind (initClientConnection_live rfl) fun _ _ hlive => hlive

theorem selectProtocolAndConnect_linked (fuel : Nat) (hl : Linked h g) :
    (selectProtocolAndConnect fuel g).Meets (fun _ _ => True) SendsVouched Linked h :=
  ((selectProtocolAndConnect_passes fuel hl.fits).and
    (selectProtocolAndConnect_live fuel hl)).mono (fun _ _ h => h) (fun _ _ h => h.2)
    fun _ _ hboth => ⟨hboth.1, hboth.2⟩

/-- After an operation that changes nothing the client goes on serving. -/
theorem Serving.again {e : Answered Console} (hs : Serving h g)
    (hstanding : standing (h ++ [e]) = standing h) (hlink : link (h ++ [e]) = link h) :
    Serving (h ++ [e]) g :=
  ⟨hs.linked.of_same (hs.linked.fits.of_standing hstanding) hlink rfl rfl, hs.connected,
    hs.loggedIn, by rw [hstanding]; exact hs.vouched⟩

theorem Serving.both {h' : List (Answered Console)} {g' : Globals} (hs : Serving h' g') :
    Linked h' g' ∧ (g'.isConnected = true → Serving h' g') := ⟨hs.linked, fun _ => hs⟩

/-- After an exchange: the connection is found lost, or nothing has changed. -/
theorem Serving.exchanged {e : Answered Console} {lost : Prop} [Decidable lost]
    (hs : Serving h g)
    (hstanding : standing (h ++ [e]) = if lost then (standing h).lost else standing h)
    (hlink : link (h ++ [e]) = if lost then none else link h) {g' : Globals}
    (hg : g' = if lost then { g with isConnected := false } else g) :
    Linked (h ++ [e]) g' ∧ (g'.isConnected = true → Serving (h ++ [e]) g') := by
  by_cases hlost : lost
  · rw [if_pos hlost] at hstanding hg
    rw [hg]
    exact ⟨.of_lost (hs.linked.fits.lost hstanding) rfl, fun hlive => by cases hlive⟩
  · rw [if_neg hlost] at hstanding hlink hg
    rw [hg]
    exact (hs.again hstanding hlink).both

theorem sendMessage_serves (hs : Serving h g) : (sendMessage g).Meets (fun _ _ => True) SendsVouched
    (fun h' g' => Linked h' g' ∧ (g'.isConnected = true → Serving h' g')) h := by
  obtain ⟨transport, hlink, hoption⟩ := hs.linked.live hs.connected
  unfold sendMessage
  rw [hs.connected, hoption]
  cases transport with
  | udp =>
    refine ⟨hs.vouches hoption rfl, fun r _ => ?_⟩
    cases r with
    | none => trivial
    | some result =>
      have hgoesOn := @Serving.exchanged h g ⟨.clientCommunicate .udp, some result⟩
        (result = 1 ∨ result < 0) _ hs (standing_snoc _ _) (link_snoc _ _)
      show (if result = 1 then _ else _ : Interact Globals).Meets _ _ _ _
      by_cases htimeout : result = 1
      · rw [if_pos htimeout]
        exact hgoesOn (if_pos (.inl htimeout)).symm
      · rw [if_neg htimeout]
        by_cases herror : result < 0
        · rw [if_pos herror]
          exact hgoesOn (if_pos (.inr herror)).symm
        · rw [if_neg herror]
          exact hgoesOn (if_neg (fun h => h.elim htimeout herror)).symm
  | tcp =>
    refine ⟨hs.vouches hoption rfl, fun r _ => ?_⟩
    cases r with
    | none => trivial
    | some result =>
      have hgoesOn := @Serving.exchanged h g ⟨.clientCommunicate .tcp, some result⟩
        (result = -1) _ hs (standing_snoc _ _) (link_snoc _ _)
      show (if result = -1 then _ else _ : Interact Globals).Meets _ _ _ _
      by_cases hfailed : result = -1
      · rw [if_pos hfailed]
        exact hgoesOn (if_pos hfailed).symm
      · rw [if_neg hfailed]
        exact hgoesOn (if_neg hfailed).symm

theorem request_serves (message : String) (hs : Serving h g) :
    (request message g).Meets (fun _ _ => True) SendsVouched
      (fun h' g' => Linked h' g' ∧ (g'.isConnected = true → Serving h' g')) h := by
  obtain ⟨transport, hlink, hoption⟩ := hs.linked.live hs.connected
  unfold request
  rw [hs.connected, hoption]
  cases transport with
  | udp =>
    exact ⟨hs.vouches hoption rfl, fun _ _ => (hs.again (standing_snoc _ _) (link_snoc _ _)).both⟩
  | tcp =>
    exact ⟨hs.vouches hoption rfl, fun _ _ => (hs.again (standing_snoc _ _) (link_snoc _ _)).both⟩

theorem logout_serves (hs : Serving h g) : (logout g).Meets (fun _ _ => True) SendsVouched
    (fun h' g' => Linked h' g' ∧ g'.isLoggedIn = false) h := by
  have hlink : link (h ++ [⟨.moment .loggedOut, ()⟩]) = link h := link_snoc _ _
  have hout : (logout g).Meets (fun _ _ => True) SendsVouched
      (fun h' g' => h' = h ++ [⟨.moment .loggedOut, ()⟩] ∧ g'.isConnected = g.isConnected ∧
        g'.optionSelected = g.optionSelected ∧ g'.isLoggedIn = false) h :=
    offline_consult rfl fun _ => ⟨rfl, rfl, rfl, rfl⟩
  refine ((logout_passes hs.linked.fits).and hout).mono (fun _ _ h => h) (fun _ _ h => h.2)
    fun h' g' hboth => ?_
  obtain ⟨hfits, rfl, hconnected, hoption, hloggedOut⟩ := hboth
  exact ⟨hs.linked.of_same hfits hlink hconnected hoption, hloggedOut⟩

end

/-- The menus send for those whom they let in. -/
theorem menus_send : MenuParts SendsVouched Linked Serving where
  between := ⟨fun _ => sendsVouched_of_none rfl, fun _ hl =>
    hl.of_same (hl.fits.of_standing (standing_snoc _ _)) (link_snoc _ _) rfl rfl⟩
  inside := ⟨fun _ => sendsVouched_of_none rfl, fun _ hs =>
    hs.again (standing_snoc _ _) (link_snoc _ _)⟩
  weaken hs := hs.linked
  select fuel hl := selectProtocolAndConnect_linked fuel hl
  login hl hconnected := login_serves hl hconnected
  signIn hl := ⟨sendsVouched_of_none rfl,
    hl.of_same (hl.fits.of_standing (standing_snoc _ _)) (link_snoc _ _) rfl rfl⟩
  enter hs := ⟨sendsVouched_of_none rfl, hs.again (standing_snoc _ _) (link_snoc _ _)⟩
  send hs := sendMessage_serves hs
  request message hs := request_serves message hs
  logout hs := logout_serves hs

/-- **What leaves the client is sent on the connection there is**, in every run
of the menus, however far it has come: each order and each request goes over
the transport of the last connection made, which has not been found lost, and
the last login or logout was a login that succeeded, on this connection unless
a stale login stands for it. -/
theorem sends_vouched {fuel : Nat} {t : List (Answered Console)} {rest : Interact Globals}
    (hrun : Leads (showProtocolMenu fuel .initial) t rest) : Kept SendsVouched t := by
  have hstart : Linked [] Globals.initial := ⟨⟨rfl, rfl⟩, fun hlive => by cases hlive⟩
  exact ((menus_send.menus fuel).protocol hstart).kept hrun (fun _ _ => trivial) Kept.nil

/-- Ann connects over TCP, logs in, sends an order and makes two requests. -/
def annsLines : String := "1\n2\n1\nann@example.com\nsecret\n1\n2\n3\n4\n3\n"

/-- Her order and her two requests are sent on the connection she made. -/
theorem sends_vouched_ann :
    (typedRun 12 annsLines 0).countP (fun e => (ConsoleOperation.carrier? e.1).isSome) = 3 ∧
      Kept SendsVouched (typedRun 12 annsLines 0) := by
  refine ⟨by decide +kernel, ?_⟩
  obtain ⟨rest, hrun⟩ := Leads.of_trace (respond selectFrom saltedCrypt)
    (showProtocolMenu 12 .initial)
    { typing annsLines (annWith []) with communicated := fun _ => some 0 }
  exact sends_vouched hrun

end LogisticService
