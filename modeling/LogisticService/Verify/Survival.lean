import LogisticService.Server.Mutex
import LogisticService.Verify.Pipeline

/-!
# Which messages end the server

An exception that leaves a handler ends the whole server, so one is enough. A
handler throws when its database session does not open, before it receives
anything. Whether a message can end the server depends on its text alone:
`Survivable` lists the conversions that its handling makes on some path. While
all messages are survivable no exception leaves a handler that has its session,
whatever the handlers interleave, the database holds and the calls return; any
other message ends a server that has just started, over tables that take it
down the path (`never_throws_iff`).
-/

namespace LogisticService

open Effects Program

/-- The conversions that the handling of a parsed order makes. Those of the
transfer and of `processMessage` are only reached by an order that passed both
checks. -/
structure OrderSurvives (env : Env) (buffer : String) (root : Value) : Prop where
  stored : Passes (OrderStore.readProduct root)
  limits : Passes (checkOrder root)
  stock : Passes (StockRequest.ofJson root)
  watched : Passes (WatchedStock.ofJson root)
  transfer : Accepted root → Passes (Transfer.ofJson root)
  forward : Accepted root → Passes (Forward.ofText env.json buffer)

/-- No handling of the message throws. -/
def Survivable (env : Env) (buffer : String) : Prop :=
  if beginsWithBrace buffer then
    ∃ v, env.json.parse buffer = .ok v ∧ ∀ root, v = some root → OrderSurvives env buffer root
  else IsCommand buffer ∨ Passes (Forward.ofText env.json buffer)

/-- Loop variables that let an order through are those of an accepted one. -/
def AcceptedIf (root : Value) (s : Loop) : Prop :=
  s.isValid = true → s.productStock = true → Accepted root

/-! ## Survivable messages are handled without an exception -/

section

variable {env : Env} {origin : Origin} {buffer : String} {root : Value} {s : Loop}

theorem replyIf_returns (origin : Origin) (condition : Bool) (text : String) :
    (replyIf origin.reply condition text).Returns fun _ => True := by
  cases condition with
  | false => trivial
  | true =>
    cases origin with
    | udp cliAddr => exact fun _ => trivial
    | tcp clientSockfd => exact fun _ => trivial

/-- The end of a stage, after its reply. -/
theorem replied_returns {condition : Bool} {text : String} {s : Loop} {Q : Loop → Prop}
    (hs : Q s) : (replyIf origin.reply condition text >>= fun go =>
      (Program.pure (s, go) : Handling (Loop × Bool))).Returns fun r => Q r.1 :=
  (replyIf_returns origin condition text).bind fun _ _ => hs

theorem validateStage_returns (h : OrderSurvives env buffer root) :
    (validateStage env origin.reply root s).Returns fun r =>
      r.1.isValid = true → checkOrder root = .ok none := by
  obtain ⟨verdict, hverdict⟩ := h.limits
  refine Returns.bind (Q := fun result => result.1 = true → checkOrder root = .ok none) ?_
    fun result hresult => replied_returns (Q := fun s' =>
      s'.isValid = true → checkOrder root = .ok none) hresult
  unfold validateOrderLimits
  rw [hverdict]
  cases verdict with
  | none => exact fun _ => rfl
  | some r => exact fun hfalse => by cases hfalse

/-- A source that the stock check accepts is one it knows. -/
theorem StockRequest.check_knows {r : StockRequest} (hr : StockRequest.ofJson root = .ok (.ok r)) :
    r.check.Returns fun verdict => verdict = none → ∃ r, StockRequest.ofJson root = .ok (.ok r) ∧
      (r.sourceType = "hub" ∨ r.sourceType = "warehouse") := by
  unfold StockRequest.check
  split
  · next hhub => exact fun _ _ => ⟨r, hr, .inl hhub⟩
  · split
    · next hwarehouse => exact fun _ _ => ⟨r, hr, .inr hwarehouse⟩
    · exact fun hnone => by cases hnone

theorem stockStage_returns (h : OrderSurvives env buffer root)
    (hvalid : s.isValid = true → checkOrder root = .ok none) :
    (stockStage env origin.reply root s).Returns fun r => AcceptedIf root r.1 := by
  obtain ⟨request, hrequest⟩ := h.stock
  have hcheck : (checkProductStock env.json root s.errorMessage).Returns fun result =>
      result.1 = true → ∃ r, StockRequest.ofJson root = .ok (.ok r) ∧
        (r.sourceType = "hub" ∨ r.sourceType = "warehouse") := by
    refine Returns.bind (Q := fun verdict => verdict = none → ∃ r,
      StockRequest.ofJson root = .ok (.ok r) ∧
        (r.sourceType = "hub" ∨ r.sourceType = "warehouse")) ?_ fun verdict hverdict => ?_
    · unfold stockVerdict
      refine Returns.bind (Q := fun v => v = request) (Returns.ofExcept hrequest rfl) ?_
      rintro v rfl
      cases v with
      | error rejection => exact fun hnone => by cases hnone
      | ok r => exact StockRequest.check_knows hrequest
    · cases verdict with
      | none => exact fun _ => hverdict rfl
      | some r => exact fun hfalse => by cases hfalse
  refine Returns.bind hcheck fun result hresult => replied_returns (Q := AcceptedIf root) ?_
  exact fun hv hp => ⟨hvalid hv, hresult hp⟩

theorem updateStage_returns (h : OrderSurvives env buffer root)
    (haccepted : AcceptedIf root s) :
    (updateStage origin.reply root s).Returns fun r => AcceptedIf root r.1 := by
  unfold updateStage
  split
  · next hboth =>
    obtain ⟨hstock, hvalid⟩ := (Bool.and_eq_true _ _).mp hboth
    obtain ⟨t, ht⟩ := h.transfer (haccepted hvalid hstock)
    have hcall : ∀ u : Update, u.call.Returns fun _ => True := fun u => by
      obtain ⟨o, _, hcall⟩ := u.call_eq
      rw [hcall]
      exact fun _ => trivial
    refine Returns.bind (Q := fun _ => True) ?_ fun result _ =>
      replied_returns (Q := AcceptedIf root) haccepted
    rw [realTimeUpdate_of_transfer ht]
    cases hd : t.debit with
    | none =>
      rw [Transfer.perform_of_no_debit hd]
      trivial
    | some d =>
      rw [Transfer.perform_of_debit hd]
      refine (hcall d).bind fun result _ => ?_
      split
      · cases t.credit with
        | none => trivial
        | some k => exact hcall k
      · trivial
  · exact haccepted

/-- A stage of the source warehouse leaves the two flags. -/
theorem watchedStage_returns {check : Handling (Bool × String)} {after : Bool × String → Loop}
    (hcheck : check.Returns fun _ => True) (hafter : ∀ r, AcceptedIf root (after r)) :
    (check >>= fun r => replyIf origin.reply r.1 r.2 >>= fun go =>
      (Program.pure (after r, go) : Handling (Loop × Bool))).Returns fun r =>
        AcceptedIf root r.1 :=
  hcheck.bind fun r _ => replied_returns (hafter r)

theorem lowStockStage_returns (h : OrderSurvives env buffer root)
    (haccepted : AcceptedIf root s) :
    (lowStockStage env origin.reply root s).Returns fun r => AcceptedIf root r.1 :=
  watchedStage_returns (watched_returns trivial (fun w => w.lowStock_returns _ _) h.watched)
    fun _ => haccepted

theorem reStockStage_returns (h : OrderSurvives env buffer root)
    (haccepted : AcceptedIf root s) :
    (reStockStage env origin.reply root s).Returns fun r => AcceptedIf root r.1 :=
  watchedStage_returns (watched_returns trivial (fun w => w.reStock_returns _ _) h.watched)
    fun _ => haccepted

/-- Stages one after another: the first leaves what the others start from. -/
theorem stages_returns {P P' : Loop → Prop} {stage : Loop → Handling (Loop × Bool)}
    {rest : List (Loop → Handling (Loop × Bool))}
    (hstage : (stage s).Returns fun r => P r.1)
    (hrest : ∀ s', P s' → (stages rest s').Returns fun r => r.2 = true → P' r.1) :
    (stages (stage :: rest) s).Returns fun r => r.2 = true → P' r.1 := by
  refine Returns.bind hstage fun r hr => ?_
  obtain ⟨s', go⟩ := r
  cases go with
  | true => exact hrest s' hr
  | false => exact fun hfalse => by cases hfalse

theorem orderStages_returns (h : OrderSurvives env buffer root) :
    (orderStages env origin.reply root s).Returns fun r => r.2 = true → AcceptedIf root r.1 := by
  unfold orderStages
  refine stages_returns (P := fun s => s.isValid = true → checkOrder root = .ok none)
    (validateStage_returns h) fun s₁ hvalid => ?_
  refine stages_returns (stockStage_returns h hvalid) fun s₂ h₂ => ?_
  refine stages_returns (updateStage_returns h h₂) fun s₃ h₃ => ?_
  refine stages_returns (lowStockStage_returns h h₃) fun s₄ h₄ => ?_
  refine stages_returns (reStockStage_returns h h₄) fun s₅ h₅ => ?_
  exact fun _ => h₅

theorem processMessage_returns {protocol : String} {clientId : Int}
    (h : IsCommand buffer ∨ Passes (Forward.ofText env.json buffer)) :
    (processMessage env.json buffer protocol clientId).Returns fun _ => True := by
  unfold processMessage
  split
  · exact handleListClientsRequest_returns _ _
  · split
    · exact handleShowReportRequest_returns _ _
    · next hlist hreport =>
      obtain ⟨f, hf⟩ := h.resolve_left fun hcommand => hcommand.elim hlist hreport
      rw [hf]
      cases f with
      | none => trivial
      | some f => exact forwardMessageToClient_returns _ _ _

theorem storeOrder_passes {store : OrderStore} :
    Passes (store.storeOrder env.json buffer).1 ↔ ∃ v, env.json.parse buffer = .ok v ∧
      ∀ root, v = some root → Passes (OrderStore.readProduct root) := by
  unfold OrderStore.storeOrder
  cases hparse : env.json.parse buffer with
  | error e => simp [Passes]
  | ok v =>
    cases v with
    | none => simp [Passes]
    | some root =>
      cases hread : OrderStore.readProduct root with
      | error e => simp [Passes, hread]
      | ok pair =>
        simp only [Except.ok.injEq, Option.some.injEq, forall_eq', exists_eq_left', hread]
        refine ⟨fun _ => passes_ok pair, fun _ => ?_⟩
        split
        · exact passes_ok ()
        · exact passes_ok ()

/-- The reply to `storeOrder` is the one of some store; any other is free. -/
def Genuine (env : Env) : (o : Operation) → o.Reply → Prop
  | .storeOrder jsonStr, reply =>
    ∃ store : OrderStore, reply = (store.storeOrder env.json jsonStr).1
  | _, _ => True

theorem answer_genuine (ok : Bool) (shared : Shared) (o : Operation) :
    Genuine env o (answer env ok shared o).1 := by
  cases o with
  | storeOrder jsonStr => exact ⟨shared.orders, rfl⟩
  | _ => trivial

theorem handleOrder_returns (hbrace : beginsWithBrace buffer = true) (h : Survivable env buffer) :
    (handleOrder env origin.reply buffer s).ReturnsOn (Genuine env) fun r =>
      r.2 = true → r.1.isValid = true → r.1.productStock = true →
        Passes (Forward.ofText env.json buffer) := by
  unfold Survivable at h
  rw [if_pos hbrace] at h
  unfold handleOrder
  rintro stored ⟨store, rfl⟩
  obtain ⟨v, hparse, hv⟩ := h
  obtain ⟨⟨⟩, hstored⟩ : Passes (store.storeOrder env.json buffer).1 := storeOrder_passes.2
    ⟨v, hparse, fun root hroot => (hv root hroot).stored⟩
  show ReturnsOn _ _ (Program.ofExcept (store.storeOrder env.json buffer).1 >>= _)
  rw [hstored, hparse]
  cases v with
  | none => exact fun hfalse => by cases hfalse
  | some root =>
    have hroot := hv root rfl
    exact (orderStages_returns hroot).on.mono fun r hr hgo hvalid hstock =>
      hroot.forward (hr hgo hvalid hstock)

theorem handleMessage_returns (origin : Origin) {protocol : String} (h : Survivable env buffer) :
    (handleMessage env origin.reply protocol buffer s).ReturnsOn (Genuine env) fun _ => True := by
  unfold handleMessage
  refine ReturnsOn.bind (Q := fun r => r.2 = true → r.1.isValid = true → r.1.productStock = true →
    IsCommand buffer ∨ Passes (Forward.ofText env.json buffer)) ?_ fun r hr => ?_
  · unfold orderBranch
    split
    · next hbrace =>
      exact (handleOrder_returns hbrace h).mono fun r hr hgo hvalid hstock =>
        .inr (hr hgo hvalid hstock)
    · next hbrace =>
      unfold Survivable at h
      rw [if_neg hbrace] at h
      exact fun _ _ _ => h
  · obtain ⟨s', go⟩ := r
    simp only
    split
    · next hall =>
      simp only [Bool.and_eq_true] at hall
      obtain ⟨⟨rfl, hvalid⟩, hstock⟩ := hall
      exact ReturnsOn.bind (processMessage_returns (hr rfl hvalid hstock)).on fun _ _ => trivial
    · trivial

/-- **A survivable message is handled without an exception**, by either
handler, from any loop variables, whatever the database and the sockets do. -/
theorem iteration_returns (h : Survivable env buffer) :
    (iteration env origin buffer s).ReturnsOn (Genuine env) fun _ => True := by
  cases origin with
  | udp cliAddr =>
    show (handleUdpClients env cliAddr buffer s).ReturnsOn _ _
    unfold handleUdpClients
    rintro registered -
    show ReturnsOn _ _ (if !registered && atoi buffer ≠ 0 then _ else _)
    split
    · exact fun _ _ => trivial
    · exact fun _ _ => handleMessage_returns (.udp cliAddr) h
  | tcp clientSockfd =>
    show (handleTcpClient env clientSockfd buffer s).ReturnsOn _ _
    unfold handleTcpClient
    rintro written -
    show ReturnsOn _ _ (if (show Bool from written) then _ else _)
    split
    · exact handleMessage_returns (.tcp clientSockfd) h
    · trivial

end

/-! ## Other messages end the server -/

/-- Every call and every send succeeds. -/
abbrev sunny (env : Env) : Program.Answer Server Shared := answer env true

/-- Tables that have in stock what an order asks for, wherever it asks. -/
def luringTables (root : Value) : Tables :=
  match StockRequest.ofJson root with
  | .ok (.ok r) =>
    let rows := [⟨some r.sourceId, some r.productName, some (max r.requestedQuantity 0)⟩]
    ⟨rows, rows⟩
  | _ => ⟨[], []⟩

section

variable {env : Env} {fd : Int} {buffer : String} {root : Value} {s s' : Loop}
  {shared shared' : Shared} {go : Bool}

theorem replyIf_ran (condition : Bool) (text : String) :
    (replyIf (tcpReply fd) condition text).run (sunny env) shared = (.ok true, shared) := by
  cases condition <;> rfl

/-- A stage that got to its end went on, with its check passed and its loop variables set. -/
theorem stage_ran {α : Type} {check : Handling α} {condition : α → Bool} {text : α → String}
    {after : α → Loop}
    (hrun : (check >>= fun a => replyIf (tcpReply fd) (condition a) (text a) >>= fun go =>
      (Program.pure (after a, go) : Handling (Loop × Bool))).run (sunny env) shared =
        (.ok (s', go), shared')) :
    go = true ∧ ∃ a, check.run (sunny env) shared = (.ok a, shared') ∧ s' = after a := by
  obtain ⟨a, shared₁, hcheck, hrun⟩ := run_bind_ok _ hrun
  rw [run_bind, replyIf_ran] at hrun
  cases hrun
  exact ⟨rfl, a, hcheck, rfl⟩

/-- A conversion that a program got past. -/
theorem ofExcept_ran {α : Type} {x : Except Exn α} {a : α}
    (hrun : (Program.ofExcept x : Handling α).run (sunny env) shared = (.ok a, shared')) :
    x = .ok a ∧ shared' = shared := by
  cases x with
  | ok b => cases hrun; exact ⟨rfl, rfl⟩
  | error e => cases hrun

theorem validateStage_ran
    (hrun : (validateStage env (tcpReply fd) root s).run (sunny env) shared =
      (.ok (s', go), shared')) :
    go = true ∧ shared' = shared ∧ Passes (checkOrder root) ∧
      (checkOrder root = .ok none → s'.isValid = true) := by
  obtain ⟨hgo, result, hcheck, rfl⟩ := stage_ran hrun
  obtain ⟨hv, rfl⟩ := ofExcept_ran hcheck
  obtain ⟨verdict, hverdict, hv⟩ := Except.seq_ok hv
  refine ⟨hgo, rfl, ⟨verdict, hverdict⟩, fun hnone => ?_⟩
  cases hverdict.symm.trans hnone
  cases hv
  rfl

theorem readStock_luring (c : Collation) {r : StockRequest} :
    readStock (some (selectRows c r.sourceId r.productName
      [⟨some r.sourceId, some r.productName, some (max r.requestedQuantity 0)⟩])) =
        max r.requestedQuantity 0 := by
  simp [selectRows, Row.names, c.refl, readStock]

/-- The stock check accepts an order whose source it knows, over the tables that
have what the order asks for. -/
theorem check_luring {r : StockRequest} (hr : StockRequest.ofJson root = .ok (.ok r))
    (hknown : r.sourceType = "hub" ∨ r.sourceType = "warehouse")
    (htables : shared.tables = luringTables root) :
    r.check.run (sunny env) shared = (.ok none, shared) := by
  have hjudge : r.judge (max r.requestedQuantity 0) = none := by
    unfold StockRequest.judge
    rw [if_neg (by omega), if_pos (by omega)]
  have hrows : shared.tables.hubs =
      [⟨some r.sourceId, some r.productName, some (max r.requestedQuantity 0)⟩] ∧
        shared.tables.warehouses =
          [⟨some r.sourceId, some r.productName, some (max r.requestedQuantity 0)⟩] := by
    rw [htables, luringTables, hr]
    exact ⟨rfl, rfl⟩
  unfold StockRequest.check
  rcases hknown with hhub | hwarehouse
  · rw [if_pos hhub]
    show (Except.ok (r.judge (readStock (some (selectRows env.collation r.sourceId r.productName
      shared.tables.hubs)))), shared) = _
    rw [hrows.1, readStock_luring, hjudge]
  · rw [hwarehouse, if_neg (by decide), if_pos rfl]
    show (Except.ok (r.judge (readStock (some (selectRows env.collation r.sourceId r.productName
      shared.tables.warehouses)))), shared) = _
    rw [hrows.2, readStock_luring, hjudge]

theorem stockStage_ran
    (hrun : (stockStage env (tcpReply fd) root s).run (sunny env) shared =
      (.ok (s', go), shared')) :
    go = true ∧ Passes (StockRequest.ofJson root) ∧ s'.isValid = s.isValid ∧
      (Accepted root → shared.tables = luringTables root → s'.productStock = true) := by
  obtain ⟨hgo, result, hcheck, rfl⟩ := stage_ran hrun
  obtain ⟨verdict, shared₁, hverdict, hresult⟩ := run_bind_ok _ hcheck
  obtain ⟨request, shared₂, hread, hmatch⟩ := run_bind_ok _ hverdict
  obtain ⟨hof, rfl⟩ := ofExcept_ran hread
  refine ⟨hgo, ⟨request, hof⟩, rfl, fun haccepted htables => ?_⟩
  obtain ⟨r, hr, hknown⟩ := haccepted.source
  cases hof.symm.trans hr
  have hnone := @check_luring env root shared₂ r hr hknown htables
  cases (hmatch : r.check.run (sunny env) shared₂ = _).symm.trans hnone
  cases hresult
  rfl

theorem updateStage_ran
    (hrun : (updateStage (tcpReply fd) root s).run (sunny env) shared = (.ok (s', go), shared')) :
    go = true ∧ s' = s ∧
      (s.isValid = true → s.productStock = true → Passes (Transfer.ofJson root)) := by
  unfold updateStage at hrun
  split at hrun
  · obtain ⟨hgo, result, hcheck, rfl⟩ := stage_ran hrun
    obtain ⟨t, shared₁, ht, _⟩ := run_bind_ok _ hcheck
    exact ⟨hgo, rfl, fun _ _ => ⟨t, (ofExcept_ran ht).1⟩⟩
  · next hnot =>
    cases hrun
    exact ⟨rfl, rfl, fun hvalid hstock => absurd (by simp [hvalid, hstock]) hnot⟩

theorem lowStockStage_ran
    (hrun : (lowStockStage env (tcpReply fd) root s).run (sunny env) shared =
      (.ok (s', go), shared')) :
    go = true ∧ s'.isValid = s.isValid ∧ s'.productStock = s.productStock ∧
      Passes (WatchedStock.ofJson root) := by
  obtain ⟨hgo, result, hcheck, rfl⟩ := stage_ran hrun
  obtain ⟨w, shared₁, hw, _⟩ := run_bind_ok _ hcheck
  exact ⟨hgo, rfl, rfl, w, (ofExcept_ran hw).1⟩

theorem reStockStage_ran
    (hrun : (reStockStage env (tcpReply fd) root s).run (sunny env) shared =
      (.ok (s', go), shared')) :
    go = true ∧ s'.isValid = s.isValid ∧ s'.productStock = s.productStock := by
  obtain ⟨hgo, result, _, rfl⟩ := stage_ran hrun
  exact ⟨hgo, rfl, rfl⟩

theorem stages_ran {stage : Loop → Handling (Loop × Bool)}
    {rest : List (Loop → Handling (Loop × Bool))} {r : Loop × Bool}
    (hrun : (stages (stage :: rest) s).run (sunny env) shared = (.ok r, shared')) :
    ∃ s₁ go shared₁, (stage s).run (sunny env) shared = (.ok (s₁, go), shared₁) ∧
      (go = true → (stages rest s₁).run (sunny env) shared₁ = (.ok r, shared')) := by
  obtain ⟨⟨s₁, go⟩, shared₁, hstage, hrest⟩ := run_bind_ok _ hrun
  refine ⟨s₁, go, shared₁, hstage, fun hgo => ?_⟩
  subst hgo
  exact hrest

theorem orderStages_ran (htables : shared.tables = luringTables root)
    (hrun : (orderStages env (tcpReply fd) root s).run (sunny env) shared =
      (.ok (s', go), shared')) :
    go = true ∧ Passes (checkOrder root) ∧ Passes (StockRequest.ofJson root) ∧
      Passes (WatchedStock.ofJson root) ∧ (Accepted root → Passes (Transfer.ofJson root)) ∧
      (Accepted root → s'.isValid = true ∧ s'.productStock = true) := by
  unfold orderStages at hrun
  obtain ⟨s₁, _, shared₁, hstage₁, hrun₁⟩ := stages_ran hrun
  obtain ⟨rfl, rfl, hlimits, hvalid⟩ := validateStage_ran hstage₁
  obtain ⟨s₂, _, shared₂, hstage₂, hrun₂⟩ := stages_ran (hrun₁ rfl)
  obtain ⟨rfl, hstock, hvalid₂, hinStock⟩ := stockStage_ran hstage₂
  obtain ⟨s₃, _, shared₃, hstage₃, hrun₃⟩ := stages_ran (hrun₂ rfl)
  obtain ⟨rfl, rfl, htransfer⟩ := updateStage_ran hstage₃
  obtain ⟨s₄, _, shared₄, hstage₄, hrun₄⟩ := stages_ran (hrun₃ rfl)
  obtain ⟨rfl, hvalid₄, hinStock₄, hwatched⟩ := lowStockStage_ran hstage₄
  obtain ⟨s₅, _, shared₅, hstage₅, hrun₅⟩ := stages_ran (hrun₄ rfl)
  obtain ⟨rfl, hvalid₅, hinStock₅⟩ := reStockStage_ran hstage₅
  cases hrun₅ rfl
  have hpassed : Accepted root → s₃.isValid = true ∧ s₃.productStock = true := fun h =>
    ⟨hvalid₂.trans (hvalid h.limits), hinStock h htables⟩
  refine ⟨rfl, hlimits, hstock, hwatched, fun h => ?_, fun h => ?_⟩
  · exact htransfer (hpassed h).1 (hpassed h).2
  · exact ⟨hvalid₅.trans (hvalid₄.trans (hpassed h).1),
      hinStock₅.trans (hinStock₄.trans (hpassed h).2)⟩

theorem processMessage_ran {protocol : String} {clientId : Int}
    (hrun : (processMessage env.json buffer protocol clientId).run (sunny env) shared =
      (.ok (), shared')) : IsCommand buffer ∨ Passes (Forward.ofText env.json buffer) := by
  unfold processMessage at hrun
  split at hrun
  · next hlist => exact .inl (.inl hlist)
  · split at hrun
    · next hreport => exact .inl (.inr hreport)
    · obtain ⟨f, shared₁, hf, _⟩ := run_bind_ok _ hrun
      exact .inr ⟨f, (ofExcept_ran hf).1⟩

/-- A message that a TCP handler gets to the end of, on tables that lure it
into every branch, is survivable. -/
theorem survivable_of_ran (hvalid : s.isValid = true) (hstock : s.productStock = true)
    (htables : ∀ root, env.json.parse buffer = .ok (some root) →
      shared.tables = luringTables root)
    (hrun : (handleTcpClient env fd buffer s).run (sunny env) shared = (.ok s', shared')) :
    Survivable env buffer := by
  replace hrun : (handleMessage env (tcpReply fd) "TCP" buffer s).run (sunny env) shared =
    (.ok s', shared') := hrun
  unfold handleMessage at hrun
  obtain ⟨⟨s₁, go⟩, shared₁, hbranch, hrun⟩ := run_bind_ok _ hrun
  have hprocess : go = true → s₁.isValid = true → s₁.productStock = true →
      IsCommand buffer ∨ Passes (Forward.ofText env.json buffer) := by
    intro hgo hvalid₁ hstock₁
    simp only [hgo, hvalid₁, hstock₁, Bool.and_self, if_true] at hrun
    obtain ⟨⟨⟩, shared₂, hrun, _⟩ := run_bind_ok _ hrun
    exact processMessage_ran hrun
  unfold orderBranch at hbranch
  unfold Survivable
  split at hbranch
  · next hbrace =>
    rw [if_pos hbrace]
    obtain ⟨stored, shared₂, hstore, hbranch⟩ := run_bind_ok _ hbranch
    cases hstore
    obtain ⟨⟨⟩, shared₃, hstored, hparsing⟩ := run_bind_ok _ hbranch
    obtain ⟨hpassed, rfl⟩ := ofExcept_ran hstored
    obtain ⟨v, hparse, hread⟩ := storeOrder_passes.1 ⟨(), hpassed⟩
    obtain ⟨v', shared₄, hparsed, hstages⟩ := run_bind_ok _ hparsing
    obtain ⟨hsame, rfl⟩ := ofExcept_ran hparsed
    cases hparse.symm.trans hsame
    refine ⟨v, hparse, ?_⟩
    rintro root rfl
    have htables₂ : (sunny env shared (.storeOrder buffer)).2.tables = luringTables root :=
      htables root hparse
    obtain ⟨hgo, hlimits, hrequest, hwatched, htransfer, hpassed⟩ :=
      orderStages_ran htables₂ hstages
    refine ⟨hread root rfl, hlimits, hrequest, hwatched, htransfer, fun haccepted => ?_⟩
    obtain ⟨hvalid₁, hstock₁⟩ := hpassed haccepted
    exact (hprocess hgo hvalid₁ hstock₁).resolve_left fun hcommand =>
      hcommand.elim (not_command_of_brace hbrace).1 (not_command_of_brace hbrace).2
  · next hbrace =>
    rw [if_neg hbrace]
    cases hbranch
    exact hprocess rfl hvalid hstock

end

/-! ## Runs -/

section

variable {env : Env} {s s' : Sys env}

/-- A server ends by the exception of a job, or of a handler that gets no session. -/
theorem Sys.step_crashed {e : Event} (hstep : s.step e = some s') (hcrash : s'.crashed = true) :
    (∃ job ∈ s'.jobs, ∃ ex, job.task.rest = .throw ex) ∨ ∃ who, e = .connectFails who := by
  have halive := step_alive hstep
  cases e with
  | connectFails who => exact .inr ⟨who, rfl⟩
  | datagram cliAddr payload =>
    obtain ⟨_, _, rfl⟩ := datagram_some hstep
    cases halive.symm.trans hcrash
  | accept fd cliAddr =>
    obtain ⟨_, rfl⟩ := accept_some hstep
    cases halive.symm.trans hcrash
  | read i payload =>
    obtain ⟨_, _, ⟨_, rfl⟩ | ⟨_, _, _, rfl⟩⟩ := read_some hstep
    · rw [readPid_eq] at hcrash
      cases halive.symm.trans hcrash
    · cases halive.symm.trans hcrash
  | hangup i =>
    obtain ⟨_, _, ⟨_, rfl⟩ | ⟨_, _, _, rfl⟩⟩ := hangup_some hstep
    · cases halive.symm.trans hcrash
    · cases halive.symm.trans hcrash
  | proceed who ok =>
    obtain ⟨job, event, task, shared, hact, htask, rfl⟩ := proceed_some hstep
    obtain ⟨s₁, hs₁⟩ : ∃ s₁ : Sys env, s₁ = { s with
      shared, log := s.log ++ [⟨who, job.origin, job.buffer, event⟩] } := ⟨_, rfl⟩
    have hact₁ : s₁.activity? who = some (.busy job) := by
      rw [hs₁]
      cases who <;> exact hact
    have halive₁ : s₁.crashed = false := by rw [hs₁]; exact halive
    rw [← hs₁] at hcrash ⊢
    obtain ⟨before, after, -, hnew⟩ := active_split hact₁
    rcases settle_cases s₁ who (job.withTask task) with
      ⟨_, _, _, heq⟩ | ⟨_, _, heq⟩ | ⟨ex, hthrow, heq⟩
    · have := (congrArg Sys.crashed heq).symm.trans hcrash
      simp [halive₁] at this
    · have := (congrArg Sys.crashed heq).symm.trans hcrash
      simp [halive₁] at this
    · refine .inl ⟨job.withTask task, ?_, ex, hthrow⟩
      show _ ∈ (s₁.settle who (job.withTask task)).jobs
      rw [heq]
      refine List.mem_append_right _ ?_
      show _ ∈ (s₁.setActivity who (.busy (job.withTask task))).active
      rw [hnew]
      simp [Activity.jobs]
  | cleanup timeout => obtain rfl := cleanup_some hstep; cases halive.symm.trans hcrash
  | tick d => obtain rfl := tick_some hstep; cases halive.symm.trans hcrash

/-- Where the messages of a run and its end come from. -/
structure Sys.Traced (past : List Event) (s : Sys env) : Prop where
  received : ∀ job ∈ s.jobs, ∃ e ∈ past, ∃ payload, e.payload? = some payload ∧
    job.buffer = receivedText payload
  ended : s.crashed = true → (∃ job ∈ s.jobs, ∃ ex, job.task.rest = .throw ex) ∨
    ∃ before who, past = before ++ [.connectFails who]

theorem Sys.Traced.step {past : List Event} {e : Event} (h : s.Traced past)
    (hstep : s.step e = some s') : s'.Traced (past ++ [e]) where
  received job hjob := by
    have hold : ∀ job₀ ∈ s.jobs, job₀.buffer = job.buffer → ∃ e' ∈ past ++ [e], ∃ payload,
        e'.payload? = some payload ∧ job.buffer = receivedText payload := by
      intro job₀ hjob₀ hbuffer
      obtain ⟨e₀, he₀, payload, hpayload, htext⟩ := h.received job₀ hjob₀
      exact ⟨e₀, List.mem_append_left _ he₀, payload, hpayload, hbuffer ▸ htext⟩
    rcases step_jobs hstep hjob with hin | ⟨payload, hpayload, hbuffer, _⟩ |
      ⟨who, ok, event, job₁, task, _, hact, rfl, _⟩
    · exact hold job hin rfl
    · exact ⟨e, by simp, payload, hpayload, hbuffer⟩
    · exact hold job₁ (List.mem_append_right _ (mem_active hact)) rfl
  ended hcrash := (step_crashed hstep hcrash).imp_right fun ⟨who, he⟩ => ⟨past, who, by rw [he]⟩

/-- While its messages are survivable only a session that does not open ends
the server. -/
theorem Sys.run_survives {tables : Tables} {es : List Event}
    (hsent : ∀ e ∈ es, ∀ payload, e.payload? = some payload →
      Survivable env (receivedText payload))
    (hrun : (Sys.start tables).run es = some s) (hcrash : s.crashed = true) :
    ∃ before who, es = before ++ [.connectFails who] := by
  have hstart : (Sys.start tables : Sys env).Traced [] := {
    received := fun job hjob => by cases hjob
    ended := fun h => by cases h }
  have htraced : s.Traced es := runSteps_recorded (J := fun past s => Sys.Traced past s)
    (fun _ _ _ _ h hstep => h.step hstep) hstart hrun
  refine (htraced.ended hcrash).resolve_left ?_
  rintro ⟨job, hjob, ex, hthrow⟩
  obtain ⟨e, he, payload, hpayload, hbuffer⟩ := htraced.received job hjob
  have hreturns : (iteration env job.origin job.buffer job.loop).ReturnsOn (Genuine env)
    fun _ => True := iteration_returns (hbuffer ▸ hsent e he payload hpayload)
  have hreplies : ∀ e ∈ job.task.history, Genuine env e.1 e.2 := by
    intro e he
    obtain ⟨h, h', hhistory⟩ := List.append_of_mem he
    obtain ⟨_, _, s₁, _, hat⟩ := run_answered hrun hjob hhistory
    obtain ⟨ok, hreply⟩ := hat.reply
    rw [hreply]
    exact answer_genuine ok s₁.shared e.1
  have hrest := hreturns.leads job.task.leads hreplies
  rw [hthrow] at hrest
  exact hrest

theorem Sys.activity?_setActivity {who : Who} {a b : Activity env}
    (h : s.activity? who = some a) : (s.setActivity who b).activity? who = some b := by
  cases who with
  | udp => rfl
  | tcp i =>
    obtain ⟨c, clientPid, hc, hphase⟩ := activity?_tcp h
    simp [activity?, setActivity, hc, Conn.become, hphase]

/-- What the handler of the only message does next is all that is under way. -/
theorem Sys.active_alone {who : Who} {job : Job env} {a : Activity env}
    (hact : s.activity? who = some (.busy job)) (hactive : s.active = [job]) :
    (s.setActivity who a).active = a.jobs := by
  obtain ⟨before, after, hold, hnew⟩ := active_split hact
  have hlength := congrArg List.length (hactive.symm.trans hold)
  simp only [List.length_append, Activity.jobs, List.length_singleton] at hlength
  rw [hnew, List.eq_nil_of_length_eq_zero (l := before) (by omega),
    List.eq_nil_of_length_eq_zero (l := after) (by omega), List.nil_append, List.append_nil]

/-- A handler that goes on alone, all of whose calls succeed, leaves what its
program leaves: it ends the server if the program throws, and has handled the
message if it returns. -/
theorem Sys.run_alone {who : Who} {r : Except Exn Loop} {shared' : Shared} {job : Job env}
    {o : Operation} {k : o.Reply → Handling Loop} (halive : s.crashed = false)
    (hact : s.activity? who = some (.busy job)) (hactive : s.active = [job])
    (hrest : job.task.rest = .call o k)
    (hrun : (@Program.call Server Exn Loop o k).run (sunny env) s.shared = (r, shared')) :
    ∃ n s', s.run (List.replicate n (.proceed who true)) = some s' ∧ s'.shared = shared' ∧
      (∀ ex, r = .error ex → s'.crashed = true) ∧
      ∀ result, r = .ok result → ∃ f ∈ s'.finished, f.job.buffer = job.buffer := by
  obtain ⟨rest, hcall⟩ : ∃ rest, rest = @Program.call Server Exn Loop o k := ⟨_, rfl⟩
  induction rest generalizing s job o k with
  | pure a => cases hcall
  | throw e => cases hcall
  | call o' k' ih =>
    cases hcall
    obtain ⟨⟨event, task, shared⟩, htask⟩ := Task.step_of_call hrest (sunny env) s.shared
    obtain ⟨k₁, hrest₁, hreply, _, htail, rfl⟩ := Task.step_some htask
    cases hrest₁.symm.trans hrest
    obtain ⟨s₁, hs₁⟩ : ∃ s₁ : Sys env, s₁ = { s with
      shared := (sunny env s.shared event.1).2,
      log := s.log ++ [⟨who, job.origin, job.buffer, event⟩] } := ⟨_, rfl⟩
    have hact₁ : s₁.activity? who = some (.busy job) := by
      rw [hs₁]
      cases who <;> exact hact
    have halive₁ : s₁.crashed = false := by rw [hs₁]; exact halive
    have hstep : s.step (.proceed who true) = some (s₁.settle who (job.withTask task)) := by
      rw [hs₁]
      exact step_proceed halive hact (unlocked_of_alone hactive) htask
    have hnext : task.rest.run (sunny env) s₁.shared = (r, shared') := by
      rw [htail, hreply, hs₁]
      exact hrun
    rcases settle_cases s₁ who (job.withTask task) with
      ⟨o₁, k₁, hrest₁, heq⟩ | ⟨result, hpure, heq⟩ | ⟨e, hthrow, heq⟩
    · replace hrest₁ : task.rest = .call o₁ k₁ := hrest₁
      have hgoes : (s₁.setActivity who (.busy (job.withTask task))).activity? who =
        some (.busy (job.withTask task)) := activity?_setActivity hact₁
      have halone : s₁.active = [job] := by rw [hs₁]; exact hactive
      obtain ⟨n, s', hn, hend⟩ := ih event.2 ((setActivity_crashed who _).trans halive₁) hgoes
        (active_alone hact₁ halone) hrest₁ (by rw [setActivity_shared, ← hrest₁]; exact hnext)
        (htail.symm.trans hrest₁)
      exact ⟨n + 1, s', runSteps_cons.2 ⟨_, hstep, heq ▸ hn⟩, hend⟩
    · replace hpure : task.rest = .pure result := hpure
      rw [hpure] at hnext
      cases hnext
      refine ⟨1, _, runSteps_cons.2 ⟨_, hstep, rfl⟩, ?_, fun ex hex => ?_, fun _ _ => ?_⟩
      · rw [heq]
        exact setActivity_shared who _
      · cases hex
      · rw [heq]
        exact ⟨_, List.mem_append_right _ List.mem_cons_self, rfl⟩
    · replace hthrow : task.rest = .throw e := hthrow
      rw [hthrow] at hnext
      cases hnext
      refine ⟨1, _, runSteps_cons.2 ⟨_, hstep, rfl⟩, ?_, fun _ _ => ?_, fun _ hok => ?_⟩
      · rw [heq]
        exact setActivity_shared who _
      · rw [heq]
      · cases hok

/-- A handler that goes on alone, all of whose calls succeed, ends the server
if its program throws. -/
theorem Sys.crash_of_error {who : Who} {ex : Exn} {shared' : Shared} {job : Job env}
    {o : Operation} {k : o.Reply → Handling Loop} (halive : s.crashed = false)
    (hact : s.activity? who = some (.busy job)) (hactive : s.active = [job])
    (hrest : job.task.rest = .call o k)
    (hrun : (@Program.call Server Exn Loop o k).run (sunny env) s.shared = (.error ex, shared')) :
    ∃ n s', s.run (List.replicate n (.proceed who true)) = some s' ∧ s'.crashed = true := by
  obtain ⟨n, s', hn, _, hcrash, _⟩ := Sys.run_alone halive hact hactive hrest hrun
  exact ⟨n, s', hn, hcrash ex rfl⟩

/-- A connection that was just accepted and sends one text twice: it is
registered by the first and handles the second. -/
theorem Sys.serving_run (tables : Tables) (cliAddr : SockAddr) (payload : String) :
    ∃ (loop : Loop) (s : Sys env), loop.isValid = true ∧ loop.productStock = true ∧
      s.crashed = false ∧ s.shared.tables = tables ∧
      s.activity? (.tcp 0) = some (.busy (.begin env (.tcp 0) (receivedText payload) loop)) ∧
      s.active = [.begin env (.tcp 0) (receivedText payload) loop] ∧
      ∀ es s', s.run es = some s' → (Sys.start tables).run
        (.accept 0 cliAddr :: .read 0 payload :: .read 0 payload :: es) = some s' := by
  obtain ⟨s₁, hs₁⟩ : ∃ s₁ : Sys env,
    s₁ = { Sys.start tables with conns := [⟨0, cliAddr, .awaitPid⟩] } := ⟨_, rfl⟩
  have haccept : (Sys.start tables : Sys env).step (.accept 0 cliAddr) = some s₁ := by
    rw [hs₁]
    rfl
  obtain ⟨r, hr⟩ : ∃ r, r = s₁.registration ⟨0, cliAddr, .awaitPid⟩ (atoi (receivedText payload)) :=
    ⟨_, rfl⟩
  obtain ⟨loop, hloop⟩ : ∃ loop, loop = { Loop.start with clientId := r.1 } := ⟨_, rfl⟩
  obtain ⟨s₂, hs₂⟩ : ∃ s₂ : Sys env, s₂ = { s₁ with
    shared := { s₁.shared with clients := r.2 },
    conns := [⟨0, cliAddr, .serving (atoi (receivedText payload)) (.idle loop)⟩] } := ⟨_, rfl⟩
  have hread : s₁.step (.read 0 payload) = some s₂ := by
    have hfirst : s₁.step (.read 0 payload) =
        some (s₁.readPid 0 ⟨0, cliAddr, .awaitPid⟩ (receivedText payload)) := by
      rw [hs₁]
      rfl
    rw [hfirst, readPid_eq, ← hr, hs₂, hloop, hs₁]
    rfl
  obtain ⟨s₃, hs₃⟩ : ∃ s₃ : Sys env, s₃ = { s₂ with
    conns := [⟨0, cliAddr, .serving (atoi (receivedText payload))
      (.busy (.begin env (.tcp 0) (receivedText payload) loop))⟩] } := ⟨_, rfl⟩
  have hread' : s₂.step (.read 0 payload) = some s₃ := by
    rw [hs₃, hs₂, hs₁]
    rfl
  refine ⟨loop, s₃, by rw [hloop]; rfl, by rw [hloop]; rfl, by rw [hs₃, hs₂, hs₁]; rfl,
    by rw [hs₃, hs₂, hs₁]; rfl, by rw [hs₃]; rfl, by rw [hs₃, hs₂, hs₁]; rfl,
    fun es s' hes => ?_⟩
  exact runSteps_cons.2 ⟨_, haccept, runSteps_cons.2 ⟨_, hread, runSteps_cons.2 ⟨_, hread', hes⟩⟩⟩

/-- A message that is not survivable ends a server that has just started over
some tables, on a connection that has just been accepted. -/
theorem Sys.run_crashes {payload : String} (h : ¬ Survivable env (receivedText payload)) :
    ∃ (tables : Tables) (cliAddr : SockAddr) (n : Nat) (s : Sys env),
      (Sys.start tables).run (.accept 0 cliAddr :: .read 0 payload :: .read 0 payload ::
        List.replicate n (.proceed (.tcp 0) true)) = some s ∧ s.crashed = true := by
  obtain ⟨tables, htables⟩ : ∃ tables, ∀ root,
      env.json.parse (receivedText payload) = .ok (some root) → tables = luringTables root := by
    cases hparse : env.json.parse (receivedText payload) with
    | error e => exact ⟨⟨[], []⟩, fun _ h => by cases h⟩
    | ok v =>
      cases v with
      | none => exact ⟨⟨[], []⟩, fun _ h => by cases h⟩
      | some root => exact ⟨luringTables root, fun _ h => by cases h; rfl⟩
  obtain ⟨loop, s, hvalid, hstock, halive, hsame, hact, hactive, hserves⟩ :=
    @Sys.serving_run env tables ⟨⟨127, 0, 0, 1⟩, 0⟩ payload
  rcases hran : (handleTcpClient env 0 (receivedText payload) loop).run (sunny env) s.shared with
    ⟨r, shared'⟩
  cases r with
  | ok s' =>
    exact absurd (survivable_of_ran hvalid hstock (fun root hroot =>
      hsame.trans (htables root hroot)) hran) h
  | error ex =>
    obtain ⟨n, s', hn, hcrash⟩ := Sys.crash_of_error halive hact hactive rfl hran
    exact ⟨tables, ⟨⟨127, 0, 0, 1⟩, 0⟩, n, s', hserves _ _ hn, hcrash⟩

/-- **What exceptions can end a server is decided by the texts of its messages
alone**: in the runs on the messages `sent` nothing but a session that does not
open ends the server, just when each of these messages is survivable. -/
theorem never_throws_iff (env : Env) (sent : String → Prop) :
    (∀ (tables : Tables) (es : List Event) (s : Sys env),
      (∀ e ∈ es, ∀ payload, e.payload? = some payload → sent payload) →
      (Sys.start tables).run es = some s → s.crashed = true →
        ∃ before who, es = before ++ [.connectFails who]) ↔
    ∀ payload, sent payload → Survivable env (receivedText payload) := by
  constructor
  · intro hup payload hsent
    by_contra hnot
    obtain ⟨tables, cliAddr, n, s, hrun, hcrash⟩ := Sys.run_crashes hnot
    have hreceived : ∀ e ∈ Event.accept 0 cliAddr :: .read 0 payload :: .read 0 payload ::
        List.replicate n (.proceed (.tcp 0) true), ∀ payload', e.payload? = some payload' →
          sent payload' := by
      intro e he payload' hpayload
      simp only [List.mem_cons, List.mem_replicate] at he
      rcases he with rfl | rfl | rfl | ⟨_, rfl⟩
      · cases hpayload
      · cases hpayload; exact hsent
      · cases hpayload; exact hsent
      · cases hpayload
    obtain ⟨before, who, hlast⟩ := hup tables _ s hreceived hrun hcrash
    -- All sessions of that run opened.
    have hin : Event.connectFails who ∈ before ++ [.connectFails who] := by simp
    rw [← hlast] at hin
    simp at hin
  · intro hsurvivable tables es s hsent hrun hcrash
    exact Sys.run_survives (fun e he payload hpayload =>
      hsurvivable payload (hsent e he payload hpayload)) hrun hcrash

end

end LogisticService
