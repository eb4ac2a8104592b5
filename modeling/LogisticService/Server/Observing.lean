import LogisticService.Server.Conduct

/-!
# What the parts of a handler ask for

Which operations each part of a handler asks for, whatever the replies, once
for all: the checks read stocks, the restock and the transfer make database
calls, a reply or a forward sends. What is said elsewhere of these operations
then holds of the parts. The checks, the replies and `processMessage` only
observe: none of their operations writes to what the handlers share, so they
leave the shared state as they found it.
-/

namespace LogisticService

open Effects Program

namespace Operation

/-- A call that reads a stock. -/
def ReadsStock : Operation → Prop
  | .getHubInventory .. | .getWarehouseInventory .. => True
  | _ => False

/-- A call that reads a stock, or adds to that of a warehouse. -/
def Restocks : Operation → Prop
  | .getHubInventory .. | .getWarehouseInventory .. => True
  | .updateWarehouseInventory _ _ quantity => 0 ≤ quantity
  | _ => False

/-- A call of a stored procedure. -/
def CallsDatabase : Operation → Prop
  | .getHubInventory .. | .getWarehouseInventory .. | .updateHubInventory ..
  | .updateWarehouseInventory .. => True
  | _ => False

/-- A call of a stored procedure that restocks nothing. -/
def Transfers (o : Operation) : Prop :=
  o.CallsDatabase ∧ ∀ u, o.update? = some u → u.OfTransfer

/-- A send, or the lookup of whom to send to. -/
def Delivers : Operation → Prop
  | .findClientById .. | .sendto .. | .write .. => True
  | _ => False

/-- The operation writes nothing that the handlers share. -/
def Passive : Operation → Prop
  | .updateHubInventory .. | .updateWarehouseInventory .. | .storeOrder .. | .registerClient .. =>
    False
  | _ => True

variable {o : Operation}

theorem ReadsStock.restocks (h : o.ReadsStock) : o.Restocks := by
  cases o with
  | getHubInventory | getWarehouseInventory => trivial
  | _ => exact h.elim

theorem ReadsStock.transfers (h : o.ReadsStock) : o.Transfers := by
  cases o with
  | getHubInventory | getWarehouseInventory => exact ⟨trivial, fun u hu => by cases hu⟩
  | _ => exact h.elim

theorem Restocks.callsDatabase (h : o.Restocks) : o.CallsDatabase := by
  cases o with
  | getHubInventory | getWarehouseInventory | updateWarehouseInventory => trivial
  | _ => exact h.elim

theorem CallsDatabase.silent (h : o.CallsDatabase) : o.text? = none := by
  cases o with
  | sendto | write => exact h.elim
  | _ => rfl

theorem ReadsStock.passive (h : o.ReadsStock) : o.Passive := by
  cases o with
  | getHubInventory | getWarehouseInventory => trivial
  | _ => exact h.elim

theorem Delivers.passive (h : o.Delivers) : o.Passive := by
  cases o with
  | findClientById | sendto | write => trivial
  | _ => exact h.elim

theorem Passive.update? (h : o.Passive) : o.update? = none := by
  cases o with
  | updateHubInventory | updateWarehouseInventory => exact h.elim
  | _ => rfl

end Operation

/-! ## The parts -/

section

variable {env : Env} {origin : Origin}

theorem StockRequest.check_reads (r : StockRequest) : r.check.Only Operation.ReadsStock := by
  unfold check
  split
  · exact ⟨trivial, fun _ => trivial⟩
  · split
    · exact ⟨trivial, fun _ => trivial⟩
    · trivial

theorem checkProductStock_reads (json : JsonCpp) (root : Value) (errorMessage : String) :
    (checkProductStock json root errorMessage).Only Operation.ReadsStock := by
  refine Only.bind (Only.ofExcept_bind fun request _ => ?_) fun verdict => ?_
  · cases request with
    | error rejection => trivial
    | ok r => exact r.check_reads
  · cases verdict <;> trivial

theorem checkLowStockAlert_reads (json : JsonCpp) (root : Value) (alertOut : String) :
    (checkLowStockAlert json root alertOut).Only Operation.ReadsStock := by
  refine Only.ofExcept_bind fun w _ => ?_
  cases w with
  | none => trivial
  | some w =>
    refine ⟨trivial, fun rows => ?_⟩
    show (if readStock rows = -1 then _ else _ : Handling _).Only Operation.ReadsStock
    split
    · trivial
    · split <;> trivial

theorem reStock_restocks (json : JsonCpp) (root : Value) (alertOut : String) :
    (reStock json root alertOut).Only Operation.Restocks := by
  refine Only.ofExcept_bind fun w _ => ?_
  cases w with
  | none => trivial
  | some w =>
    refine ⟨trivial, fun rows => ?_⟩
    show (if readStock rows = -1 then _ else _ : Handling _).Only Operation.Restocks
    split
    · trivial
    · split
      · next hlow =>
        refine ⟨?_, fun n => ?_⟩
        · unfold RESTOCK_THRESHOLD at hlow
          show 0 ≤ MAX_CAPACITY - readStock rows
          unfold MAX_CAPACITY
          omega
        · show (if updateResult n = 1 then _ else _ : Handling _).Only Operation.Restocks
          split <;> trivial
      · trivial

theorem Update.call_asks {G : Operation → Prop} (u : Update)
    (hG : ∀ o : Operation, o.CallsDatabase → o.update? = some u → G o) : u.call.Only G := by
  obtain ⟨table, location, productName, quantity⟩ := u
  cases table with
  | hubs => exact ⟨hG _ trivial rfl, fun _ => trivial⟩
  | warehouses => exact ⟨hG _ trivial rfl, fun _ => trivial⟩

/-- A transfer asks for the updates of its two sides. -/
theorem realTimeUpdate_asks {root : Value} {G : Operation → Prop}
    (hG : ∀ t u, Transfer.ofJson root = .ok t → (t.debit = some u ∨ t.credit = some u) →
      ∀ o : Operation, o.CallsDatabase → o.update? = some u → G o) :
    (realTimeUpdate root).Only G := by
  refine Only.ofExcept_bind fun t ht => ?_
  cases hd : t.debit with
  | none =>
    rw [Transfer.perform_of_no_debit hd]
    trivial
  | some d =>
    rw [Transfer.perform_of_debit hd]
    refine (d.call_asks (hG t d ht (.inl hd))).bind fun result => ?_
    split
    · cases hk : t.credit with
      | none => trivial
      | some k => exact k.call_asks (hG t k ht (.inr hk))
    · trivial

theorem realTimeUpdate_callsDatabase (root : Value) :
    (realTimeUpdate root).Only Operation.CallsDatabase :=
  realTimeUpdate_asks fun _ _ _ _ _ hcalls _ => hcalls

/-- A transfer that validation let pass restocks nothing. -/
theorem realTimeUpdate_transfers {root : Value} (hlimits : checkOrder root = .ok none) :
    (realTimeUpdate root).Only Operation.Transfers := by
  refine realTimeUpdate_asks fun t u ht hside o hcalls ho => ⟨hcalls, fun u' hu' => ?_⟩
  cases ho.symm.trans hu'
  obtain ⟨_, _, hdestination, _, hquantity⟩ := Transfer.ofJson_ok ht
  obtain ⟨clientType, quantity, hclient, hknown, hread, hpositive⟩ := checkOrder_none hlimits
  cases hclient.symm.trans hdestination
  cases hread.symm.trans hquantity
  rcases hside with hd | hk
  · obtain ⟨_, _, hdebit, _⟩ := Update.ofType_some hd
    exact .inr (by omega)
  · obtain ⟨_, _, _, ⟨_, htable⟩ | ⟨htype, _⟩⟩ := Update.ofType_some hk
    · exact .inl htable
    · rcases hknown with hhub | hexternal
      · exact absurd (htype.symm.trans hhub) (by decide)
      · exact absurd (htype.symm.trans hexternal) (by decide)

theorem Origin.reply_delivers (origin : Origin) (text : String) :
    (origin.reply text).Only Operation.Delivers := by
  cases origin with
  | udp cliAddr => exact ⟨trivial, fun _ => trivial⟩
  | tcp clientSockfd => exact ⟨trivial, fun _ => trivial⟩

/-- A reply and the loop variables after it. -/
theorem replied_delivers {condition : Bool} {text : String} {s : Loop} :
    (replyIf origin.reply condition text >>= fun go =>
      (Program.pure (s, go) : Handling (Loop × Bool))).Only Operation.Delivers := by
  refine Only.bind ?_ fun _ => trivial
  cases condition with
  | true => exact origin.reply_delivers text
  | false => trivial

/-- The stages of an order call the database and send. -/
theorem orderStages_asks (root : Value) (s : Loop) :
    (orderStages env origin.reply root s).Only fun o : Operation =>
      o.CallsDatabase ∨ o.Delivers := by
  have hreads : ∀ o : Operation, o.ReadsStock → o.CallsDatabase ∨ o.Delivers := fun _ h =>
    .inl h.restocks.callsDatabase
  have hreply : ∀ {condition : Bool} {text : String} {s : Loop},
      (replyIf origin.reply condition text >>= fun go =>
        (Program.pure (s, go) : Handling (Loop × Bool))).Only fun o : Operation =>
          o.CallsDatabase ∨ o.Delivers := replied_delivers.mono fun _ h => .inr h
  refine stages_only (fun stage hin s => ?_) s
  simp only [List.mem_cons, List.not_mem_nil, or_false] at hin
  rcases hin with rfl | rfl | rfl | rfl | rfl
  · exact Only.ofExcept_bind fun _ _ => hreply
  · exact ((checkProductStock_reads _ _ _).mono hreads).bind fun _ => hreply
  · unfold updateStage
    split
    · exact ((realTimeUpdate_callsDatabase root).mono fun _ h => .inl h).bind fun _ => hreply
    · trivial
  · exact ((checkLowStockAlert_reads _ _ _).mono hreads).bind fun _ => hreply
  · exact ((reStock_restocks _ _ _).mono fun _ h => .inl h.callsDatabase).bind fun _ => hreply

theorem forwardMessageToClient_delivers (message protocol : String) (clientId : Int) :
    (forwardMessageToClient message clientId protocol).Only Operation.Delivers := by
  refine ⟨trivial, fun target => ?_⟩
  cases target with
  | none => trivial
  | some info =>
    dsimp only
    split
    · exact ⟨trivial, fun _ => trivial⟩
    · split
      · exact ⟨trivial, fun _ => trivial⟩
      · trivial

end

/-! ## Parts that only observe -/

theorem answer_passive (env : Env) (ok : Bool) (s : Shared) {o : Operation} (h : o.Passive) :
    (answer env ok s o).2 = s := by
  cases o with
  | updateHubInventory => exact h.elim
  | updateWarehouseInventory => exact h.elim
  | storeOrder => exact h.elim
  | registerClient => exact h.elim
  | _ => rfl

/-- A part of a handler that only observes. -/
abbrev Observes {α : Type} (p : Handling α) : Prop := p.Only Operation.Passive

/-- Run on its own, it leaves the shared state as it was. -/
theorem Observes.run {α : Type} {p : Handling α} (h : Observes p) (env : Env) (s : Alone) :
    (runAlone env p s).2.1 = s.1 := by
  induction p generalizing s with
  | pure a => rfl
  | throw e => rfl
  | call o k ih =>
    refine (ih (answer env (s.2.headD true) s.1 o).1 (h.2 _) _).trans ?_
    exact answer_passive env _ s.1 h.1

theorem ask_observes {α : Type} {o : Operation} {f : o.Reply → Handling α} (ho : o.Passive)
    (hf : ∀ r, Observes (f r)) : Observes (ask o >>= f) := ⟨ho, hf⟩

theorem Origin.reply_observes (origin : Origin) (text : String) :
    Observes (origin.reply text) :=
  (origin.reply_delivers text).mono fun _ => Operation.Delivers.passive

theorem replyIf_observes {reply : String → Handling Bool} (hreply : ∀ text, Observes (reply text))
    (condition : Bool) (text : String) : Observes (replyIf reply condition text) := by
  cases condition with
  | true => exact hreply text
  | false => trivial

theorem checkProductStock_observes (json : JsonCpp) (root : Value) (errorMessage : String) :
    Observes (checkProductStock json root errorMessage) :=
  (checkProductStock_reads json root errorMessage).mono fun _ => Operation.ReadsStock.passive

theorem checkLowStockAlert_observes (json : JsonCpp) (root : Value) (alertOut : String) :
    Observes (checkLowStockAlert json root alertOut) :=
  (checkLowStockAlert_reads json root alertOut).mono fun _ => Operation.ReadsStock.passive

theorem forwardMessageToClient_observes (message protocol : String) (clientId : Int) :
    Observes (forwardMessageToClient message clientId protocol) :=
  (forwardMessageToClient_delivers message protocol clientId).mono fun _ =>
    Operation.Delivers.passive

theorem processMessage_observes (json : JsonCpp) (msg protocol : String) (clientId : Int) :
    Observes (processMessage json msg protocol clientId) := by
  unfold processMessage
  split
  · exact ask_observes trivial fun _ => ask_observes trivial fun _ =>
      forwardMessageToClient_observes _ _ _
  · split
    · exact ask_observes trivial fun totals => forwardMessageToClient_observes _ _ _
    · refine Only.ofExcept_bind fun f _ => ?_
      cases f with
      | none => trivial
      | some f => exact forwardMessageToClient_observes _ _ _

end LogisticService
