import LogisticService.Order.Fields
import LogisticService.Server.System
import LogisticService.Server.Updates

/-!
# What the handling of a message asks for

`Asks` lists the operations a handler may ask for on one message, each with
what the history of that message must look like by then: an error reply comes
before any update, the debit once both checks passed, the credit right after
the debit was performed, a restock right after the stock read it is computed
from, the success reply after both sides of the transfer. `iteration_meets`
proves it of both handlers, on every message and whatever the replies are, so
it holds under any interleaving with other handlers.
-/

namespace LogisticService

open Effects

/-! ## Accepted orders -/

/-- The order passed the limit rules, and the stock check found its source. -/
structure Accepted (root : Value) : Prop where
  limits : checkOrder root = .ok none
  source : ∃ r, StockRequest.ofJson root = .ok (.ok r) ∧
    (r.sourceType = "hub" ∨ r.sourceType = "warehouse")

/-- The transfer of an accepted order with this text. -/
structure AcceptedTransfer (env : Env) (buffer : String) (t : Transfer) : Prop where
  brace : beginsWithBrace buffer = true
  order : ∃ root, env.json.parse buffer = .ok (some root) ∧ Accepted root ∧
    Transfer.ofJson root = .ok t

/-- The update is one that only a transfer asks for: a restock raises a warehouse. -/
def Update.OfTransfer (u : Update) : Prop := u.table = .hubs ∨ u.quantity < 0

namespace Transfer

/-- The update of the source side, when the source type names a table. -/
def debit (t : Transfer) : Option Update :=
  Update.ofType t.sourceType t.sourceLocation t.productName (-t.quantity)

/-- The update of the destination side, when the destination type names a table. -/
def credit (t : Transfer) : Option Update :=
  Update.ofType t.destinationType t.destinationLocation t.productName t.quantity

/-- Both sides were performed. -/
def Completed (t : Transfer) (h : List (Answered Server)) : Prop :=
  (∃ d, t.debit = some d ∧ ∃ e ∈ h, performed e = some d) ∧
    ∀ k, t.credit = some k → ∃ e ∈ h, performed e = some k

theorem perform_of_no_debit {t : Transfer} (h : t.debit = none) : t.perform = .pure 0 := by
  unfold perform
  rw [updateInventory_eq, ← debit, h]
  rfl

theorem perform_of_debit {t : Transfer} {d : Update} (h : t.debit = some d) :
    t.perform = d.call >>= fun result =>
      if result > 0 then
        match t.credit with
        | some k => k.call
        | none => .pure result
      else .pure result := by
  unfold perform
  rw [updateInventory_eq, ← debit, h]
  refine congrArg (d.call >>= ·) (funext fun result => ?_)
  rw [updateInventory_eq]
  rfl

end Transfer

theorem Update.ofType_some {type : String} {location : Int} {productName : String}
    {quantity : Int} {u : Update} (h : Update.ofType type location productName quantity = some u) :
    u.location = location ∧ u.productName = productName ∧ u.quantity = quantity ∧
      ((type = "hub" ∧ u.table = .hubs) ∨ (type = "warehouse" ∧ u.table = .warehouses)) := by
  unfold Update.ofType at h
  split at h
  · next htype => cases h; exact ⟨rfl, rfl, rfl, .inl ⟨htype, rfl⟩⟩
  · split at h
    · next htype => cases h; exact ⟨rfl, rfl, rfl, .inr ⟨htype, rfl⟩⟩
    · cases h

namespace AcceptedTransfer

variable {env : Env} {buffer : String} {t : Transfer}

theorem unique {t' : Transfer} (h : AcceptedTransfer env buffer t)
    (h' : AcceptedTransfer env buffer t') : t = t' := by
  obtain ⟨root, hp, _, ht⟩ := h.order
  obtain ⟨root', hp', _, ht'⟩ := h'.order
  cases hp.symm.trans hp'
  exact Except.ok.inj (ht.symm.trans ht')

/-- The rules and the transfer read one quantity. -/
theorem positive (h : AcceptedTransfer env buffer t) : 0 < t.quantity := by
  obtain ⟨root, _, ha, ht⟩ := h.order
  obtain ⟨_, quantity, _, _, hq, hpos⟩ := checkOrder_none ha.limits
  have hread := (Transfer.ofJson_ok ht).2.2.2.2
  cases hq.symm.trans hread
  exact hpos

/-- The rules and the transfer read one destination type. -/
theorem destination (h : AcceptedTransfer env buffer t) :
    t.destinationType = "hub" ∨ t.destinationType = "external" := by
  obtain ⟨root, _, ha, ht⟩ := h.order
  obtain ⟨clientType, _, htype, hknown, _⟩ := checkOrder_none ha.limits
  have hread := (Transfer.ofJson_ok ht).2.2.1
  cases htype.symm.trans hread
  exact hknown

/-- The stock check and the transfer read one source type, so the transfer has
a debit. -/
theorem debit_some (h : AcceptedTransfer env buffer t) : ∃ d, t.debit = some d := by
  obtain ⟨root, _, ha, ht⟩ := h.order
  obtain ⟨r, hr, hknown⟩ := ha.source
  have hsame : r.sourceType = t.sourceType :=
    Except.ok.inj ((StockRequest.ofJson_ok hr).1.symm.trans (Transfer.ofJson_ok ht).1)
  rw [hsame] at hknown
  unfold Transfer.debit Update.ofType
  rcases hknown with hhub | hwarehouse
  · exact ⟨_, if_pos hhub⟩
  · rw [hwarehouse, if_neg (by decide), if_pos rfl]
    exact ⟨_, rfl⟩

theorem debit_quantity (h : AcceptedTransfer env buffer t) {d : Update} (hd : t.debit = some d) :
    d.quantity < 0 := by
  have := h.positive
  have := (Update.ofType_some hd).2.2.1
  omega

/-- The destination of an accepted order is no warehouse. -/
theorem credit_table (h : AcceptedTransfer env buffer t) {k : Update} (hk : t.credit = some k) :
    k.table = .hubs ∧ 0 < k.quantity := by
  obtain ⟨_, _, hq, ⟨_, htable⟩ | ⟨htype, _⟩⟩ := Update.ofType_some hk
  · exact ⟨htable, hq ▸ h.positive⟩
  · rcases h.destination with hd | hd <;> exact absurd (htype.symm.trans hd) (by decide)

theorem debit_ne_credit (h : AcceptedTransfer env buffer t) {d k : Update}
    (hd : t.debit = some d) (hk : t.credit = some k) : d ≠ k := by
  rintro rfl
  have := h.debit_quantity hd
  have := (h.credit_table hk).2
  omega

end AcceptedTransfer

/-! ## Histories -/

/-- The text an operation sends. -/
def Operation.text? : Operation → Option String
  | .sendto _ text => some text
  | .write _ text => some text
  | _ => none

/-- A send that failed. -/
def sendFailed : Answered Server → Bool
  | ⟨.sendto _ _, sent⟩ => !sent
  | ⟨.write _ _, sent⟩ => !sent
  | _ => false

/-- The send of a reply to where a message came from. -/
def Origin.send : Origin → String → Operation
  | .udp cliAddr, text => .sendto cliAddr text
  | .tcp clientSockfd, text => .write clientSockfd text

@[simp] theorem Origin.send_text (origin : Origin) (text : String) :
    (origin.send text).text? = some text := by cases origin <;> rfl

@[simp] theorem Origin.send_update (origin : Origin) (text : String) :
    (origin.send text).update? = none := by cases origin <;> rfl

/-- No update was asked for yet. -/
def Quiet (h : List (Answered Server)) : Prop := ∀ e ∈ h, e.1.update? = none

/-- No error was sent yet. -/
def Clean (env : Env) (h : List (Answered Server)) : Prop :=
  ∀ e ∈ h, ∀ text, e.1.text? = some text → ¬ IsErrorJson env.json text

/-- An update was asked for. -/
def Asked (h : List (Answered Server)) (u : Update) : Prop := ∃ e ∈ h, e.1.update? = some u

/-- An error was sent to where the message came from. -/
def ErrorSent (env : Env) (origin : Origin) (h : List (Answered Server)) : Prop :=
  ∃ e ∈ h, ∃ text, e.1 = origin.send text ∧ IsErrorJson env.json text

/-- The success reply was sent to where the message came from. -/
def SuccessSent (origin : Origin) (h : List (Answered Server)) : Prop :=
  ∃ e ∈ h, e.1 = origin.send "Successful order!"

/-- A send of the history failed. -/
def Broken (h : List (Answered Server)) : Prop := ∃ e ∈ h, sendFailed e = true

/-- An update of a transfer was asked for and not performed. -/
def TransferFailed (h : List (Answered Server)) : Prop :=
  ∃ e ∈ h, ∃ u : Update, e.1.update? = some u ∧ u.OfTransfer ∧ performed e = none

/-- The text is a forwarded order. -/
def IsForward (text : String) : Prop :=
  ∃ actionType quantity productName, text = forwardText actionType quantity productName

theorem Quiet.snoc {h : List (Answered Server)} (hq : Quiet h) {e : Answered Server}
    (he : e.1.update? = none) : Quiet (h ++ [e]) := by
  intro e' he'
  rcases List.mem_append.1 he' with hin | hin
  · exact hq e' hin
  · rw [List.mem_singleton.1 hin]; exact he

theorem Clean.snoc {env : Env} {h : List (Answered Server)} (hc : Clean env h)
    {e : Answered Server} (he : ∀ text, e.1.text? = some text → ¬ IsErrorJson env.json text) :
    Clean env (h ++ [e]) := by
  intro e' he'
  rcases List.mem_append.1 he' with hin | hin
  · exact hc e' hin
  · rw [List.mem_singleton.1 hin]; exact he

/-- What a handler may ask for on one message, and when. -/
inductive Asks (env : Env) (origin : Origin) (buffer : String) :
    List (Answered Server) → Operation → Prop
  | udpRegistered (h) : Asks env origin buffer h (.udpRegistered (atoi buffer))
  | registerClient (h cliAddr) (hudp : origin = .udp cliAddr) :
    Asks env origin buffer h (.registerClient (atoi buffer) "UDP" cliAddr 0)
  | acknowledge (h text) (htext : text = "UDP Server received your message." ∨
      text = "TCP Server received your message.") : Asks env origin buffer h (origin.send text)
  | storeOrder (h) : Asks env origin buffer h (.storeOrder buffer)
  | getHubInventory (h product hubId) :
    Asks env origin buffer h (.getHubInventory product hubId)
  | getWarehouseInventory (h product warehouseId) :
    Asks env origin buffer h (.getWarehouseInventory product warehouseId)
  | error (h text) (hbrace : beginsWithBrace buffer = true) (htext : IsErrorJson env.json text)
      (hquiet : Quiet h) :
    Asks env origin buffer h (origin.send text)
  | debit (h t d o) (ht : AcceptedTransfer env buffer t) (hd : t.debit = some d)
      (ho : o.update? = some d) (hquiet : Quiet h) (hclean : Clean env h) :
    Asks env origin buffer h o
  | credit (h e t d k o) (ht : AcceptedTransfer env buffer t) (hd : t.debit = some d)
      (hk : t.credit = some k) (ho : o.update? = some k) (hquiet : Quiet h)
      (hclean : Clean env h) (he : performed e = some d) :
    Asks env origin buffer (h ++ [e]) o
  | success (h t) (ht : AcceptedTransfer env buffer t) (hdone : t.Completed h) :
    Asks env origin buffer h (origin.send "Successful order!")
  | alert (h text) (htext : text = "" ∨ IsAlert env.json text) :
    Asks env origin buffer h (origin.send text)
  | restock (h product warehouseId rows) (herror : readStock rows ≠ -1)
      (hlow : readStock rows ≤ RESTOCK_THRESHOLD) :
    Asks env origin buffer (h ++ [⟨.getWarehouseInventory product warehouseId, rows⟩])
      (.updateWarehouseInventory warehouseId product (MAX_CAPACITY - readStock rows))
  | findClientById (h clientId protocol) :
    Asks env origin buffer h (.findClientById clientId protocol)
  | clientMapUdp (h) : Asks env origin buffer h .clientMapUdp
  | clientMapTcp (h) : Asks env origin buffer h .clientMapTcp
  | productQuantities (h) : Asks env origin buffer h .productQuantities
  | forward (h) (info : ClientInfo) (text o)
      (ho : o = .sendto info.addr text ∨ o = .write info.socketFd text)
      (hclean : beginsWithBrace text = false)
      (htext : beginsWithBrace buffer = true → IsForward text ∧
        ∃ t d, AcceptedTransfer env buffer t ∧ t.debit = some d ∧ Asked h d) :
    Asks env origin buffer h o

/-! ## Reading a history backwards -/

/-- The first character of a text is that of its first part. -/
theorem head_append {a : String} {c : Char} (ha : a.toList.head? = some c) (b : String) :
    (a ++ b).toList.head? = some c := by
  obtain ⟨cs, hcs⟩ := List.head?_eq_some_iff.1 ha
  rw [String.toList_append, hcs]
  rfl

theorem IsForward.head {text : String} (h : IsForward text) : text.toList.head? = some 'F' := by
  obtain ⟨actionType, quantity, productName, heq⟩ := h
  have hhead : "FORWARDED_MESSAGE: ".toList.head? = some 'F' := by decide +kernel
  rw [heq]
  exact head_append (head_append (head_append (head_append (head_append hhead _) _) _) _) _

theorem no_brace_of_head {text : String} {c : Char} (h : text.toList.head? = some c)
    (hc : c ≠ '{') : beginsWithBrace text = false := by
  simp [beginsWithBrace, h, hc]

/-- A text without a brace is neither an error nor an alert. -/
theorem not_errorJson {json : JsonCpp} {text : String} (hb : beginsWithBrace text = false) :
    ¬ IsErrorJson json text := by
  intro he
  obtain ⟨rest, hrest⟩ := he.head
  simp [beginsWithBrace, hrest] at hb

theorem not_alert {json : JsonCpp} {text : String} (hb : beginsWithBrace text = false) :
    ¬ IsAlert json text := by
  intro ha
  obtain ⟨rest, hrest⟩ := ha.head
  simp [beginsWithBrace, hrest] at hb

namespace Asks

variable {env : Env} {origin : Origin} {buffer : String} {h : List (Answered Server)}
  {o : Operation}

/-- A send is no update. -/
theorem update?_of_text {text : String} (h : o.text? = some text) : o.update? = none := by
  cases o with
  | sendto | write => rfl
  | _ => cases h

/-- An update of a transfer is the debit of an accepted order, or its credit
right after the debit. -/
theorem transfer_inv (ha : Asks env origin buffer h o) {u : Update} (hu : o.update? = some u)
    (hof : u.OfTransfer) : ∃ t d, AcceptedTransfer env buffer t ∧ t.debit = some d ∧
      ((u = d ∧ Quiet h ∧ Clean env h) ∨
        (t.credit = some u ∧ ∃ h₀ e, h = h₀ ++ [e] ∧ Quiet h₀ ∧ Clean env h₀ ∧
          performed e = some d)) := by
  cases ha with
  | debit _ t d _ ht hd ho hquiet hclean =>
    obtain rfl : d = u := Option.some.inj (ho.symm.trans hu)
    exact ⟨t, d, ht, hd, .inl ⟨rfl, hquiet, hclean⟩⟩
  | credit h₀ e t d k _ ht hd hk ho hquiet hclean he =>
    obtain rfl : k = u := Option.some.inj (ho.symm.trans hu)
    exact ⟨t, d, ht, hd, .inr ⟨hk, h₀, e, rfl, hquiet, hclean, he⟩⟩
  | restock h₀ product warehouseId rows herror hlow =>
    obtain rfl := Option.some.inj hu
    rcases hof with htable | hneg
    · cases htable
    · unfold MAX_CAPACITY at hneg
      unfold RESTOCK_THRESHOLD at hlow
      simp only at hneg
      omega
  | forward _ info text _ ho _ _ => rcases ho with rfl | rfl <;> cases hu
  | acknowledge | error | success | alert => simp at hu
  | _ => cases hu

/-- Any other update is a restock, right after the stock read it is computed from. -/
theorem restock_inv (ha : Asks env origin buffer h o) {u : Update} (hu : o.update? = some u)
    (hof : ¬ u.OfTransfer) : ∃ h₀ product warehouseId rows,
      h = h₀ ++ [⟨.getWarehouseInventory product warehouseId, rows⟩] ∧
        readStock rows ≤ RESTOCK_THRESHOLD ∧
        o = .updateWarehouseInventory warehouseId product (MAX_CAPACITY - readStock rows) := by
  cases ha with
  | restock h₀ product warehouseId rows _ hlow =>
    exact ⟨h₀, product, warehouseId, rows, rfl, hlow, rfl⟩
  | debit _ t d _ ht hd ho _ _ =>
    obtain rfl : d = u := Option.some.inj (ho.symm.trans hu)
    exact absurd (.inr (ht.debit_quantity hd)) hof
  | credit h₀ e t d k _ ht _ hk ho _ _ _ =>
    obtain rfl : k = u := Option.some.inj (ho.symm.trans hu)
    exact absurd (.inl (ht.credit_table hk).1) hof
  | forward _ info text _ ho _ _ => rcases ho with rfl | rfl <;> cases hu
  | acknowledge | error | success | alert => simp at hu
  | _ => cases hu

/-- What a text may be that a handler sends. -/
theorem text_inv (ha : Asks env origin buffer h o) {text : String} (ht : o.text? = some text) :
    (text = "UDP Server received your message." ∨ text = "TCP Server received your message.") ∨
      (IsErrorJson env.json text ∧ beginsWithBrace buffer = true ∧ Quiet h) ∨
      (text = "Successful order!" ∧ ∃ t, AcceptedTransfer env buffer t ∧ t.Completed h) ∨
      (text = "" ∨ IsAlert env.json text) ∨
      (beginsWithBrace text = false ∧ (beginsWithBrace buffer = true → IsForward text ∧
        ∃ t d, AcceptedTransfer env buffer t ∧ t.debit = some d ∧ Asked h d)) := by
  cases ha with
  | acknowledge _ text' htext =>
    obtain rfl : text' = text := by simpa using ht
    exact .inl htext
  | error _ text' hb herr hquiet =>
    obtain rfl : text' = text := by simpa using ht
    exact .inr (.inl ⟨herr, hb, hquiet⟩)
  | success _ t hacc hdone => exact .inr (.inr (.inl ⟨by simpa using ht.symm, t, hacc, hdone⟩))
  | alert _ text' htext =>
    obtain rfl : text' = text := by simpa using ht
    exact .inr (.inr (.inr (.inl htext)))
  | forward _ info text' _ ho hclean htext =>
    obtain rfl : text' = text := by rcases ho with rfl | rfl <;> exact Option.some.inj ht
    exact .inr (.inr (.inr (.inr ⟨hclean, htext⟩)))
  | debit _ t d _ _ _ ho _ _ => cases (update?_of_text ht).symm.trans ho
  | credit h₀ e t d k _ _ _ _ ho _ _ _ => cases (update?_of_text ht).symm.trans ho
  | _ => cases ht

/-- An error is sent before any update, and only by the order branch. -/
theorem error_inv (ha : Asks env origin buffer h o) {text : String} (ht : o.text? = some text)
    (he : IsErrorJson env.json text) : beginsWithBrace buffer = true ∧ Quiet h := by
  have hbrace : beginsWithBrace text = true := by
    by_contra hb
    exact not_errorJson (by simpa using hb) he
  rcases ha.text_inv ht with hack | ⟨_, herr⟩ | ⟨rfl, _⟩ | halert | ⟨hno, _⟩
  · rcases hack with rfl | rfl <;> exact absurd hbrace (by decide)
  · exact herr
  · exact absurd hbrace (by decide)
  · rcases halert with rfl | halert
    · exact absurd hbrace (by decide)
    · exact absurd halert he.not_alert
  · exact absurd hno (by simp [hbrace])

/-- The success reply follows a completed transfer. -/
theorem success_inv (ha : Asks env origin buffer h o) (ht : o.text? = some "Successful order!")
    (hb : beginsWithBrace buffer = true) :
    ∃ t, AcceptedTransfer env buffer t ∧ t.Completed h := by
  have hno : beginsWithBrace "Successful order!" = false := by decide
  rcases ha.text_inv ht with hack | ⟨herr, _⟩ | ⟨_, hdone⟩ | halert | ⟨_, hforward⟩
  · rcases hack with hack | hack <;> exact absurd hack (by decide)
  · exact absurd herr (not_errorJson hno)
  · exact hdone
  · rcases halert with hempty | halert
    · exact absurd hempty (by decide)
    · exact absurd halert (not_alert hno)
  · exact absurd (hforward hb).1.head (by decide)

/-- An order is forwarded after its debit was asked for. -/
theorem forward_inv (ha : Asks env origin buffer h o) {text : String} (ht : o.text? = some text)
    (hf : IsForward text) (hb : beginsWithBrace buffer = true) :
    ∃ t d, AcceptedTransfer env buffer t ∧ t.debit = some d ∧ Asked h d := by
  have hno : beginsWithBrace text = false := no_brace_of_head hf.head (by decide)
  rcases ha.text_inv ht with hack | ⟨herr, _⟩ | ⟨rfl, _⟩ | halert | ⟨_, hforward⟩
  · rcases hack with rfl | rfl <;> exact absurd hf.head (by decide)
  · exact absurd herr (not_errorJson hno)
  · exact absurd hf.head (by decide)
  · rcases halert with rfl | halert
    · exact absurd hf.head (by decide)
    · exact absurd halert (not_alert hno)
  · exact (hforward hb).2

end Asks

end LogisticService
