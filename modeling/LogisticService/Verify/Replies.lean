import LogisticService.Server.Journal
import LogisticService.Verify.Commands
import LogisticService.Verify.RestockAlerts
import Mathlib.Data.List.Induction

/-!
# What a message is answered with

The texts that the handling of one message sends come in a fixed order: the
acknowledgement, the error of the limit rules, the error of the stock check,
the success reply, the low stock alert, the reply to the restock, all to the
sender, and last a text for a client that was looked up. Each slot is filled at
most once, no success reply and no such text comes with an error, and nothing
comes before the acknowledgement. The reply to the restock is its alert when
the source was replenished; `reStock` also succeeds when it finds enough, and
then the handler sends the alert string as it is, which is the low stock alert
once more or what an earlier message left. A TCP handler that fails to write a
reply leaves out the rest, so the texts sent so far have this shape at every
moment, in every interleaving (`replies_in_order`).
-/

namespace LogisticService

open Effects Program

def Origin.acknowledgement : Origin → String
  | .udp _ => "UDP Server received your message."
  | .tcp _ => "TCP Server received your message."

/-- The error of the limit rules on an order. -/
def limitsError (env : Env) (root : Value) : Option String :=
  match checkOrder root with
  | .ok (some r) => some (generateError env.json r.code r.message r.description .error)
  | _ => none

/-- The stock check refuses the order: for its fields, for the stock that was
read, or for a source that it does not know. -/
inductive Refused (root : Value) (h : List (Answered Server)) : Rejection → Prop
  | fields (rejection) (hof : StockRequest.ofJson root = .ok (.error rejection)) :
    Refused root h rejection
  | hub (r : StockRequest) (rows rejection) (hof : StockRequest.ofJson root = .ok (.ok r))
      (htype : r.sourceType = "hub")
      (hread : (⟨.getHubInventory r.productName r.sourceId, rows⟩ : Answered Server) ∈ h)
      (hjudge : r.judge (readStock rows) = some rejection) : Refused root h rejection
  | warehouse (r : StockRequest) (rows rejection) (hof : StockRequest.ofJson root = .ok (.ok r))
      (htype : r.sourceType = "warehouse")
      (hread : (⟨.getWarehouseInventory r.productName r.sourceId, rows⟩ : Answered Server) ∈ h)
      (hjudge : r.judge (readStock rows) = some rejection) : Refused root h rejection
  | source (r : StockRequest) (hof : StockRequest.ofJson root = .ok (.ok r))
      (hhub : r.sourceType ≠ "hub") (hwarehouse : r.sourceType ≠ "warehouse") :
    Refused root h (stockRejection "Unknown source type"
      "Source type must be either 'hub' or 'warehouse'.")

/-- The error of the stock check on an order. -/
def IsStockError (env : Env) (root : Value) (h : List (Answered Server)) (text : String) : Prop :=
  ∃ r : Rejection, Refused root h r ∧
    text = generateError env.json r.code r.message r.description .error

/-- The alert of a low stock. -/
def WatchedStock.lowStockAlert (json : JsonCpp) (w : WatchedStock) : String :=
  generateAlert json "Low Stock Alert: " "Stock levels are <= 20 per cent of max capacity"
    w.productId w.productName

/-- The message is an order that draws on this stock. -/
def Draws (env : Env) (buffer : String) (w : WatchedStock) : Prop :=
  beginsWithBrace buffer = true ∧ ∃ root, env.json.parse buffer = .ok (some root) ∧
    WatchedStock.ofJson root = .ok (some w)

/-- The text of a listing of the two client maps. -/
def listing (clientMapUdp clientMapTcp : ClientMap) : String :=
  "\n----- Connected Clients -----\n" ++ clientLines "UDP Clients: " clientMapUdp ++
    clientLines "TCP Clients: " clientMapTcp ++ "----------------------------"

/-! ## The texts of one message -/

/-- What `processMessage` makes of a message, after the history `h`: a text, the
id of the client it is for and the protocol to find it by. A report is made of
what was read for it, and is for the client of the handler; the forward of an
order is for the client the order names. -/
inductive Dispatch (env : Env) (origin : Origin) (buffer : String) (s : Loop)
    (h : List (Answered Server)) : String → Int → String → Prop
  | listing (clientMapUdp clientMapTcp) (hc : buffer = "LIST_CLIENTS")
      (hread : ∃ h₁ h₂ h₃, h = h₁ ++ ⟨.clientMapUdp, clientMapUdp⟩ ::
        (h₂ ++ ⟨.clientMapTcp, clientMapTcp⟩ :: h₃)) :
    Dispatch env origin buffer s h (listing clientMapUdp clientMapTcp) s.clientId origin.protocol
  | report (totals) (hc : buffer = "SHOW_REPORT")
      (hread : (⟨.productQuantities, totals⟩ : Answered Server) ∈ h) :
    Dispatch env origin buffer s h (reportText totals) s.clientId origin.protocol
  | order (f) (hc : ¬ IsCommand buffer) (hf : Forward.ofText env.json buffer = .ok (some f)) :
    Dispatch env origin buffer s h f.message f.targetClientId f.protocol

/-- The operation sends such a text to the client that was found for it. -/
def Dispatched (env : Env) (origin : Origin) (buffer : String) (s : Loop)
    (h : List (Answered Server)) (o : Operation) : Prop :=
  ∃ text clientId protocol info, Dispatch env origin buffer s h text clientId protocol ∧
    (⟨.findClientById clientId protocol, some info⟩ : Answered Server) ∈ h ∧
    (protocol = "udp" ∧ o = .sendto info.addr text ∨
      protocol = "tcp" ∧ o = .write info.socketFd text)

/-- The texts sent for one message. -/
structure Replies where
  acknowledged : Bool
  limits : Option String
  stock : Option String
  success : Bool
  lowStock : Option String
  reStocked : Option String
  forward : Option Operation

namespace Replies

/-- Nothing was sent. -/
def silent : Replies := ⟨false, none, none, false, none, none, none⟩

/-- The sends, in their order. -/
def operations (r : Replies) (origin : Origin) : List Operation :=
  ((if r.acknowledged then [origin.acknowledgement] else []) ++ r.limits.toList ++
    r.stock.toList ++ (if r.success then ["Successful order!"] else []) ++ r.lowStock.toList ++
    r.reStocked.toList).map origin.send ++ r.forward.toList

/-- What may be sent together, and what each text is, for a message that found
the loop variables `s` and has the history `h`. -/
structure Sound (env : Env) (origin : Origin) (buffer : String) (s : Loop)
    (h : List (Answered Server)) (r : Replies) : Prop where
  first : r.acknowledged = false → r = silent
  limits : ∀ text, r.limits = some text → beginsWithBrace buffer = true ∧
    ∃ root, env.json.parse buffer = .ok (some root) ∧ limitsError env root = some text
  stock : ∀ text, r.stock = some text → beginsWithBrace buffer = true ∧
    ∃ root, env.json.parse buffer = .ok (some root) ∧ IsStockError env root h text
  success : r.success = true → beginsWithBrace buffer = true ∧ r.limits = none ∧ r.stock = none
  lowStock : ∀ text, r.lowStock = some text → ∃ w, Draws env buffer w ∧
    text = w.lowStockAlert env.json
  reStocked : ∀ text, r.reStocked = some text → ∃ w, Draws env buffer w ∧
    (Replenished env buffer h ∧ text = w.reStockAlert env.json ∨
      ¬ Replenished env buffer h ∧ text = r.lowStock.getD s.alertOut)
  forward : ∀ o, r.forward = some o → r.limits = none ∧ r.stock = none ∧
    Dispatched env origin buffer s h o

end Replies

/-- The operation, when it sends a text. -/
def Operation.sent? (o : Operation) : Option Operation := if o.text?.isSome then some o else none

/-- The sends of a history. -/
def sends (h : List (Answered Server)) : List Operation :=
  h.filterMap fun e => Operation.sent? e.1

/-- These are the replies that the history sent, and they are sound. -/
structure Replies.Said (env : Env) (origin : Origin) (buffer : String) (s : Loop)
    (h : List (Answered Server)) (r : Replies) : Prop where
  sends : sends h = r.operations origin
  sound : r.Sound env origin buffer s h

/-- With the next operation the replies are sound and in order; nothing is
updated after the reply to the restock. -/
def Spoken (env : Env) (origin : Origin) (buffer : String) (s : Loop)
    (h : List (Answered Server)) (o : Operation) : Prop :=
  ∃ r : Replies, r.Sound env origin buffer s h ∧ sends h ++ o.sent?.toList = r.operations origin ∧
    (o.update? = none ∨ r.reStocked = none)

/-- A part of a handler sends what is sound, in order. -/
abbrev Speaks (env : Env) (origin : Origin) (buffer : String) (s : Loop) {α : Type}
    (p : Handling α) (Q : List (Answered Server) → α → Prop) (h : List (Answered Server)) : Prop :=
  p.Meets (fun _ _ => True) (Spoken env origin buffer s) Q h

section

variable {env : Env} {origin : Origin} {buffer : String} {s₀ : Loop}
  {h : List (Answered Server)} {r q : Replies}

theorem sends_snoc (o : Operation) (reply : o.Reply) :
    sends (h ++ [⟨o, reply⟩]) = sends h ++ o.sent?.toList := by
  unfold sends
  rw [List.filterMap_append, List.filterMap_cons, List.filterMap_nil]
  cases o.sent? <;> rfl

theorem sent?_of_text {o : Operation} {text : String} (ho : o.text? = some text) :
    o.sent? = some o := by
  simp [Operation.sent?, ho]

theorem sent?_of_silent {o : Operation} (ho : o.text? = none) : o.sent? = none := by
  simp [Operation.sent?, ho]

/-! ## What stays sound -/

theorem Dispatch.append {text protocol : String} {clientId : Int}
    (hd : Dispatch env origin buffer s₀ h text clientId protocol) (h' : List (Answered Server)) :
    Dispatch env origin buffer s₀ (h ++ h') text clientId protocol := by
  cases hd with
  | listing clientMapUdp clientMapTcp hc hread =>
    obtain ⟨h₁, h₂, h₃, rfl⟩ := hread
    exact .listing _ _ hc ⟨h₁, h₂, h₃ ++ h', by simp⟩
  | report totals hc hread => exact .report _ hc (List.mem_append_left _ hread)
  | order f hc hf => exact .order f hc hf

theorem Dispatched.append {o : Operation} (hd : Dispatched env origin buffer s₀ h o)
    (h' : List (Answered Server)) : Dispatched env origin buffer s₀ (h ++ h') o := by
  obtain ⟨text, clientId, protocol, info, hmade, hfound, ho⟩ := hd
  exact ⟨text, clientId, protocol, info, hmade.append h', List.mem_append_left _ hfound, ho⟩

theorem IsStockError.append {root : Value} {text : String} (he : IsStockError env root h text)
    (h' : List (Answered Server)) : IsStockError env root (h ++ h') text := by
  obtain ⟨rejection, hrefused, htext⟩ := he
  refine ⟨rejection, ?_, htext⟩
  cases hrefused with
  | fields _ hof => exact .fields _ hof
  | hub r rows _ hof htype hread hjudge =>
    exact .hub r rows _ hof htype (List.mem_append_left _ hread) hjudge
  | warehouse r rows _ hof htype hread hjudge =>
    exact .warehouse r rows _ hof htype (List.mem_append_left _ hread) hjudge
  | source r hof hhub hwarehouse => exact .source r hof hhub hwarehouse

/-- An answer that is no performed restock. -/
theorem replenished_snoc {e : Answered Server} (he : ∀ u, e.1.update? = some u → u.OfTransfer) :
    Replenished env buffer (h ++ [e]) ↔ Replenished env buffer h := by
  rw [Replenished.append, or_iff_left]
  rintro ⟨e', he', _, w, n, _, _, hn, hperformed⟩
  obtain rfl := List.mem_singleton.1 he'
  have hupdate := performed_update (r := e'.2) hperformed
  rcases he _ hupdate with htable | hneg
  · cases htable
  · unfold RESTOCK_THRESHOLD at hn
    unfold MAX_CAPACITY at hneg
    simp only at hneg
    omega

theorem Replies.Sound.snoc (hr : r.Sound env origin buffer s₀ h) {e : Answered Server}
    (he : e.1.update? = none ∨ r.reStocked = none) :
    r.Sound env origin buffer s₀ (h ++ [e]) where
  first := hr.first
  limits := hr.limits
  stock text htext := by
    obtain ⟨hbrace, root, hroot, herror⟩ := hr.stock text htext
    exact ⟨hbrace, root, hroot, herror.append _⟩
  success := hr.success
  lowStock := hr.lowStock
  reStocked text htext := by
    rcases he with hnone | hnone
    · rw [replenished_snoc fun u hu => by cases hnone.symm.trans hu]
      exact hr.reStocked text htext
    · cases hnone.symm.trans htext
  forward o ho := by
    obtain ⟨hlimits, hstock, hdispatched⟩ := hr.forward o ho
    exact ⟨hlimits, hstock, hdispatched.append _⟩

namespace Replies.Said

theorem spoken (hr : r.Said env origin buffer s₀ h) {o : Operation} (ho : o.text? = none)
    (hupdate : o.update? = none ∨ r.reStocked = none) : Spoken env origin buffer s₀ h o :=
  ⟨r, hr.sound, by rw [sent?_of_silent ho, Option.toList_none, List.append_nil, hr.sends], hupdate⟩

theorem snoc (hr : r.Said env origin buffer s₀ h) {o : Operation} (ho : o.text? = none)
    (hupdate : o.update? = none ∨ r.reStocked = none) (reply : o.Reply) :
    r.Said env origin buffer s₀ (h ++ [⟨o, reply⟩]) where
  sends := by rw [sends_snoc, sent?_of_silent ho, Option.toList_none, List.append_nil, hr.sends]
  sound := hr.sound.snoc (e := ⟨o, reply⟩) hupdate

end Replies.Said

/-! ## Checks and replies -/

/-- A part that neither sends nor restocks, and what it returns. -/
theorem speaks_of_transfers {α : Type} {p : Handling α} (hp : p.Only Operation.Transfers)
    {V : List (Answered Server) → α → Prop}
    (hV : p.Meets (fun _ _ => True) (fun _ _ => True) V h)
    (hr : r.Said env origin buffer s₀ h) (hnone : r.reStocked = none)
    (hnot : ¬ Replenished env buffer h) :
    Speaks env origin buffer s₀ p (fun h' a =>
      (r.Said env origin buffer s₀ h' ∧ ¬ Replenished env buffer h') ∧ V h' a) h := by
  have hsaid : Speaks env origin buffer s₀ p
      (fun h' _ => r.Said env origin buffer s₀ h' ∧ ¬ Replenished env buffer h') h :=
    hp.meets (P := fun h' => r.Said env origin buffer s₀ h' ∧ ¬ Replenished env buffer h')
      (fun _ _ hh ho => hh.1.spoken ho.1.silent (.inr hnone))
      (fun _ o reply hh ho => ⟨hh.1.snoc ho.1.silent (.inr hnone) reply, fun hreplenished =>
        hh.2 ((replenished_snoc (e := ⟨o, reply⟩) ho.2).1 hreplenished)⟩) ⟨hr, hnot⟩
  exact (hsaid.and hV).mono (fun _ _ h => h) (fun _ _ h => h.1) fun _ _ h => h

/-- A reply to the sender. -/
theorem replyIf_speaks {condition : Bool} {text : String} (hs : sends h = r.operations origin)
    (hq : q.Sound env origin buffer s₀ h)
    (hadd : q.operations origin =
      r.operations origin ++ if condition then [origin.send text] else []) :
    Speaks env origin buffer s₀ (replyIf origin.reply condition text) (fun h' go =>
      (q.Said env origin buffer s₀ h' ∧
        (Replenished env buffer h' → Replenished env buffer h)) ∧ (go = false → Broken h')) h := by
  unfold replyIf
  cases condition with
  | false => exact ⟨⟨⟨hs.trans (by simpa using hadd.symm), hq⟩, id⟩, by simp⟩
  | true =>
    have hsent : sends h ++ [origin.send text] = q.operations origin := by rw [hs, hadd]; rfl
    have hsaid : ∀ reply, q.Said env origin buffer s₀ (h ++ [⟨origin.send text, reply⟩]) ∧
        (Replenished env buffer (h ++ [⟨origin.send text, reply⟩]) → Replenished env buffer h) :=
      fun reply => ⟨⟨(sends_snoc (origin.send text) reply).trans
        (by rw [← hsent, sent?_of_text (origin.send_text text)]; rfl),
        hq.snoc (.inl (origin.send_update text))⟩, (replenished_snoc fun u hu => by
          cases (origin.send_update text).symm.trans hu).1⟩
    have hspoken : Spoken env origin buffer s₀ h (origin.send text) :=
      ⟨q, hq, by rw [sent?_of_text (origin.send_text text)]; exact hsent,
        .inl (origin.send_update text)⟩
    cases origin with
    | udp cliAddr => exact ⟨hspoken, fun reply _ => ⟨hsaid reply, by simp⟩⟩
    | tcp clientSockfd =>
      refine ⟨hspoken, fun reply _ => ⟨hsaid reply, fun hgo => ?_⟩⟩
      exact broken_of_failed (e := ⟨.write clientSockfd text, reply⟩) (by subst hgo; rfl)

/-! ## The stages of an order -/

/-- How a stage ends: the next ones find its reply sent, or a send failed. -/
def StageSpeaks (P : List (Answered Server) → Loop → Prop) (h : List (Answered Server))
    (result : Loop × Bool) : Prop :=
  (result.2 = true → P h result.1) ∧ (result.2 = false → Broken h)

/-- Stages follow each other as long as they go on. -/
theorem stages_speaks {P P' : List (Answered Server) → Loop → Prop} {s : Loop}
    {stage : Loop → Handling (Loop × Bool)} {rest : List (Loop → Handling (Loop × Bool))}
    (hstage : Speaks env origin buffer s₀ (stage s) (StageSpeaks P) h)
    (hrest : ∀ h' s', P h' s' →
      Speaks env origin buffer s₀ (stages rest s') (StageSpeaks P') h') :
    Speaks env origin buffer s₀ (stages (stage :: rest) s) (StageSpeaks P') h :=
  stages_meets hstage (fun h' s' hend => hrest h' s' (hend.1 rfl)) fun _ _ hend =>
    ⟨fun hgo => (by cases hgo), hend.2⟩

/-- A stage is a check and the reply to it. -/
theorem stage_speaks {α : Type} {check : Handling α} {c : α → Bool} {t : α → String}
    {f : α → Loop} {q : α → Replies} {V : List (Answered Server) → α → Prop}
    {P : List (Answered Server) → Loop → Prop}
    (hcheck : Speaks env origin buffer s₀ check (fun h' a =>
      r.Said env origin buffer s₀ h' ∧ V h' a) h)
    (hsound : ∀ h' a, r.Said env origin buffer s₀ h' → V h' a →
      (q a).Sound env origin buffer s₀ h' ∧ (q a).operations origin =
        r.operations origin ++ if c a then [origin.send (t a)] else [])
    (hP : ∀ h' h'' a, V h' a → (Replenished env buffer h'' → Replenished env buffer h') →
      (q a).Said env origin buffer s₀ h'' → P h'' (f a)) :
    Speaks env origin buffer s₀ (check >>= fun a =>
      replyIf origin.reply (c a) (t a) >>= fun go =>
        (Program.pure (f a, go) : Handling (Loop × Bool))) (StageSpeaks P) h := by
  refine Meets.bind hcheck fun h' a hV => ?_
  obtain ⟨hq, hadd⟩ := hsound h' a hV.1 hV.2
  refine Meets.bind (replyIf_speaks hV.1.sends hq hadd) fun h'' go hend => ?_
  exact ⟨fun _ => hP h' h'' a hV.2 hend.1.2 hend.1.1, hend.2⟩

/-- What the stages before the restock have made of the replies `r` and of the
loop variables. -/
structure Through (env : Env) (origin : Origin) (buffer : String) (root : Value) (s₀ : Loop)
    (r : Replies) (h : List (Answered Server)) (s : Loop) : Prop where
  said : r.Said env origin buffer s₀ h
  unreplenished : ¬ Replenished env buffer h
  alertOut : s.alertOut = r.lowStock.getD s₀.alertOut
  valid : s.isValid = true → checkOrder root = .ok none
  inStock : s.productStock = true → r.stock = none

/-- The replies to an order that were sent, none of them to another client. -/
abbrev Replies.ofOrder (env : Env) (root : Value) (stock : Option String) (success : Bool)
    (lowStock reStocked : Option String) : Replies :=
  ⟨true, limitsError env root, stock, success, lowStock, reStocked, none⟩

/-- The replies once the message was acknowledged. -/
def Replies.acknowledgedOnly : Replies := { silent with acknowledged := true }

section

variable {root : Value} {s : Loop}

theorem limitsError_of_valid (h : checkOrder root = .ok none) : limitsError env root = none := by
  unfold limitsError
  rw [h]

theorem validateStage_speaks (hbrace : beginsWithBrace buffer = true)
    (hroot : env.json.parse buffer = .ok (some root))
    (hr : Replies.acknowledgedOnly.Said env origin buffer s₀ h)
    (hnot : ¬ Replenished env buffer h) (halert : s.alertOut = s₀.alertOut) :
    Speaks env origin buffer s₀ (validateStage env origin.reply root s)
      (StageSpeaks (Through env origin buffer root s₀
        (.ofOrder env root none false none none))) h := by
  unfold validateStage
  refine stage_speaks (r := .acknowledgedOnly)
    (q := fun _ => .ofOrder env root none false none none)
    (V := fun h' result => ¬ Replenished env buffer h' ∧
      validateOrderLimits env.json root s.errorMessage = .ok result)
    (Meets.ofExcept fun result hv => ⟨hr, hnot, hv⟩) ?_ ?_
  · rintro h' ⟨valid, message⟩ hr' ⟨-, hv⟩
    obtain ⟨verdict, hverdict, hv⟩ := Except.seq_ok hv
    have hlimits : limitsError env root = if !valid then some message else none := by
      unfold limitsError
      rw [hverdict]
      cases verdict <;> cases hv <;> rfl
    refine ⟨⟨fun hno => (by cases hno), fun text htext => ⟨hbrace, root, hroot, htext⟩,
      fun _ htext => (by cases htext), fun hsuccess => (by cases hsuccess),
      fun _ htext => (by cases htext), fun _ htext => (by cases htext),
      fun _ ho => (by cases ho)⟩, ?_⟩
    rw [show Replies.ofOrder env root none false none none =
      ⟨true, if !valid then some message else none, none, false, none, none, none⟩ by
        rw [← hlimits]]
    cases valid <;> simp [Replies.operations, Replies.acknowledgedOnly, Replies.silent]
  · rintro h' h'' ⟨valid, message⟩ ⟨hnot', hv⟩ hback hsaid
    refine ⟨hsaid, fun hreplenished => hnot' (hback hreplenished), halert, fun hvalid => ?_,
      fun _ => rfl⟩
    obtain ⟨_, hlimits⟩ | ⟨hfalse, _⟩ := validateOrderLimits_ok hv
    · exact hlimits
    · cases hfalse.symm.trans hvalid

theorem stockVerdict_refuses : (stockVerdict root).Meets (fun _ _ => True) (fun _ _ => True)
    (fun h' verdict => ∀ rejection, verdict = some rejection → Refused root h' rejection) h := by
  refine Meets.bind (Meets.ofExcept (Q := fun _ request => StockRequest.ofJson root = .ok request)
    fun _ hof => hof) fun h₁ request hof => ?_
  cases request with
  | error rejection =>
    rintro _ ⟨⟩
    exact .fields rejection hof
  | ok r =>
    show r.check.Meets _ _ _ h₁
    unfold StockRequest.check
    split
    · next hhub =>
      exact ⟨trivial, fun rows _ rejection hjudge =>
        .hub r rows rejection hof hhub (by simp) hjudge⟩
    · next hhub =>
      split
      · next hwarehouse =>
        exact ⟨trivial, fun rows _ rejection hjudge =>
          .warehouse r rows rejection hof hwarehouse (by simp) hjudge⟩
      · next hwarehouse =>
        rintro _ ⟨⟩
        exact .source r hof hhub hwarehouse

/-- A stock check that fails tells why. -/
theorem checkProductStock_refuses {message : String} :
    (checkProductStock env.json root message).Meets (fun _ _ => True) (fun _ _ => True)
      (fun h' result => result.1 = false → IsStockError env root h' result.2) h := by
  refine Meets.bind stockVerdict_refuses fun h' verdict hrefused => ?_
  cases verdict with
  | none => exact fun hfalse => by cases hfalse
  | some rejection => exact fun _ => ⟨rejection, hrefused rejection rfl, rfl⟩

theorem stockStage_speaks (hbrace : beginsWithBrace buffer = true)
    (hroot : env.json.parse buffer = .ok (some root))
    (hr : Through env origin buffer root s₀ (.ofOrder env root none false none none) h s) :
    Speaks env origin buffer s₀ (stockStage env origin.reply root s)
      (StageSpeaks fun h' s' => ∃ stock,
        Through env origin buffer root s₀ (.ofOrder env root stock false none none) h' s') h := by
  have hreads := (checkProductStock_reads env.json root s.errorMessage).mono fun _ =>
    Operation.ReadsStock.transfers
  unfold stockStage
  refine stage_speaks (r := .ofOrder env root none false none none)
    (q := fun result => .ofOrder env root (if !result.1 then some result.2 else none) false none
      none)
    (V := fun h' result => ¬ Replenished env buffer h' ∧
      (result.1 = false → IsStockError env root h' result.2))
    ((speaks_of_transfers hreads checkProductStock_refuses hr.said rfl hr.unreplenished).mono
      (fun _ _ h => h) (fun _ _ h => h) fun _ _ hend => ⟨hend.1.1, hend.1.2, hend.2⟩) ?_ ?_
  · rintro h' ⟨inStock, message⟩ hr' ⟨-, herror⟩
    refine ⟨⟨fun hno => (by cases hno), hr'.sound.limits, fun text htext => ?_,
      fun hsuccess => (by cases hsuccess), fun _ htext => (by cases htext),
      fun _ htext => (by cases htext), fun _ ho => (by cases ho)⟩, ?_⟩
    · cases inStock with
      | true => cases htext
      | false => cases htext; exact ⟨hbrace, root, hroot, herror rfl⟩
    · cases inStock <;> simp [Replies.operations]
  · rintro h' h'' ⟨inStock, message⟩ ⟨hnot, -⟩ hback hsaid
    refine ⟨_, hsaid, fun hreplenished => hnot (hback hreplenished), hr.alertOut, hr.valid,
      fun hin => ?_⟩
    show (if !inStock then some message else none) = none
    rw [show inStock = true from hin]
    rfl

theorem updateStage_speaks (hbrace : beginsWithBrace buffer = true) {stock : Option String}
    (hr : Through env origin buffer root s₀ (.ofOrder env root stock false none none) h s) :
    Speaks env origin buffer s₀ (updateStage origin.reply root s)
      (StageSpeaks fun h' s' => ∃ success,
        Through env origin buffer root s₀ (.ofOrder env root stock success none none) h' s') h := by
  unfold updateStage
  split
  · next hboth =>
    obtain ⟨hstock, hvalid⟩ := (Bool.and_eq_true _ _).mp hboth
    have hlimits := hr.valid hvalid
    refine stage_speaks (r := .ofOrder env root stock false none none)
      (q := fun result => .ofOrder env root stock (result > 0) none none)
      (c := fun result => decide (result > 0)) (t := fun _ => "Successful order!")
      (f := fun _ => s) (V := fun h' _ => ¬ Replenished env buffer h')
      ((speaks_of_transfers (V := fun _ _ => True) (realTimeUpdate_transfers hlimits)
        ((realTimeUpdate_transfers hlimits).meets (P := fun _ => True) (fun _ _ _ _ => trivial)
          (fun _ _ _ _ _ => trivial) trivial) hr.said rfl hr.unreplenished).mono (fun _ _ h => h)
        (fun _ _ h => h) fun _ _ hend => hend.1) ?_ ?_
    · intro h' result hr' _
      refine ⟨⟨fun hno => (by cases hno), hr'.sound.limits, hr'.sound.stock,
        fun _ => ⟨hbrace, limitsError_of_valid hlimits, hr.inStock hstock⟩,
        fun _ htext => (by cases htext), fun _ htext => (by cases htext),
        fun _ ho => (by cases ho)⟩, ?_⟩
      by_cases hpos : result > 0
      · simp [Replies.operations, hpos]
      · simp [Replies.operations, hpos]
    · intro h' h'' result hnot hback hsaid
      exact ⟨_, hsaid, fun hreplenished => hnot (hback hreplenished), hr.alertOut, hr.valid,
        hr.inStock⟩
  · exact ⟨fun _ => ⟨false, hr⟩, fun hgo => by cases hgo⟩

/-- A low stock check that returns true has written the alert of the order;
otherwise the alert string is as it was. -/
theorem checkLowStockAlert_alerts {alertOut : String} :
    (checkLowStockAlert env.json root alertOut).Meets (fun _ _ => True) (fun _ _ => True)
      (fun _ r => (r.1 = true → ∃ w, WatchedStock.ofJson root = .ok (some w) ∧
        r.2 = w.lowStockAlert env.json) ∧ (r.1 = false → r.2 = alertOut)) h := by
  refine Meets.bind (Meets.ofExcept (Q := fun _ w => WatchedStock.ofJson root = .ok w)
    fun _ hw => hw) fun h₁ w hw => ?_
  cases w with
  | none => exact ⟨fun hfalse => (by cases hfalse), fun _ => rfl⟩
  | some w =>
    refine ⟨trivial, fun rows _ => ?_⟩
    show (if readStock rows = -1 then _ else _ : Handling _).Meets _ _ _ _
    split
    · exact ⟨fun hfalse => (by cases hfalse), fun _ => rfl⟩
    · split
      · exact ⟨fun _ => ⟨w, hw, rfl⟩, fun hfalse => by cases hfalse⟩
      · exact ⟨fun hfalse => (by cases hfalse), fun _ => rfl⟩

theorem lowStockStage_speaks (hbrace : beginsWithBrace buffer = true)
    (hroot : env.json.parse buffer = .ok (some root)) {stock : Option String} {success : Bool}
    (hr : Through env origin buffer root s₀ (.ofOrder env root stock success none none) h s) :
    Speaks env origin buffer s₀ (lowStockStage env origin.reply root s)
      (StageSpeaks fun h' s' => ∃ lowStock,
        Through env origin buffer root s₀ (.ofOrder env root stock success lowStock none) h' s')
      h := by
  have hreads := (checkLowStockAlert_reads env.json root s.alertOut).mono fun _ =>
    Operation.ReadsStock.transfers
  unfold lowStockStage
  refine stage_speaks (r := .ofOrder env root stock success none none)
    (q := fun result => .ofOrder env root stock success (if result.1 then some result.2 else none)
      none)
    (V := fun h' result => ¬ Replenished env buffer h' ∧
      (result.1 = true → ∃ w, WatchedStock.ofJson root = .ok (some w) ∧
        result.2 = w.lowStockAlert env.json) ∧ (result.1 = false → result.2 = s.alertOut))
    ((speaks_of_transfers hreads checkLowStockAlert_alerts hr.said rfl hr.unreplenished).mono
      (fun _ _ h => h) (fun _ _ h => h) fun _ _ hend => ⟨hend.1.1, hend.1.2, hend.2⟩) ?_ ?_
  · rintro h' ⟨low, alert⟩ hr' ⟨-, hlow, -⟩
    refine ⟨⟨fun hno => (by cases hno), hr'.sound.limits, hr'.sound.stock, hr'.sound.success,
      fun text htext => ?_, fun _ htext => (by cases htext), fun _ ho => (by cases ho)⟩, ?_⟩
    · cases low with
      | false => cases htext
      | true =>
        cases htext
        obtain ⟨w, hw, halert⟩ := hlow rfl
        exact ⟨w, ⟨hbrace, root, hroot, hw⟩, halert⟩
    · cases low <;> simp [Replies.operations]
  · rintro h' h'' ⟨low, alert⟩ ⟨hnot, -, hsame⟩ hback hsaid
    refine ⟨_, hsaid, fun hreplenished => hnot (hback hreplenished), ?_, hr.valid, hr.inStock⟩
    cases low with
    | false => exact (hsame rfl).trans hr.alertOut
    | true => rfl

/-- A restock that returns true has replenished the source and written its
alert, or it found enough and left the alert string as it was. -/
theorem reStock_speaks {alertOut : String} (hroot : env.json.parse buffer = .ok (some root))
    (hr : r.Said env origin buffer s₀ h) (hnone : r.reStocked = none)
    (hnot : ¬ Replenished env buffer h) :
    Speaks env origin buffer s₀ (reStock env.json root alertOut) (fun h' result =>
      r.Said env origin buffer s₀ h' ∧
        (result.1 = true → ∃ w, WatchedStock.ofJson root = .ok (some w) ∧
          (Replenished env buffer h' ∧ result.2 = w.reStockAlert env.json ∨
            ¬ Replenished env buffer h' ∧ result.2 = alertOut))) h := by
  refine Meets.bind (Meets.ofExcept (Q := fun h' w => h' = h ∧ WatchedStock.ofJson root = .ok w)
    fun _ hw => ⟨rfl, hw⟩) ?_
  rintro h w ⟨rfl, hw⟩
  cases w with
  | none => exact ⟨hr, fun hfalse => by cases hfalse⟩
  | some w =>
    refine ⟨hr.spoken rfl (.inl rfl), fun rows _ => ?_⟩
    have hr₁ := hr.snoc (o := .getWarehouseInventory w.productName w.warehouseId) rfl (.inl rfl)
      rows
    have hnot₁ : ¬ Replenished env buffer
        (h ++ [⟨.getWarehouseInventory w.productName w.warehouseId, rows⟩]) := by
      rwa [replenished_snoc fun u hu => by cases hu]
    show (if readStock rows = -1 then _ else _ : Handling _).Meets _ _ _ _
    split
    · exact ⟨hr₁, fun hfalse => by cases hfalse⟩
    · split
      · next hlow =>
        refine ⟨hr₁.spoken rfl (.inr hnone), fun n _ => ?_⟩
        have hr₂ := hr₁.snoc (o := .updateWarehouseInventory w.warehouseId w.productName
          (MAX_CAPACITY - readStock rows)) rfl (.inr hnone) n
        show (if updateResult n = 1 then _ else _ : Handling _).Meets _ _ _ _
        split
        · next hone =>
          refine ⟨hr₂, fun _ => ⟨w, hw, .inl ⟨⟨_, List.mem_append_right _ List.mem_cons_self,
            root, w, _, hroot, hw, hlow, if_pos hone⟩, rfl⟩⟩⟩
        · exact ⟨hr₂, fun hfalse => by cases hfalse⟩
      · exact ⟨hr₁, fun _ => ⟨w, hw, .inr ⟨hnot₁, rfl⟩⟩⟩

theorem reStockStage_speaks (hbrace : beginsWithBrace buffer = true)
    (hroot : env.json.parse buffer = .ok (some root)) {stock lowStock : Option String}
    {success : Bool}
    (hr : Through env origin buffer root s₀ (.ofOrder env root stock success lowStock none) h s) :
    Speaks env origin buffer s₀ (reStockStage env origin.reply root s)
      (StageSpeaks fun h' s' => ∃ reStocked,
        (Replies.ofOrder env root stock success lowStock reStocked).Said env origin buffer s₀ h' ∧
          s'.isValid = s.isValid ∧ s'.productStock = s.productStock) h := by
  unfold reStockStage
  refine stage_speaks (r := .ofOrder env root stock success lowStock none)
    (q := fun result => .ofOrder env root stock success lowStock
      (if result.1 then some result.2 else none))
    (reStock_speaks hroot hr.said rfl hr.unreplenished) ?_ fun _ _ _ _ _ hsaid =>
      ⟨_, hsaid, rfl, rfl⟩
  rintro h' ⟨again, alert⟩ hr' hagain
  refine ⟨⟨fun hno => (by cases hno), hr'.sound.limits, hr'.sound.stock, hr'.sound.success,
    hr'.sound.lowStock, fun text htext => ?_, fun _ ho => (by cases ho)⟩, ?_⟩
  · cases again with
    | false => cases htext
    | true =>
      cases htext
      obtain ⟨w, hw, hcase⟩ := hagain rfl
      refine ⟨w, ⟨hbrace, root, hroot, hw⟩, hcase.imp_right fun ⟨hnot, hsame⟩ => ⟨hnot, ?_⟩⟩
      exact hsame.trans hr.alertOut
  · cases again <;> simp [Replies.operations]

/-- The replies of the first branch are done, and a text for a client may follow
them if an order passed both checks. -/
structure Branched (env : Env) (origin : Origin) (buffer : String) (s₀ : Loop) (r : Replies)
    (h : List (Answered Server)) (s : Loop) : Prop where
  said : r.Said env origin buffer s₀ h
  acknowledged : r.acknowledged = true
  limits : beginsWithBrace buffer = true → ∀ root, env.json.parse buffer = .ok (some root) →
    r.limits = limitsError env root
  passed : s.isValid = true → s.productStock = true → r.limits = none ∧ r.stock = none
  forward : r.forward = none
  same : beginsWithBrace buffer = false → s = s₀

theorem orderStages_speaks (hbrace : beginsWithBrace buffer = true)
    (hroot : env.json.parse buffer = .ok (some root))
    (hr : Replies.acknowledgedOnly.Said env origin buffer s₀ h)
    (hnot : ¬ Replenished env buffer h) :
    Speaks env origin buffer s₀ (orderStages env origin.reply root s₀)
      (StageSpeaks fun h' s' => ∃ r, Branched env origin buffer s₀ r h' s') h := by
  unfold orderStages
  refine stages_speaks (validateStage_speaks hbrace hroot hr hnot rfl) fun h₁ s₁ hr₁ => ?_
  refine stages_speaks (stockStage_speaks hbrace hroot hr₁) ?_
  rintro h₂ s₂ ⟨stock, hr₂⟩
  refine stages_speaks (updateStage_speaks hbrace hr₂) ?_
  rintro h₃ s₃ ⟨success, hr₃⟩
  refine stages_speaks (lowStockStage_speaks hbrace hroot hr₃) ?_
  rintro h₄ s₄ ⟨lowStock, hr₄⟩
  refine stages_speaks (reStockStage_speaks hbrace hroot hr₄) ?_
  rintro h₅ s₅ ⟨reStocked, hsaid, hvalid, hstock⟩
  refine ⟨fun _ => ⟨_, hsaid, rfl, fun _ root' hroot' => ?_, fun hv hp => ?_, rfl, fun hno => ?_⟩,
    fun hgo => by cases hgo⟩
  · cases hroot.symm.trans hroot'
    rfl
  · exact ⟨limitsError_of_valid (hr₄.valid (hvalid ▸ hv)), hr₄.inStock (hstock ▸ hp)⟩
  · cases hno.symm.trans hbrace

end

/-! ## The whole message -/

theorem not_replenished_nil : ¬ Replenished env buffer [] := fun ⟨_, he, _⟩ => by cases he

theorem acknowledgedOnly_sound : Replies.acknowledgedOnly.Sound env origin buffer s₀ h :=
  ⟨fun h => (by cases h), fun _ h => (by cases h), fun _ h => (by cases h), fun h => (by cases h),
    fun _ h => (by cases h), fun _ h => (by cases h), fun _ h => (by cases h)⟩

theorem orderBranch_speaks (hr : Replies.acknowledgedOnly.Said env origin buffer s₀ h)
    (hnot : ¬ Replenished env buffer h) :
    Speaks env origin buffer s₀ (orderBranch env origin.reply buffer s₀) (fun h' result =>
      (result.2 = true → ∃ r, Branched env origin buffer s₀ r h' result.1) ∧
        (result.2 = false → Broken h' ∨ env.json.parse buffer = .ok none)) h := by
  unfold orderBranch
  split
  · next hbrace =>
    unfold handleOrder
    refine ⟨hr.spoken rfl (.inl rfl), fun stored _ => ?_⟩
    show Speaks env origin buffer s₀ (Program.ofExcept stored >>= fun _ => _) _ _
    have hr₁ := hr.snoc (o := .storeOrder buffer) rfl (.inl rfl) stored
    have hnot₁ : ¬ Replenished env buffer (h ++ [⟨.storeOrder buffer, stored⟩]) := by
      rwa [replenished_snoc fun u hu => by cases hu]
    refine Meets.bind (Meets.ofExcept (Q := fun h' _ => h' = h ++ [⟨.storeOrder buffer, stored⟩])
      fun _ _ => rfl) ?_
    rintro _ _ rfl
    refine Meets.bind (Meets.ofExcept (Q := fun h' v => h' = h ++ [⟨.storeOrder buffer, stored⟩] ∧
      env.json.parse buffer = .ok v) fun v hv => ⟨rfl, hv⟩) ?_
    rintro _ v ⟨rfl, hparse⟩
    cases v with
    | none => exact ⟨fun hgo => (by cases hgo), fun _ => .inr hparse⟩
    | some root =>
      exact (orderStages_speaks hbrace hparse hr₁ hnot₁).mono (fun _ _ h => h) (fun _ _ h => h)
        fun _ _ hend => ⟨hend.1, fun hstop => .inl (hend.2 hstop)⟩
  · next hbrace =>
    have hbranched : Branched env origin buffer s₀ .acknowledgedOnly h s₀ :=
      ⟨hr, rfl, fun h => absurd h hbrace, fun _ _ => ⟨rfl, rfl⟩, rfl, fun _ => rfl⟩
    exact ⟨fun _ => ⟨_, hbranched⟩, fun hgo => by cases hgo⟩

/-- A text for a client that was looked up is the last of the sends. -/
theorem forwardMessageToClient_speaks {s : Loop} {message protocol : String} {clientId : Int}
    (hr : Branched env origin buffer s₀ r h s) (hpassed : r.limits = none ∧ r.stock = none)
    (hmade : Dispatch env origin buffer s₀ h message clientId protocol) :
    Speaks env origin buffer s₀ (forwardMessageToClient message clientId protocol) (fun h' _ =>
      ∃ o, ({ r with forward := o } : Replies).Said env origin buffer s₀ h') h := by
  have hnone : ({ r with forward := none } : Replies) = r := by rw [← hr.forward]
  have hadd : ∀ o : Operation, ({ r with forward := some o } : Replies).operations origin =
      r.operations origin ++ [o] := fun o => by
    simp [Replies.operations, hr.forward]
  have hdone : ∀ h', r.Said env origin buffer s₀ h' →
      ∃ o, ({ r with forward := o } : Replies).Said env origin buffer s₀ h' := fun h' hsaid =>
    ⟨none, by rw [hnone]; exact hsaid⟩
  refine ⟨hr.said.spoken rfl (.inl rfl), fun target _ => ?_⟩
  have hr₁ := hr.said.snoc (o := .findClientById clientId protocol) rfl (.inl rfl) target
  cases target with
  | none => exact hdone _ hr₁
  | some info =>
    -- The send to the client that was found, after which nothing is sent.
    have hsend : ∀ o : Operation, (protocol = "udp" ∧ o = .sendto info.addr message ∨
        protocol = "tcp" ∧ o = .write info.socketFd message) → o.text? = some message →
        Speaks env origin buffer s₀ (ask o) (fun h' _ =>
          ∃ o, ({ r with forward := o } : Replies).Said env origin buffer s₀ h')
          (h ++ [⟨.findClientById clientId protocol, some info⟩]) := by
      intro o ho htext
      have hdispatched : Dispatched env origin buffer s₀
          (h ++ [⟨.findClientById clientId protocol, some info⟩]) o :=
        ⟨message, clientId, protocol, info, hmade.append _,
          List.mem_append_right _ List.mem_cons_self, ho⟩
      have hsound : ({ r with forward := some o } : Replies).Sound env origin buffer s₀
          (h ++ [⟨.findClientById clientId protocol, some info⟩]) :=
        ⟨fun hno => absurd (hr.acknowledged.symm.trans hno) (by decide), hr₁.sound.limits,
          hr₁.sound.stock, hr₁.sound.success, hr₁.sound.lowStock, hr₁.sound.reStocked,
          fun o' ho' => by cases ho'; exact ⟨hpassed.1, hpassed.2, hdispatched⟩⟩
      have hupdate : o.update? = none := Asks.update?_of_text htext
      refine ⟨⟨_, hsound, by rw [sent?_of_text htext, hr₁.sends, hadd]; rfl, .inl hupdate⟩,
        fun reply _ => ⟨some o, ?_, hsound.snoc (.inl hupdate)⟩⟩
      refine (sends_snoc o reply).trans ?_
      rw [sent?_of_text htext, hr₁.sends, hadd]
      rfl
    dsimp only
    split
    · next hudp =>
      exact Meets.bind (hsend (.sendto info.addr message) (.inl ⟨hudp, rfl⟩) rfl)
        fun _ _ hend => hend
    · split
      · next htcp =>
        exact Meets.bind (hsend (.write info.socketFd message) (.inr ⟨htcp, rfl⟩) rfl)
          fun _ _ hend => hend
      · exact hdone _ hr₁

theorem Branched.snoc {s : Loop} (hr : Branched env origin buffer s₀ r h s) {o : Operation}
    (ho : o.text? = none) (hupdate : o.update? = none) (reply : o.Reply) :
    Branched env origin buffer s₀ r (h ++ [⟨o, reply⟩]) s :=
  ⟨hr.said.snoc ho (.inl hupdate) reply, hr.acknowledged, hr.limits, hr.passed, hr.forward, hr.same⟩

/-- `processMessage` sends one text at most. -/
theorem processMessage_speaks {s : Loop} {protocol : String}
    (hprotocol : toLower protocol = origin.protocol) (hr : Branched env origin buffer s₀ r h s)
    (hpassed : r.limits = none ∧ r.stock = none) :
    Speaks env origin buffer s₀ (processMessage env.json buffer protocol s.clientId) (fun h' _ =>
      ∃ o, ({ r with forward := o } : Replies).Said env origin buffer s₀ h') h := by
  have hsame : IsCommand buffer → s.clientId = s₀.clientId := fun hc => by rw [hr.same hc.plain.1]
  unfold processMessage
  rw [hprotocol]
  split
  · next hlist =>
    refine ⟨hr.said.spoken rfl (.inl rfl), fun clientMapUdp _ => ?_⟩
    have hr₁ := hr.snoc (o := .clientMapUdp) rfl rfl clientMapUdp
    refine ⟨hr₁.said.spoken rfl (.inl rfl), fun clientMapTcp _ => ?_⟩
    have hr₂ := hr₁.snoc (o := .clientMapTcp) rfl rfl clientMapTcp
    rw [hsame (.inl hlist)]
    exact forwardMessageToClient_speaks hr₂ hpassed
      (.listing clientMapUdp clientMapTcp hlist ⟨h, [], [], by simp⟩)
  · next hlist =>
    split
    · next hreport =>
      refine ⟨hr.said.spoken rfl (.inl rfl), fun totals _ => ?_⟩
      have hr₁ := hr.snoc (o := .productQuantities) rfl rfl totals
      rw [hsame (.inr hreport)]
      exact forwardMessageToClient_speaks hr₁ hpassed (.report totals hreport (by simp))
    · next hreport =>
      refine Meets.bind (Meets.ofExcept (Q := fun h' f => h' = h ∧
        Forward.ofText env.json buffer = .ok f) fun f hf => ⟨rfl, hf⟩) ?_
      rintro h f ⟨rfl, hf⟩
      cases f with
      | none => exact ⟨none, by rw [← hr.forward]; exact hr.said⟩
      | some f =>
        exact forwardMessageToClient_speaks hr hpassed
          (.order f (fun hc => hc.elim hlist hreport) hf)

/-- What was sent for an order that was handled to its end: the error of the
limit rules if there is one, unless a send failed. -/
def Told (env : Env) (origin : Origin) (buffer : String) (s₀ : Loop)
    (h : List (Answered Server)) : Prop :=
  beginsWithBrace buffer = true → ∀ root, env.json.parse buffer = .ok (some root) →
    Broken h ∨ ∃ r : Replies, r.Said env origin buffer s₀ h ∧ r.limits = limitsError env root

theorem handleMessage_speaks {protocol : String} (hprotocol : toLower protocol = origin.protocol)
    (hr : Replies.acknowledgedOnly.Said env origin buffer s₀ h)
    (hnot : ¬ Replenished env buffer h) :
    Speaks env origin buffer s₀ (handleMessage env origin.reply protocol buffer s₀)
      (fun h' _ => Told env origin buffer s₀ h') h := by
  unfold handleMessage
  refine Meets.bind (orderBranch_speaks hr hnot) ?_
  rintro h₁ ⟨s₁, go⟩ ⟨hgo, hstop⟩
  simp only
  split
  · next hall =>
    simp only [Bool.and_eq_true] at hall
    obtain ⟨⟨rfl, hvalid⟩, hstock⟩ := hall
    obtain ⟨r, hr₁⟩ := hgo rfl
    refine Meets.bind (processMessage_speaks hprotocol hr₁ (hr₁.passed hvalid hstock)) ?_
    rintro h₂ _ ⟨o, hsaid⟩
    exact fun hbrace root hroot => .inr ⟨_, hsaid, hr₁.limits hbrace root hroot⟩
  · intro hbrace root hroot
    cases go with
    | true =>
      obtain ⟨r, hr₁⟩ := hgo rfl
      exact .inr ⟨r, hr₁.said, hr₁.limits hbrace root hroot⟩
    | false =>
      rcases hstop rfl with hbroken | hnone
      · exact .inl hbroken
      · cases hroot.symm.trans hnone

theorem acknowledge_speaks (origin : Origin) (hs : sends h = []) :
    Speaks env origin buffer s₀ (origin.reply origin.acknowledgement) (fun h' go =>
      (Replies.acknowledgedOnly.Said env origin buffer s₀ h' ∧
        (Replenished env buffer h' → Replenished env buffer h)) ∧ (go = false → Broken h')) h := by
  have hsilent : sends h = Replies.silent.operations origin := hs
  exact @replyIf_speaks env origin buffer s₀ h .silent .acknowledgedOnly true
    origin.acknowledgement hsilent acknowledgedOnly_sound rfl

theorem silent_said (hs : sends h = []) : Replies.silent.Said env origin buffer s₀ h :=
  ⟨hs, fun _ => rfl, fun _ h => (by cases h), fun _ h => (by cases h), fun h => (by cases h),
    fun _ h => (by cases h), fun _ h => (by cases h), fun _ h => (by cases h)⟩

/-- **What the handling of a message sends is sound and in order**, on either
transport, whatever the replies. -/
theorem iteration_speaks (env : Env) (origin : Origin) (buffer : String) (s₀ : Loop) :
    Speaks env origin buffer s₀ (iteration env origin buffer s₀)
      (fun h' _ => Told env origin buffer s₀ h') [] := by
  cases origin with
  | udp cliAddr =>
    show Speaks env _ buffer s₀ (handleUdpClients env cliAddr buffer s₀) _ []
    unfold handleUdpClients
    refine ⟨(silent_said rfl).spoken rfl (.inl rfl), fun registered _ => ?_⟩
    show Speaks _ _ _ _ (if !registered && atoi buffer ≠ 0 then _ else _) _ _
    split
    · next hnew =>
      refine ⟨(silent_said rfl).spoken rfl (.inl rfl), fun clientId _ hbrace => ?_⟩
      simp [atoi_of_brace hbrace] at hnew
    · refine Meets.bind (acknowledge_speaks (.udp cliAddr) rfl) fun h₂ _ hend => ?_
      have hprotocol : toLower "UDP" = (Origin.udp cliAddr).protocol := by
        show _ = "udp"
        decide +kernel
      refine handleMessage_speaks hprotocol hend.1.1 fun hreplenished => ?_
      exact (replenished_snoc fun u hu => by cases hu).not.2 not_replenished_nil
        (hend.1.2 hreplenished)
  | tcp clientSockfd =>
    show Speaks env _ buffer s₀ (handleTcpClient env clientSockfd buffer s₀) _ []
    unfold handleTcpClient
    refine Meets.bind (acknowledge_speaks (.tcp clientSockfd) rfl) ?_
    rintro h₁ written ⟨⟨hsaid, hback⟩, hbroken⟩
    split
    · have hprotocol : toLower "TCP" = (Origin.tcp clientSockfd).protocol := by
        show _ = "tcp"
        decide +kernel
      exact handleMessage_speaks hprotocol hsaid fun hreplenished =>
        not_replenished_nil (hback hreplenished)
    · next hw => exact fun _ _ _ => .inl (hbroken (by simpa using hw))

/-- The sends of a history that was in order throughout. -/
theorem Kept.said (hk : Kept (Spoken env origin buffer s₀) h) :
    ∃ r : Replies, r.Said env origin buffer s₀ h := by
  rcases List.eq_nil_or_concat h with rfl | ⟨h, e, rfl⟩
  · exact ⟨.silent, silent_said rfl⟩
  · rw [List.concat_eq_append] at hk ⊢
    obtain ⟨r, hsound, hs, hupdate⟩ := hk.of_snoc.2
    exact ⟨r, (sends_snoc e.1 e.2).trans hs, hsound.snoc hupdate⟩

end


end LogisticService
