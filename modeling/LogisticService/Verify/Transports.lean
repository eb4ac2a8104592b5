import LogisticService.Effects.Lockstep
import LogisticService.Order.Sample
import LogisticService.Server.Conduct

/-!
# The two transports

The order pipeline runs behind a UDP socket and behind a TCP connection. The
two differ in what a failed reply does: the UDP handler goes on, a TCP handler
leaves the message where it is and reads the next one. So an iteration of the
TCP loop is tracked by one of the UDP loop on the same message: it makes the
same database calls up to its first failed reply, and when no reply fails it
ends with the same tables and forwards the same message.
-/

namespace LogisticService

open Effects Program

/-! ## Iterations under a pattern of failures -/

/-- Which of the coming database calls and sends succeed; those past the end
of a list do. -/
structure Outcomes where
  calls : List Bool
  sends : List Bool
deriving DecidableEq

/-- The operation is a database call. -/
def Operation.isCall : Operation → Bool
  | .getHubInventory .. | .getWarehouseInventory .. => true
  | .updateHubInventory .. | .updateWarehouseInventory .. => true
  | _ => false

/-- The operation looks up the target of a forward. -/
def Operation.isLookup : Operation → Bool
  | .findClientById .. => true
  | _ => false

/-- Database calls and sends take their outcomes from lists of their own. -/
def answerWith (env : Env) : Program.Answer Server (Shared × Outcomes) := fun x o =>
  if o.isCall then
    let r := answer env (x.2.calls.headD true) x.1 o
    (r.1, r.2, { x.2 with calls := x.2.calls.tail })
  else if o.text? = none then
    let r := answer env true x.1 o
    (r.1, r.2, x.2)
  else
    let r := answer env (x.2.sends.headD true) x.1 o
    (r.1, r.2, { x.2 with sends := x.2.sends.tail })

/-- The acknowledgement and the replies succeeded: every send before the
target of a forward is looked up. -/
def RepliesSucceed (t : List (Answered Server)) : Prop :=
  ∀ e ∈ t.takeWhile fun e => !Operation.isLookup e.1, sendFailed e = false

instance (t : List (Answered Server)) : Decidable (RepliesSucceed t) :=
  inferInstanceAs (Decidable (∀ e ∈ _, _))

/-- The attempted forward: the lookup of its target, and the send to it. -/
def forwarded (t : List (Answered Server)) : List Operation :=
  (t.dropWhile fun e => !Operation.isLookup e.1).map (·.1)

/-- The database calls of an iteration, with their replies. -/
def databaseCalls (t : List (Answered Server)) : List (Answered Server) :=
  t.filter fun e => Operation.isCall e.1

/-! ## The order branch of both handlers -/

/-- A reply of one handler goes with a reply of the other; anything else is
done alike, with the same reply. -/
def transports (cliAddr : SockAddr) (fd : Int) : Pairing Server where
  pair o o' := (o = o' ∧ Operation.isLookup o = false ∧ Operation.text? o = none) ∨
    ∃ text text', o = .sendto cliAddr text ∧ o' = .write fd text'
  agree e e' := Operation.text? e.1 ≠ none ∨ e = e'
  halts o e := Operation.text? o ≠ none ∧ sendFailed e = true

section

variable {env : Env} {cliAddr : SockAddr} {fd : Int} {buffer : String}

/-- The second handler gave up on the message. -/
abbrev Stops {α : Type} (r : α × Bool) : Prop := r.2 = false

theorem ask_tracks {α : Type} {stop : α → Prop} {o : Operation} {k k' : o.Reply → Handling α}
    (hlookup : o.isLookup = false) (htext : o.text? = none)
    (hk : ∀ r, Tracks (transports cliAddr fd) stop (k r) (k' r)) :
    Tracks (transports cliAddr fd) stop (@Program.call Server Exn α o k)
      (@Program.call Server Exn α o k') := by
  refine .call (.inl ⟨rfl, hlookup, htext⟩) (fun r r' hagree _ => ?_) fun r' hhalt => ?_
  · rcases hagree with hsend | hsame
    · exact absurd htext hsend
    · cases hsame
      exact hk r
  · exact absurd htext hhalt.1

/-- A failed reply of the TCP handler gives up. -/
theorem reply_tracks (text text' : String) :
    Tracks (transports cliAddr fd) (· = false) (udpReply cliAddr text) (tcpReply fd text') := by
  refine .call (.inr ⟨text, text', rfl, rfl⟩) (fun r (r' : Bool) _ hsent => ?_)
    fun (r' : Bool) hhalt => ?_
  · cases r' with
    | true => exact .pure true
    | false => exact absurd ⟨by simp [Operation.text?], rfl⟩ hsent
  · cases r' with
    | true => exact absurd hhalt.2 (by simp [sendFailed])
    | false => exact ⟨false, rfl, rfl⟩

theorem replyIf_tracks (condition : Bool) (text : String) :
    Tracks (transports cliAddr fd) (· = false) (replyIf (udpReply cliAddr) condition text)
      (replyIf (tcpReply fd) condition text) := by
  cases condition with
  | true => exact reply_tracks text text
  | false => exact .pure true

/-- A part both handlers do alike, and a reply on its result. -/
theorem stage_tracks {α : Type} {check : Handling α} (condition : α → Bool) (text : α → String)
    (after : α → Loop) (hcheck : Tracks (transports cliAddr fd) (fun _ : α => False) check check) :
    Tracks (transports cliAddr fd) Stops
      (check >>= fun a => replyIf (udpReply cliAddr) (condition a) (text a) >>= fun go =>
        Program.pure (after a, go))
      (check >>= fun a => replyIf (tcpReply fd) (condition a) (text a) >>= fun go =>
        Program.pure (after a, go)) := by
  refine hcheck.bind (fun a => ?_) fun a h => h.elim
  refine (replyIf_tracks _ _).bind (fun go => .pure _) fun go hgo => ?_
  exact ⟨(after a, go), rfl, hgo⟩

/-! ### The checks and the transfer -/

/-- Both handlers go through a part of the pipeline alike. -/
abbrev Alike (cliAddr : SockAddr) (fd : Int) {α : Type} (p : Handling α) : Prop :=
  Tracks (transports cliAddr fd) (fun _ => False) p p

theorem Alike.bind {α β : Type} {p : Handling α} {f : α → Handling β} (hp : Alike cliAddr fd p)
    (hf : ∀ a, Alike cliAddr fd (f a)) : Alike cliAddr fd (p >>= f) :=
  Tracks.bind hp hf fun _ h => h.elim

theorem Alike.ask {α : Type} {o : Operation} {f : o.Reply → Handling α}
    (hlookup : o.isLookup = false) (htext : o.text? = none) (hf : ∀ r, Alike cliAddr fd (f r)) :
    Alike cliAddr fd (ask o >>= f) := ask_tracks hlookup htext hf

theorem getHubInventory_alike (hubId : Int) (product : String) :
    Alike cliAddr fd (getHubInventory hubId product) := .ask rfl rfl fun _ => .pure _

theorem getWarehouseInventory_alike (warehouseId : Int) (product : String) :
    Alike cliAddr fd (getWarehouseInventory warehouseId product) := .ask rfl rfl fun _ => .pure _

theorem Update.call_alike (u : Update) : Alike cliAddr fd u.call := by
  obtain ⟨table, location, productName, quantity⟩ := u
  cases table with
  | hubs => exact .ask rfl rfl fun _ => .pure _
  | warehouses => exact .ask rfl rfl fun _ => .pure _

theorem checkProductStock_alike (json : JsonCpp) (root : Value) (errorMessage : String) :
    Alike cliAddr fd (checkProductStock json root errorMessage) := by
  refine Alike.bind (Alike.bind (Tracks.ofExcept _) fun request => ?_) fun verdict => ?_
  · cases request with
    | error rejection => exact .pure _
    | ok r =>
      show Alike cliAddr fd r.check
      unfold StockRequest.check
      split
      · exact Alike.bind (getHubInventory_alike _ _) fun _ => .pure _
      · split
        · exact Alike.bind (getWarehouseInventory_alike _ _) fun _ => .pure _
        · exact .pure _
  · cases verdict <;> exact .pure _

theorem realTimeUpdate_alike (root : Value) : Alike cliAddr fd (realTimeUpdate root) := by
  refine Alike.bind (Tracks.ofExcept _) fun t => ?_
  cases hd : t.debit with
  | none =>
    rw [Transfer.perform_of_no_debit hd]
    exact .pure _
  | some d =>
    rw [Transfer.perform_of_debit hd]
    refine Alike.bind d.call_alike fun result => ?_
    split
    · split
      · next k _ => exact k.call_alike
      · exact .pure _
    · exact .pure _

theorem checkLowStockAlert_alike (json : JsonCpp) (root : Value) (alertOut : String) :
    Alike cliAddr fd (checkLowStockAlert json root alertOut) := by
  refine Alike.bind (Tracks.ofExcept _) fun w => ?_
  cases w with
  | none => exact .pure _
  | some w =>
    refine Alike.bind (getWarehouseInventory_alike _ _) fun stock => ?_
    split
    · exact .pure _
    · split <;> exact .pure _

theorem reStock_alike (json : JsonCpp) (root : Value) (alertOut : String) :
    Alike cliAddr fd (reStock json root alertOut) := by
  refine Alike.bind (Tracks.ofExcept _) fun w => ?_
  cases w with
  | none => exact .pure _
  | some w =>
    refine Alike.bind (getWarehouseInventory_alike _ _) fun stock => ?_
    split
    · exact .pure _
    · split
      · refine Alike.bind (Update.call_alike ⟨.warehouses, _, _, _⟩) fun result => ?_
        split <;> exact .pure _
      · exact .pure _

/-! ### The order branch -/

theorem stages_tracks {stage stage' : Loop → Handling (Loop × Bool)}
    {rest rest' : List (Loop → Handling (Loop × Bool))}
    (hstage : ∀ s, Tracks (transports cliAddr fd) Stops (stage s) (stage' s))
    (hrest : ∀ s, Tracks (transports cliAddr fd) Stops (stages rest s) (stages rest' s))
    (s : Loop) :
    Tracks (transports cliAddr fd) Stops (stages (stage :: rest) s)
      (stages (stage' :: rest') s) := by
  refine (hstage s).bind (fun r => ?_) fun r hr => ?_
  · obtain ⟨s', go⟩ := r
    cases go with
    | true => exact hrest s'
    | false => exact .pure _
  · obtain ⟨s', go⟩ := r
    cases hr
    exact ⟨_, rfl, rfl⟩

theorem orderStages_tracks (root : Value) (s : Loop) :
    Tracks (transports cliAddr fd) Stops (orderStages env (udpReply cliAddr) root s)
      (orderStages env (tcpReply fd) root s) := by
  refine stages_tracks (fun s => ?_) (stages_tracks (fun s => ?_) (stages_tracks (fun s => ?_)
    (stages_tracks (fun s => ?_) (stages_tracks (fun s => ?_) fun s => .pure (s, true))))) s
  · exact stage_tracks (fun r : Bool × String => !r.1) (·.2)
      (fun r => { s with isValid := r.1, errorMessage := r.2 }) (Tracks.ofExcept _)
  · exact stage_tracks (fun r : Bool × String => !r.1) (·.2)
      (fun r => { s with productStock := r.1, errorMessage := r.2 })
      (checkProductStock_alike _ _ _)
  · unfold updateStage
    split
    · exact stage_tracks (fun result => result > 0) (fun _ => "Successful order!") (fun _ => s)
        (realTimeUpdate_alike root)
    · exact .pure _
  · exact stage_tracks (·.1) (·.2) (fun r => { s with lowStock := r.1, alertOut := r.2 })
      (checkLowStockAlert_alike _ _ _)
  · exact stage_tracks (·.1) (·.2) (fun r => { s with reStocked := r.1, alertOut := r.2 })
      (reStock_alike _ _ _)

theorem orderBranch_tracks (s : Loop) :
    Tracks (transports cliAddr fd) Stops (orderBranch env (udpReply cliAddr) buffer s)
      (orderBranch env (tcpReply fd) buffer s) := by
  unfold orderBranch handleOrder
  split
  · refine ask_tracks rfl rfl fun stored => ?_
    have hstop : ∀ {α : Type} (x : Except Exn α),
        Tracks (transports cliAddr fd) (fun _ => False) (Program.ofExcept x : Handling α)
          (Program.ofExcept x) := fun x => Tracks.ofExcept x
    refine (hstop stored).bind (fun _ => ?_) fun _ h => h.elim
    refine (hstop (env.json.parse buffer)).bind (fun v => ?_) fun _ h => h.elim
    cases v with
    | none => exact .pure _
    | some root => exact orderStages_tracks root s
  · exact .pure _

/-- An iteration on an order up to `processMessage`: the acknowledgement and
the order branch. -/
def acknowledged (origin : Origin) (env : Env) (buffer text : String) (s : Loop) :
    Handling (Loop × Bool) := do
  let go ← origin.reply text
  if go then orderBranch env origin.reply buffer s else return (s, false)

theorem acknowledged_tracks (s : Loop) (text text' : String) :
    Tracks (transports cliAddr fd) Stops (acknowledged (.udp cliAddr) env buffer text s)
      (acknowledged (.tcp fd) env buffer text' s) := by
  refine (reply_tracks text text').bind (fun go => ?_) fun go hgo => ?_
  · cases go with
    | true => exact orderBranch_tracks s
    | false => exact .pure _
  · rw [if_neg (by simp [hgo])]
    exact ⟨_, rfl, rfl⟩

/-! ### The forward -/

/-- What is left of an iteration on an order after its order branch. -/
def forwardOrder (json : JsonCpp) (buffer : String) (r : Loop × Bool) : Handling Loop :=
  if r.2 && r.1.isValid && r.1.productStock then do
    match ← Program.ofExcept (Forward.ofText json buffer) with
    | none => return r.1
    | some f => do
      forwardMessageToClient f.message f.targetClientId f.protocol
      return r.1
  else return r.1

theorem handleMessage_order (hbrace : beginsWithBrace buffer = true)
    (reply : String → Handling Bool) (protocol : String) (s : Loop) :
    handleMessage env reply protocol buffer s =
      orderBranch env reply buffer s >>= forwardOrder env.json buffer := by
  unfold handleMessage
  refine congrArg (orderBranch env reply buffer s >>= ·) (funext fun r => ?_)
  unfold forwardOrder processMessage
  obtain ⟨hlist, hreport⟩ := not_command_of_brace hbrace
  obtain ⟨s', go⟩ := r
  simp only [if_neg hlist, if_neg hreport]
  split
  · cases Forward.ofText env.json buffer with
    | error e => rfl
    | ok f => cases f <;> rfl
  · rfl

theorem handleTcpClient_order (hbrace : beginsWithBrace buffer = true) (s : Loop) :
    handleTcpClient env fd buffer s =
      acknowledged (.tcp fd) env buffer "TCP Server received your message." s >>=
        forwardOrder env.json buffer := by
  unfold handleTcpClient acknowledged
  rw [bind_assoc]
  refine congrArg (tcpReply fd _ >>= ·) (funext fun written => ?_)
  cases written with
  | true => exact handleMessage_order hbrace (tcpReply fd) "TCP" s
  | false => rfl

/-- An order is no PID, so the UDP handler registers nothing. -/
theorem handleUdpClients_order (hbrace : beginsWithBrace buffer = true) (s : Loop) :
    handleUdpClients env cliAddr buffer s = ask (.udpRegistered (atoi buffer)) >>= fun _ =>
      acknowledged (.udp cliAddr) env buffer "UDP Server received your message." s >>=
        forwardOrder env.json buffer := by
  unfold handleUdpClients
  refine congrArg (ask (.udpRegistered (atoi buffer)) >>= ·) (funext fun registered => ?_)
  rw [if_neg (by simp [atoi_of_brace hbrace]), handleMessage_order hbrace]
  rfl

/-- The same operations, none of them a database call; a send may go either way. -/
def sameOperations : Pairing Server where
  pair o o' := o = o' ∧ Operation.isCall o = false
  agree e e' := Operation.text? e.1 ≠ none ∨ e = e'
  halts _ _ := False

theorem forwardOrder_tracks (json : JsonCpp) (r : Loop × Bool) :
    Tracks sameOperations (fun _ => False) (forwardOrder json buffer r)
      (forwardOrder json buffer r) := by
  have hsame : ∀ {e e' : Answered Server}, e.1.text? = none → sameOperations.agree e e' → e = e' :=
    fun htext hagree => hagree.resolve_left (· htext)
  unfold forwardOrder
  split
  · cases Forward.ofText json buffer with
    | error e => exact .throw e
    | ok f =>
      cases f with
      | none => exact .pure _
      | some f =>
        refine .call ⟨rfl, rfl⟩ (fun target target' hagree _ => ?_) fun _ h => h.elim
        cases hsame rfl hagree
        cases target with
        | none => exact .pure _
        | some info =>
          dsimp only
          split
          · exact .call ⟨rfl, rfl⟩ (fun _ _ _ _ => .pure _) fun _ h => h.elim
          · split
            · exact .call ⟨rfl, rfl⟩ (fun _ _ _ _ => .pure _) fun _ h => h.elim
            · exact .pure _
  · exact .pure _

/-- The forward starts with the lookup of its target, when there is one. -/
theorem forwardOrder_starts {S : Type} (answer : Program.Answer Server S) (json : JsonCpp)
    (r : Loop × Bool) (x : S) : (forwardOrder json buffer r).trace answer x = [] ∨
      ∃ e t, (forwardOrder json buffer r).trace answer x = e :: t ∧
        Operation.isLookup e.1 = true := by
  unfold forwardOrder
  split
  · cases Forward.ofText json buffer with
    | error e => exact .inl rfl
    | ok f =>
      cases f with
      | none => exact .inl rfl
      | some f => exact .inr ⟨_, _, rfl, rfl⟩
  · exact .inl rfl

/-! ### Runs of the two handlers -/

/-- The same shared state, and the same outcomes of the database calls to come. -/
def Level (x y : Shared × Outcomes) : Prop := x.1 = y.1 ∧ x.2.calls = y.2.calls

theorem answerWith_level {x y : Shared × Outcomes} (h : Level x y) (o : Operation) :
    Level (answerWith env x o).2 (answerWith env y o).2 ∧
      (o.text? ≠ none ∨ (answerWith env x o).1 = (answerWith env y o).1) := by
  obtain ⟨sh, calls, us⟩ := x
  obtain ⟨sh', calls', ts⟩ := y
  obtain ⟨rfl, rfl⟩ : sh = sh' ∧ calls = calls' := h
  cases o with
  | sendto | write => exact ⟨⟨rfl, rfl⟩, .inl (by simp [Operation.text?])⟩
  | _ => exact ⟨⟨rfl, rfl⟩, .inr rfl⟩

/-- A send on either transport leaves what the handlers share. -/
theorem answerWith_reply {x y : Shared × Outcomes} (h : Level x y) (text text' : String) :
    Level (answerWith env x (.sendto cliAddr text)).2 (answerWith env y (.write fd text')).2 := h

theorem transports_kept :
    (transports cliAddr fd).KeptBy (answerWith env) (answerWith env) Level := by
  intro x y o o' hlevel hpair
  rcases hpair with ⟨rfl, _, htext⟩ | ⟨text, text', rfl, rfl⟩
  · obtain ⟨hnext, hreply⟩ := @answerWith_level env x y hlevel o
    exact ⟨hnext, .inr (.inr (congrArg (Sigma.mk o) (hreply.resolve_left (· htext))))⟩
  · exact ⟨answerWith_reply hlevel text text', .inr (.inl (by simp [Operation.text?]))⟩

theorem sameOperations_kept : sameOperations.KeptBy (answerWith env) (answerWith env) Level := by
  intro x y o o' hlevel hpair
  obtain ⟨rfl, _⟩ := hpair
  obtain ⟨hnext, hreply⟩ := @answerWith_level env x y hlevel o
  exact ⟨hnext, .inr (hreply.imp_right (congrArg (Sigma.mk o)))⟩

theorem matched_operations {t t' : List (Answered Server)}
    (h : List.Forall₂ (Tracks.Matched sameOperations) t t') :
    t.map (·.1) = t'.map (·.1) ∧ databaseCalls t = [] ∧ databaseCalls t' = [] := by
  induction h with
  | nil => exact ⟨rfl, rfl, rfl⟩
  | @cons e e' t t' hmatch _ ih =>
    obtain ⟨hops, hcalls, hcalls'⟩ := ih
    obtain ⟨⟨hop, hcall⟩, _⟩ := hmatch
    have hcall' : Operation.isCall e'.1 = false := hop ▸ hcall
    refine ⟨?_, ?_, ?_⟩
    · rw [List.map_cons, List.map_cons, hops, hop]
    · rw [databaseCalls, List.filter_cons_of_neg (by simp [hcall])]
      exact hcalls
    · rw [databaseCalls, List.filter_cons_of_neg (by simp [hcall'])]
      exact hcalls'

/-- In the order branch the two make the same database calls, and neither
looks up a target. -/
theorem matched_transports {t t' : List (Answered Server)}
    (h : List.Forall₂ (Tracks.Matched (transports cliAddr fd)) t t') :
    databaseCalls t = databaseCalls t' ∧ (∀ e ∈ t, Operation.isLookup e.1 = false) ∧
      ∀ e ∈ t', Operation.isLookup e.1 = false := by
  induction h with
  | nil => exact ⟨rfl, by simp, by simp⟩
  | @cons e e' t t' hmatch _ ih =>
    obtain ⟨hcalls, hlook, hlook'⟩ := ih
    obtain ⟨hpair, hreply⟩ := hmatch
    have hhead : databaseCalls [e] = databaseCalls [e'] ∧ Operation.isLookup e.1 = false ∧
        Operation.isLookup e'.1 = false := by
      rcases hpair with ⟨hop, hlookup, htext⟩ | ⟨text, text', hop, hop'⟩
      · have hsame : e = e' := by
          rcases hreply with hhalt | hsend | hsame
          · exact absurd htext hhalt.1
          · exact absurd htext hsend
          · exact hsame
        rw [← hsame]
        exact ⟨rfl, hlookup, hlookup⟩
      · simp [databaseCalls, hop, hop', Operation.isCall, Operation.isLookup]
    refine ⟨?_, List.forall_mem_cons.2 ⟨hhead.2.1, hlook⟩,
      List.forall_mem_cons.2 ⟨hhead.2.2, hlook'⟩⟩
    have hsplit : ∀ (e : Answered Server) t,
        databaseCalls (e :: t) = databaseCalls [e] ++ databaseCalls t :=
      fun e t => List.filter_append [e] t
    rw [hsplit e t, hsplit e' t', hhead.1, hcalls]

/-- What precedes the lookup of a target is no part of the forward. -/
theorem forwarded_append {t₁ t₂ : List (Answered Server)}
    (h₁ : ∀ e ∈ t₁, Operation.isLookup e.1 = false)
    (h₂ : t₂ = [] ∨ ∃ e t, t₂ = e :: t ∧ Operation.isLookup e.1 = true) :
    forwarded (t₁ ++ t₂) = t₂.map (·.1) := by
  unfold forwarded
  rw [List.dropWhile_append_of_pos (by simpa using h₁)]
  rcases h₂ with rfl | ⟨e, t, rfl, he⟩
  · rfl
  · rw [List.dropWhile_cons_of_neg (by simp [he])]
    rfl

/-- The replies of an iteration are sent before the lookup of a target. -/
theorem RepliesSucceed.sent {t₁ t₂ : List (Answered Server)} (h : RepliesSucceed (t₁ ++ t₂))
    (h₁ : ∀ e ∈ t₁, Operation.isLookup e.1 = false) : ∀ e ∈ t₁, sendFailed e = false := by
  intro e he
  apply h
  rw [List.takeWhile_append_of_pos (by simpa using h₁)]
  exact List.mem_append_left _ he

/-- What one iteration of the UDP loop and one of the TCP loop have in common
on a message: the result, the tables and the attempted forward. -/
structure Agrees (env : Env) (p q : Handling Loop) (x y : Shared × Outcomes) : Prop where
  result : (p.run (answerWith env) x).1 = (q.run (answerWith env) y).1
  tables : (p.run (answerWith env) x).2.1.tables = (q.run (answerWith env) y).2.1.tables
  forward : forwarded (p.trace (answerWith env) x) = forwarded (q.trace (answerWith env) y)

/-- After an order branch that both handlers went through alike. -/
theorem together_agrees {p q : Handling (Loop × Bool)} {x y : Shared × Outcomes}
    (h : Tracks.Together (transports cliAddr fd) (answerWith env) (answerWith env) Level p q x y) :
    Agrees env (p >>= forwardOrder env.json buffer) (q >>= forwardOrder env.json buffer) x y ∧
      databaseCalls ((p >>= forwardOrder env.json buffer).trace (answerWith env) x) =
        databaseCalls ((q >>= forwardOrder env.json buffer).trace (answerWith env) y) := by
  obtain ⟨hcalls, hlook, hlook'⟩ := matched_transports h.traces
  obtain ⟨_, hresults, hstates⟩ := h
  rcases hp : p.run (answerWith env) x with ⟨r, x'⟩
  rcases hq : q.run (answerWith env) y with ⟨r', y'⟩
  rw [hp, hq] at hresults hstates
  obtain rfl : r = r' := hresults
  cases r with
  | error e =>
    have htrace := trace_bind_error (answerWith env) hp (f := forwardOrder env.json buffer)
    have htrace' := trace_bind_error (answerWith env) hq (f := forwardOrder env.json buffer)
    refine ⟨⟨?_, ?_, ?_⟩, ?_⟩
    · rw [run_bind, run_bind, hp, hq]
    · rw [run_bind, run_bind, hp, hq]
      exact congrArg Shared.tables hstates.1
    · rw [htrace, htrace']
      have hnone := forwarded_append hlook (.inl rfl)
      have hnone' := forwarded_append hlook' (.inl rfl)
      rw [List.append_nil] at hnone hnone'
      rw [hnone, hnone']
    · rw [htrace, htrace', hcalls]
  | ok r =>
    have htrace := trace_bind_ok (answerWith env) hp (f := forwardOrder env.json buffer)
    have htrace' := trace_bind_ok (answerWith env) hq (f := forwardOrder env.json buffer)
    have hforward := (@forwardOrder_tracks buffer env.json r).run (@sameOperations_kept env) hstates
    rcases hforward with ⟨htraces, hresults', hstates'⟩ | ⟨_, ⟨_, _, _, _, hhalt⟩, _⟩
    · obtain ⟨hops, hnone, hnone'⟩ := matched_operations htraces
      refine ⟨⟨?_, ?_, ?_⟩, ?_⟩
      · rw [run_bind, run_bind, hp, hq]
        exact hresults'
      · rw [run_bind, run_bind, hp, hq]
        exact congrArg Shared.tables hstates'.1
      · rw [htrace, htrace', forwarded_append hlook (forwardOrder_starts _ _ _ _),
          forwarded_append hlook' (forwardOrder_starts _ _ _ _), hops]
      · rw [htrace, htrace']
        show databaseCalls _ = databaseCalls _
        unfold databaseCalls at hnone hnone' hcalls ⊢
        rw [List.filter_append, List.filter_append, hcalls, hnone, hnone']
    · exact hhalt.elim

/-- **The two transports treat orders alike**, on every message with a brace,
from the same shared state, the same loop variables and the same outcomes of
the database calls, whatever becomes of the sends: the database calls of the
TCP iteration are the first of those of the UDP iteration, and when none of
its replies fails, the two end alike. -/
theorem transports_agree (hbrace : beginsWithBrace buffer = true) (s : Loop) (sh : Shared)
    (calls us ts : List Bool) :
    let udp := handleUdpClients env cliAddr buffer s
    let tcp := handleTcpClient env fd buffer s
    let x : Shared × Outcomes := (sh, ⟨calls, us⟩)
    let y : Shared × Outcomes := (sh, ⟨calls, ts⟩)
    (RepliesSucceed (tcp.trace (answerWith env) y) → Agrees env udp tcp x y) ∧
      databaseCalls (tcp.trace (answerWith env) y) <+:
        databaseCalls (udp.trace (answerWith env) x) := by
  intro udp tcp x y
  have hudp : udp = ask (.udpRegistered (atoi buffer)) >>= fun _ =>
      acknowledged (.udp cliAddr) env buffer "UDP Server received your message." s >>=
        forwardOrder env.json buffer := handleUdpClients_order hbrace s
  have htcp : tcp = acknowledged (.tcp fd) env buffer "TCP Server received your message." s >>=
      forwardOrder env.json buffer := handleTcpClient_order hbrace s
  rw [hudp, htcp]
  have hlevel : Level x y := ⟨rfl, rfl⟩
  have htracks := @acknowledged_tracks env cliAddr fd buffer s
    "UDP Server received your message." "TCP Server received your message."
  rcases htracks.run transports_kept hlevel with htogether | hgave
  · obtain ⟨hagrees, hcalls⟩ := @together_agrees env cliAddr fd buffer _ _ x y htogether
    refine ⟨fun _ => ⟨hagrees.result, hagrees.tables, hagrees.forward⟩, ?_⟩
    rw [← hcalls]
    exact List.prefix_rfl
  · obtain ⟨⟨t, hprefix, hmatched⟩, ⟨o, e, he, _, hhalt⟩, b, hb, hstop⟩ := hgave
    obtain ⟨hcalls, _, hlook⟩ := matched_transports hmatched
    rcases hq : (acknowledged (.tcp fd) env buffer "TCP Server received your message." s).run
      (answerWith env) y with ⟨r, y'⟩
    rw [hq] at hb
    obtain rfl : r = .ok b := hb
    have hquiet : forwardOrder env.json buffer b = .pure b.1 := by
      unfold forwardOrder
      rw [hstop]
      rfl
    rw [trace_bind_ok (answerWith env) hq, hquiet]
    constructor
    · intro hsucceed
      exact absurd hhalt.2 (by simp [hsucceed.sent hlook e he])
    · rw [trace, List.append_nil, ← hcalls]
      have hall := hprefix.trans (trace_begins_bind (answerWith env) _
        (forwardOrder env.json buffer) x)
      exact hall.filter _

end

/-- On the order for an external client no UDP send arrives and every TCP
reply does, and the two end alike. -/
theorem transports_agree_externalOrder :
    Agrees externalEnv
      (handleUdpClients externalEnv ⟨⟨127, 0, 0, 1⟩, 5000⟩ externalOrderText .start)
      (handleTcpClient externalEnv 4 externalOrderText .start)
      (.start (waterTables 110), ⟨[], [false, false, false, false]⟩)
      (.start (waterTables 110), ⟨[], []⟩) :=
  (transports_agree (by decide +kernel) .start _ [] _ []).1 (by decide +kernel)

/-! ## A reply that fails after stock was moved -/

/-- The order for an external client, on a warehouse with 110 units: the
acknowledgement succeeds, the success reply fails. Both handlers debit the 25
units, and only the UDP handler restocks. -/
theorem success_reply_fails :
    let udp := handleUdpClients externalEnv ⟨⟨127, 0, 0, 1⟩, 5000⟩ externalOrderText .start
    let tcp := handleTcpClient externalEnv 4 externalOrderText .start
    let x : Shared × Outcomes := (.start (waterTables 110), ⟨[], [true, false]⟩)
    let u := udp.run (answerWith externalEnv) x
    let t := tcp.run (answerWith externalEnv) x
    u.1.isOk = true ∧ t.1.isOk = true ∧ u.2.1.tables = waterTables 1000 ∧
      t.2.1.tables = waterTables 85 := by
  decide +kernel

/-- So under one pattern of failures the two transports do not treat orders alike. -/
theorem transports_differ : ¬ ∀ (env : Env) (cliAddr : SockAddr) (fd : Int) (buffer : String)
    (s : Loop) (sh : Shared) (calls sends : List Bool), beginsWithBrace buffer = true →
      let udp := handleUdpClients env cliAddr buffer s
      let tcp := handleTcpClient env fd buffer s
      let x : Shared × Outcomes := (sh, ⟨calls, sends⟩)
      (udp.run (answerWith env) x).1.isOk = true → (tcp.run (answerWith env) x).1.isOk = true →
        (udp.run (answerWith env) x).2.1.tables = (tcp.run (answerWith env) x).2.1.tables ∧
          forwarded (udp.trace (answerWith env) x) = forwarded (tcp.trace (answerWith env) x) := by
  intro h
  obtain ⟨hudp, htcp, htables, htables'⟩ := success_reply_fails
  have hsame := (h _ ⟨⟨127, 0, 0, 1⟩, 5000⟩ 4 externalOrderText .start (.start (waterTables 110)) []
    [true, false] (by decide +kernel) hudp htcp).1
  have hne : waterTables 1000 ≠ waterTables 85 := by decide
  exact hne (htables.symm.trans (hsame.trans htables'))

end LogisticService
