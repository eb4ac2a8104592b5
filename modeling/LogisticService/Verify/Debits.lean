import LogisticService.Client.Communicate
import LogisticService.Order.Sample
import LogisticService.Server.Reachable
import Mathlib.Algebra.GroupWithZero.Nat

/-!
# How often an order is debited

The client sends an order again after every wait that ends without a reply,
and the server keeps no record of the ids it has handled: every copy that
arrives is an order of its own. What bounds the debits of an order is
therefore the number of its copies. The server debits at most once for each
message it takes in (`Debits.step`), the network delivers no more copies than
were sent, and the client sends at most `MAX_RETRIES + 1`, one more than its
timeouts (`debits_bounded`). Two delivered copies are debited twice
(`debited_twice`).
-/

namespace LogisticService

open Effects Program

/-! ## Weighing what the handlers do -/

section

variable {env : Env} {s s' : Sys env} (f : Activity env → Nat)

def Conn.weight (c : Conn env) : Nat :=
  match c.phase with
  | .serving _ a => f a
  | _ => 0

/-- The weight of what all handlers are doing. -/
def Sys.weight (s : Sys env) : Nat := f s.udp + (s.conns.map (Conn.weight f)).sum

variable {f}

/-- One element of a list is replaced. -/
theorem sum_map_modify {α : Type} (g : α → Nat) (φ : α → α) {l : List α} {i : Nat} {a : α}
    (h : l[i]? = some a) : ((l.modify i φ).map g).sum + g a = (l.map g).sum + g (φ a) := by
  induction l generalizing i with
  | nil => cases h
  | cons c l ih =>
    cases i with
    | zero =>
      cases h
      simp only [List.modify_zero_cons, List.map_cons, List.sum_cons]
      omega
    | succ i =>
      have hrest := ih h
      simp only [List.modify_succ_cons, List.map_cons, List.sum_cons]
      omega

theorem sum_map_set {α : Type} (g : α → Nat) {l : List α} {i : Nat} {a : α} (b : α)
    (h : l[i]? = some a) : ((l.set i b).map g).sum + g a = (l.map g).sum + g b := by
  have hset : l.set i b = l.modify i fun _ => b := by
    refine List.ext_getElem (by simp) fun j h₁ h₂ => ?_
    rw [List.getElem_set, List.getElem_modify]
  rw [hset]
  exact sum_map_modify g (fun _ => b) h

theorem Conn.weight_serving {c : Conn env} {clientPid : Int} {a : Activity env}
    (h : c.phase = .serving clientPid a) : c.weight f = f a := by
  unfold Conn.weight
  rw [h]

theorem Conn.weight_become {c : Conn env} {clientPid : Int} {a : Activity env}
    (h : c.phase = .serving clientPid a) (b : Activity env) : (c.become b).weight f = f b := by
  unfold Conn.become Conn.weight
  rw [h]

/-- The handler that goes on weighs what it does now instead of what it did. -/
theorem Sys.weight_setActivity {who : Who} {a : Activity env} (h : s.activity? who = some a)
    (b : Activity env) : (s.setActivity who b).weight f + f a = s.weight f + f b := by
  cases who with
  | udp =>
    cases h
    show f b + (s.conns.map (Conn.weight f)).sum + f s.udp =
      f s.udp + (s.conns.map (Conn.weight f)).sum + f b
    omega
  | tcp i =>
    obtain ⟨c, clientPid, hc, hphase⟩ := Sys.activity?_tcp h
    have hsum := sum_map_modify (Conn.weight f) (·.become b) hc
    rw [Conn.weight_become hphase, Conn.weight_serving hphase] at hsum
    show f s.udp + ((s.conns.modify i (·.become b)).map (Conn.weight f)).sum + f a =
      f s.udp + (s.conns.map (Conn.weight f)).sum + f b
    omega

/-- A step that replaces a connection. -/
theorem Sys.weight_set {i : Nat} {c c' : Conn env} (h : s.conns[i]? = some c)
    (hudp : s'.udp = s.udp) (hconns : s'.conns = s.conns.set i c') :
    s'.weight f + c.weight f = s.weight f + c'.weight f := by
  have hsum := sum_map_set (Conn.weight f) c' h
  unfold Sys.weight
  rw [hudp, hconns]
  omega

end

/-! ## Debits and arrivals of an order -/

/-- The id an order's text carries. -/
def orderId (env : Env) (buffer : String) : Option String :=
  match env.json.parse buffer with
  | .ok (some root) => (root.stringAt ["general_info", "id"]).toOption
  | _ => none

def carries (env : Env) (id buffer : String) : Bool := orderId env buffer = some id

/-- An operation that lowered a quantity: only the source of an order is. -/
def isDebit (e : Answered Server) : Bool :=
  match performed e with
  | some u => u.quantity < 0
  | none => false

/-- How often the source of the order was debited. -/
def Sys.debits {env : Env} (s : Sys env) (id : String) : Nat :=
  s.log.countP fun l => isDebit l.event && carries env id l.buffer

/-- A message with the order comes in. -/
def Event.arrives (env : Env) (id : String) : Event → Bool
  | .datagram _ payload => carries env id (receivedText payload)
  | .read _ payload => carries env id (receivedText payload)
  | _ => false

/-- No update was asked for. -/
def asksNoUpdate (h : List (Answered Server)) : Bool := h.all fun e => e.1.update?.isNone

/-- The handler has the order and has asked for no update yet. -/
def undebited {env : Env} (id : String) : Activity env → Nat
  | .idle _ => 0
  | .busy job => (carries env id job.buffer && asksNoUpdate job.task.history).toNat

section

variable {env : Env} {s s' : Sys env} {id : String}

theorem isDebit_some {e : Answered Server} (h : isDebit e = true) :
    ∃ u, performed e = some u ∧ e.1.update? = some u ∧ u.quantity < 0 := by
  unfold isDebit at h
  split at h
  · next u hu => exact ⟨u, hu, performed_update hu, of_decide_eq_true h⟩
  · cases h

theorem asksNoUpdate_of_quiet {h : List (Answered Server)} (hquiet : Quiet h) :
    asksNoUpdate h = true :=
  List.all_eq_true.2 fun e he => by rw [hquiet e he]; rfl

/-- An update that lowers a quantity is asked for when no update was before. -/
theorem quiet_of_debit {origin : Origin} {buffer : String} {h : List (Answered Server)}
    {o : Operation} {u : Update} (hasks : Asks env origin buffer h o) (hu : o.update? = some u)
    (hneg : u.quantity < 0) : Quiet h := by
  obtain ⟨t, d, ht, _, ⟨_, hquiet, _⟩ | ⟨hk, _⟩⟩ := hasks.transfer_inv hu (.inr hneg)
  · exact hquiet
  · have hpos := (ht.credit_table hk).2
    omega

/-- A job weighs at most one, and nothing without the order. -/
theorem undebited_le (id : String) (job : Job env) :
    undebited id (.busy job) ≤ (carries env id job.buffer).toNat := by
  show (carries env id job.buffer && asksNoUpdate job.task.history).toNat ≤ _
  cases carries env id job.buffer with
  | false => exact Nat.le_refl _
  | true => exact Bool.toNat_le _

/-- An answered operation: a debit uses up the weight of its job. -/
theorem undebited_answered (id : String) {job : Job env} {event : Answered Server}
    {task : Task (iteration env job.origin job.buffer job.loop)}
    (hasks : Asks env job.origin job.buffer job.task.history event.1)
    (hhistory : task.history = job.task.history ++ [event]) :
    undebited id (.busy (job.withTask task)) + (isDebit event && carries env id job.buffer).toNat ≤
      undebited id (.busy job) := by
  show (carries env id job.buffer && asksNoUpdate task.history).toNat + _ ≤
    (carries env id job.buffer && asksNoUpdate job.task.history).toNat
  have hsplit : asksNoUpdate task.history =
      (asksNoUpdate job.task.history && event.1.update?.isNone) := by
    rw [hhistory, asksNoUpdate, List.all_append]
    show (_ && (_ && true)) = _
    rw [Bool.and_true]
    rfl
  rw [hsplit]
  cases carries env id job.buffer with
  | false =>
    rw [Bool.and_false]
    exact Nat.le_refl _
  | true =>
    cases hdebit : isDebit event with
    | false => cases asksNoUpdate job.task.history <;> cases event.1.update?.isNone <;> decide
    | true =>
      obtain ⟨u, _, hu, hneg⟩ := isDebit_some hdebit
      rw [asksNoUpdate_of_quiet (quiet_of_debit hasks hu hneg), hu]
      exact Nat.le_refl _

/-- One more operation in the log. -/
theorem debits_snoc (id : String) {l : Logged} (h : s'.log = s.log ++ [l]) :
    s'.debits id = s.debits id + (isDebit l.event && carries env id l.buffer).toNat := by
  unfold Sys.debits
  rw [h, List.countP_append, List.countP_singleton]
  cases isDebit l.event && carries env id l.buffer with
  | false => rfl
  | true => rfl

/-- What a handler does next weighs no more than its job. -/
theorem weight_settle (id : String) {who : Who} {a : Activity env} (h : s.activity? who = some a)
    (job : Job env) : (s.settle who job).weight (undebited id) + undebited id a ≤
      s.weight (undebited id) + undebited id (.busy job) := by
  have hbusy := Sys.weight_setActivity (f := undebited id) h (.busy job)
  rcases Sys.settle_cases s who job with ⟨_, _, _, heq⟩ | ⟨result, _, heq⟩ | ⟨_, _, heq⟩
  · rw [heq]
    exact Nat.le_of_eq hbusy
  · have hidle := Sys.weight_setActivity (f := undebited id) h (.idle result)
    have hzero : undebited id (.idle result : Activity env) = 0 := rfl
    rw [heq]
    show (s.setActivity who (.idle result)).weight (undebited id) + _ ≤ _
    omega
  · rw [heq]
    exact Nat.le_of_eq hbusy

/-- **One step of the server**: the debits of an order, with what its handlers
may still debit, grow by what comes in. -/
theorem Sys.Every.step_debits (id : String) (h : s.Every (Conducted env)) {e : Event}
    (hstep : s.step e = some s') :
    s'.debits id + s'.weight (undebited id) ≤
      s.debits id + s.weight (undebited id) + (e.arrives env id).toNat := by
  -- A connection is replaced, by one that weighs no more than what came in.
  have hreplace : ∀ {s' : Sys env} {i : Nat} {c c' : Conn env} {n : Nat}, s.conns[i]? = some c →
      s'.udp = s.udp → s'.conns = s.conns.set i c' → s'.log = s.log →
      c'.weight (undebited id) ≤ n →
      s'.debits id + s'.weight (undebited id) ≤ s.debits id + s.weight (undebited id) + n := by
    intro s' i c c' n hc hudp hconns hlog hle
    have hset := weight_set (f := undebited id) hc hudp hconns
    have hdebits : s'.debits id = s.debits id := by rw [debits, hlog]; rfl
    omega
  cases e with
  | connectFails who =>
    obtain ⟨_, rfl⟩ := connectFails_some hstep
    exact Nat.le_refl _
  | datagram cliAddr payload =>
    obtain ⟨loop, hudp, rfl⟩ := datagram_some hstep
    have hjob := undebited_le id (Job.begin env (.udp cliAddr) (receivedText payload) loop)
    show s.debits id + (undebited id (.busy _) + (s.conns.map (Conn.weight (undebited id))).sum) ≤
      s.debits id + (undebited id s.udp + (s.conns.map (Conn.weight (undebited id))).sum) +
        (carries env id (receivedText payload)).toNat
    replace hjob : undebited id (.busy (.begin env (.udp cliAddr) (receivedText payload) loop)) ≤
      (carries env id (receivedText payload)).toNat := hjob
    omega
  | accept fd cliAddr =>
    obtain ⟨_, rfl⟩ := accept_some hstep
    refine Nat.le_of_eq (congrArg (fun n => s.debits id + (undebited id s.udp + n)) ?_)
    rw [List.map_append, List.sum_append]
    rfl
  | read i payload =>
    obtain ⟨c, hc, ⟨hphase, rfl⟩ | ⟨clientPid, loop, hphase, rfl⟩⟩ := read_some hstep
    · rw [readPid_eq]
      exact hreplace hc rfl rfl rfl (Nat.zero_le _)
    · refine hreplace hc rfl rfl rfl ?_
      rw [Conn.handle, Conn.weight_become hphase]
      exact undebited_le id _
  | hangup i =>
    obtain ⟨c, hc, ⟨_, rfl⟩ | ⟨_, _, _, rfl⟩⟩ := hangup_some hstep
    · exact hreplace hc rfl rfl rfl (Nat.zero_le _)
    · exact hreplace hc rfl rfl rfl (Nat.zero_le _)
  | proceed who ok =>
    obtain ⟨job, event, task, shared, hact, htask, rfl⟩ := proceed_some hstep
    obtain ⟨k, hrest, _, hhistory, _, rfl⟩ := Task.step_some htask
    obtain ⟨_, _, halert, _⟩ := h.active hact
    have hasks := (iteration_conducts halert).issued (Task.leads_call hrest) fun _ _ => trivial
    have hjob := undebited_answered id hasks hhistory
    obtain ⟨s₁, hs₁⟩ : ∃ s₁ : Sys env, s₁ = { s with
        shared := (answer env ok s.shared event.1).2
        log := s.log ++ [⟨who, job.origin, job.buffer, event⟩] } := ⟨_, rfl⟩
    have hact₁ : s₁.activity? who = some (.busy job) := by
      rw [hs₁]
      cases who <;> exact hact
    have hweight₁ : s₁.weight (undebited id) = s.weight (undebited id) := by rw [hs₁]; rfl
    have hlog : (s₁.settle who (job.withTask task)).log =
        s.log ++ [⟨who, job.origin, job.buffer, event⟩] := by rw [settle_log, hs₁]
    have hdebits := debits_snoc id hlog
    have hweight := weight_settle id hact₁ (job.withTask task)
    have harrives : ((Event.proceed who ok).arrives env id).toNat = 0 := rfl
    rw [← hs₁, harrives]
    show (s₁.settle who (job.withTask task)).debits id +
      (s₁.settle who (job.withTask task)).weight (undebited id) ≤ _
    replace hdebits : (s₁.settle who (job.withTask task)).debits id =
      s.debits id + (isDebit event && carries env id job.buffer).toNat := hdebits
    omega
  | cleanup timeout =>
    obtain rfl := cleanup_some hstep
    exact Nat.le_refl _
  | tick d =>
    obtain rfl := tick_some hstep
    exact Nat.le_refl _

end

/-! ## The client, the network and the server -/

/-- The exchange of one order, the copies of it that are on their way, and the
server. -/
structure Net (env : Env) (transport : Transport) (jsonString : String) where
  client : Task (clientCommunicate transport jsonString)
  flight : Nat
  server : Sys env

/-- What happens next: the client has an operation answered, in any way; a copy
is lost; a message with the order comes in, which takes some copies off the
network; anything else at the server, where no other message has this id. -/
inductive NetEvent
  | client (reply : (o : ClientOperation) → o.Reply)
  | lose
  | deliver (e : Event) (copies : Nat)
  | server (e : Event)

namespace Net

variable {env : Env} {transport : Transport} {jsonString : String}

/-- The order is about to be sent to a server that has just started. -/
def start (transport : Transport) (jsonString : String) (tables : Tables) :
    Net env transport jsonString :=
  ⟨.begin _, 0, .start tables⟩

def step (id : String) (n : Net env transport jsonString) :
    NetEvent → Option (Net env transport jsonString)
  | .client reply =>
    match n.client.step (fun s o => (reply o, s)) () with
    | some (e, client, _) => some { n with client, flight := n.flight + (isSent e).toNat }
    | none => none
  | .lose => if 0 < n.flight then some { n with flight := n.flight - 1 } else none
  | .deliver e copies =>
    if e.arrives env id && 0 < copies && copies ≤ n.flight then
      (n.server.step e).map fun server => { n with server, flight := n.flight - copies }
    else none
  | .server e =>
    if e.arrives env id then none else (n.server.step e).map fun server => { n with server }

/-- What the debits, the copies on their way and the sends of an order add up to. -/
structure Accounted (id : String) (n : Net env transport jsonString) : Prop where
  conducted : n.server.Every (Conducted env)
  debits : n.server.debits id + n.server.weight (undebited id) + n.flight ≤
    n.client.history.countP isSent

variable {id : String} {n n' : Net env transport jsonString}

/-- One step: a copy that is sent is on its way, and one that comes in may be
debited once. -/
theorem Accounted.step {e : NetEvent} (h : n.Accounted id) (hstep : n.step id e = some n') :
    n'.Accounted id := by
  cases e with
  | client reply =>
    simp only [Net.step] at hstep
    split at hstep
    · next e client u hclient =>
      cases hstep
      obtain ⟨_, _, _, hhistory, _, _⟩ := Task.step_some hclient
      have hdebits := h.debits
      refine ⟨h.conducted, ?_⟩
      show n.server.debits id + n.server.weight (undebited id) + (n.flight + (isSent e).toNat) ≤
        client.history.countP isSent
      rw [hhistory, List.countP_append, List.countP_singleton]
      cases isSent e with
      | false =>
        simp only [Bool.toNat_false, Bool.false_eq_true, if_false]
        omega
      | true =>
        simp only [Bool.toNat_true, if_true]
        omega
    · cases hstep
  | lose =>
    simp only [Net.step] at hstep
    split at hstep
    · cases hstep
      have hdebits := h.debits
      refine ⟨h.conducted, ?_⟩
      show n.server.debits id + n.server.weight (undebited id) + (n.flight - 1) ≤
        n.client.history.countP isSent
      omega
    · cases hstep
  | deliver e copies =>
    simp only [Net.step] at hstep
    split at hstep
    · next hguard =>
      simp only [Bool.and_eq_true, decide_eq_true_eq] at hguard
      obtain ⟨⟨harrives, hcopies⟩, hflight⟩ := hguard
      obtain ⟨server, hserver, rfl⟩ := Option.map_eq_some_iff.1 hstep
      have hone := h.conducted.step_debits id hserver
      have hdebits := h.debits
      rw [harrives] at hone
      refine ⟨h.conducted.step_conducted hserver, ?_⟩
      show server.debits id + server.weight (undebited id) + (n.flight - copies) ≤
        n.client.history.countP isSent
      simp only [Bool.toNat_true] at hone
      omega
    · cases hstep
  | server e =>
    simp only [Net.step] at hstep
    split at hstep
    · cases hstep
    · next hother =>
      obtain ⟨server, hserver, rfl⟩ := Option.map_eq_some_iff.1 hstep
      have hone := h.conducted.step_debits id hserver
      have hdebits := h.debits
      rw [Bool.eq_false_iff.2 hother] at hone
      refine ⟨h.conducted.step_conducted hserver, ?_⟩
      show server.debits id + server.weight (undebited id) + n.flight ≤
        n.client.history.countP isSent
      simp only [Bool.toNat_false] at hone
      omega

theorem Accounted.start (tables : Tables) :
    (start transport jsonString tables : Net env transport jsonString).Accounted id where
  conducted := Sys.start_every conducted_stable tables
  debits := Nat.le_refl _

end Net

/-- **An order is debited at most once for every copy the client sent**, however
the network loses and delays copies and replies and whatever else the server
does meanwhile: at most `MAX_RETRIES + 1` times, and at most once more than the
client's waits ran out. -/
theorem debits_bounded {env : Env} {transport : Transport} {jsonString id : String}
    {tables : Tables} {es : List NetEvent} {n : Net env transport jsonString}
    (hrun : runSteps (Net.step id) (.start transport jsonString tables) es = some n) :
    n.server.debits id ≤ n.client.history.countP isSent ∧
      n.client.history.countP isSent ≤ MAX_RETRIES + 1 ∧
      n.client.history.countP isSent ≤ n.client.history.countP isTimeout + 1 := by
  have hdebits := (runSteps_invariant (fun _ _ _ h hstep => Net.Accounted.step h hstep)
    (Net.Accounted.start tables) hrun).debits
  have hkept : Kept (SendsAgain (wireBytes transport jsonString)) n.client.history := by
    simpa using (clientCommunicate_meets transport jsonString).kept n.client.leads
      (fun _ _ => trivial) Kept.nil
  obtain ⟨hmax, htimeouts⟩ := sends_bounded hkept
  have hsent : n.client.history.countP isSent ≤ n.client.history.countP isSend :=
    List.countP_mono_left fun e _ he => isSend_of_isSent he
  omega

/-! ## An order that is debited twice -/

/-- An order for an external client, with its id. -/
def freshOrder : Value :=
  .object [("general_info", .object
    [("action", .object
        [("product", .object
          [("id", .string "2"), ("name", .string "Water"), ("quantity", .int 25)]),
        ("type", .string "req")]),
      ("destination", .object [("type", .string "external")]),
      ("id", .string "5f3c"),
      ("source", .object [("location", .int 1), ("type", .string "warehouse")])])]

def freshOrderText : String :=
  "\x7b\"general_info\":\x7b\"id\":\"5f3c\"," ++
    "\"source\":\x7b\"type\":\"warehouse\",\"location\":1\x7d," ++
    "\"destination\":\x7b\"type\":\"external\"\x7d," ++
    "\"action\":\x7b\"type\":\"req\",\"product\":\x7b\"id\":\"2\"," ++
    "\"name\":\"Water\",\"quantity\":25\x7d\x7d\x7d\x7d"

/-- Sockets whose sends succeed and whose waits run out. -/
def timesOut : (o : ClientOperation) → o.Reply
  | .sendto _ | .send _ => true
  | .recvfrom | .setsockopt => true
  | .select => .timeout
  | .recv => .timeout

/-- The client sends its order over TCP, waits in vain and sends it again; the
first copy was only slow. -/
def slowExchange : List NetEvent :=
  [.server (.accept 5 ⟨⟨127, 0, 0, 1⟩, 5000⟩), .server (.read 0 "7"),
    .client timesOut, .client timesOut, .client timesOut, .client timesOut,
    .deliver (.read 0 freshOrderText) 1] ++
    List.replicate 9 (.server (.proceed (.tcp 0) true)) ++
    [.deliver (.read 0 freshOrderText) 1] ++
    List.replicate 9 (.server (.proceed (.tcp 0) true))

/-- The run, its debits, its sends and its timeouts. -/
theorem slowExchange_run : ∃ n : Net (.reading [(freshOrderText, freshOrder)]) .tcp freshOrderText,
    runSteps (Net.step "5f3c") (.start .tcp freshOrderText (waterTables 500)) slowExchange =
        some n ∧
      (n.server.debits "5f3c", n.client.history.countP isSent) = (2, 2) :=
  Option.map_eq_some_iff.1 (by decide +kernel)

/-- **Both copies are debited**: the server has no record of the ids it handled. -/
theorem debited_twice : ∃ n : Net (.reading [(freshOrderText, freshOrder)]) .tcp freshOrderText,
    runSteps (Net.step "5f3c") (.start .tcp freshOrderText (waterTables 500)) slowExchange =
        some n ∧
      ¬ n.server.debits "5f3c" ≤ 1 := by
  obtain ⟨n, hrun, hn⟩ := slowExchange_run
  refine ⟨n, hrun, ?_⟩
  rw [(Prod.mk.inj hn).1]
  decide

theorem debits_bounded_slowExchange :
    ∃ n : Net (.reading [(freshOrderText, freshOrder)]) .tcp freshOrderText,
      n.server.debits "5f3c" = 2 ∧ n.server.debits "5f3c" ≤ n.client.history.countP isSent ∧
        n.client.history.countP isSent ≤ MAX_RETRIES + 1 ∧
        n.client.history.countP isSent ≤ n.client.history.countP isTimeout + 1 := by
  obtain ⟨n, hrun, hn⟩ := slowExchange_run
  exact ⟨n, (Prod.mk.inj hn).1, debits_bounded hrun⟩

end LogisticService
