import LogisticService.Order.Sample
import LogisticService.Server.Reachable

/-!
# Commands

`LIST_CLIENTS` and `SHOW_REPORT` ask for a report. Two things decide what
becomes of one, and neither is in the message: the verdict flags, which the
last order of the handler left (`commands_reported_iff`), and the client id of
the loop, which the last registration attempt of any UDP client left. The
report goes to the client found under that id (`reports_to_asker`).
-/

namespace LogisticService

open Effects Program

/-- The message asks for a report. -/
def IsCommand (buffer : String) : Prop := buffer = "LIST_CLIENTS" ∨ buffer = "SHOW_REPORT"

instance (buffer : String) : Decidable (IsCommand buffer) := inferInstanceAs (Decidable (_ ∨ _))

/-- The report a command asks for, made and sent. -/
def report (buffer protocol : String) (clientId : Int) : Handling Unit :=
  if buffer = "LIST_CLIENTS" then handleListClientsRequest protocol clientId
  else handleShowReportRequest protocol clientId

/-- The first step that reads what a report is about. -/
def reportOperation (buffer : String) : Operation :=
  if buffer = "LIST_CLIENTS" then .clientMapUdp else .productQuantities

/-- The protocol in which a handler looks up its client. -/
def Origin.protocol : Origin → String
  | .udp _ => "udp"
  | .tcp _ => "tcp"

/-- Neither check failed on the last order. -/
def Loop.Passed (s : Loop) : Prop := s.isValid = true ∧ s.productStock = true

section

variable {env : Env} {origin : Origin} {buffer : String} {s : Loop}

/-! ## An iteration on a command -/

/-- A command is neither an order nor a PID. -/
theorem IsCommand.plain (hc : IsCommand buffer) :
    beginsWithBrace buffer = false ∧ atoi buffer = 0 := by
  rcases hc with rfl | rfl <;> decide +kernel

/-- What is left of an iteration on a command after its acknowledgement. -/
def reportIf (go : Bool) (origin : Origin) (buffer : String) (s : Loop) : Handling Loop :=
  if go && s.isValid && s.productStock then
    report buffer origin.protocol s.clientId >>= fun _ => .pure s
  else .pure s

theorem processMessage_command (hc : IsCommand buffer) (json : JsonCpp) (protocol : String)
    (clientId : Int) :
    processMessage json buffer protocol clientId = report buffer (toLower protocol) clientId := by
  unfold processMessage report
  split
  · rfl
  · next hlist => exact if_pos (hc.resolve_left hlist)

theorem handleMessage_command (hc : IsCommand buffer) (reply : String → Handling Bool)
    {protocol : String} (hprotocol : toLower protocol = origin.protocol) :
    handleMessage env reply protocol buffer s = reportIf true origin buffer s := by
  unfold handleMessage orderBranch reportIf
  rw [if_neg (by simp [hc.plain.1]), ← hprotocol, ← processMessage_command hc env.json]
  rfl

/-- An iteration of the UDP handler on a command. -/
theorem handleUdpClients_command (hc : IsCommand buffer) (cliAddr : SockAddr) :
    handleUdpClients env cliAddr buffer s =
      .call (.udpRegistered (atoi buffer)) fun _ =>
        .call (.sendto cliAddr "UDP Server received your message.") fun _ =>
          reportIf true (.udp cliAddr) buffer s := by
  have hprotocol : toLower "UDP" = (Origin.udp cliAddr).protocol := show _ = "udp" by
    decide +kernel
  unfold handleUdpClients
  refine congrArg (ask (.udpRegistered (atoi buffer)) >>= ·) (funext fun registered => ?_)
  rw [if_neg (by simp [hc.plain.2]), handleMessage_command hc (udpReply cliAddr) hprotocol]
  rfl

/-- An iteration of a TCP handler on a command. -/
theorem handleTcpClient_command (hc : IsCommand buffer) (fd : Int) :
    handleTcpClient env fd buffer s =
      .call (.write fd "TCP Server received your message.") fun written =>
        reportIf written (.tcp fd) buffer s := by
  have hprotocol : toLower "TCP" = (Origin.tcp fd).protocol := show _ = "tcp" by
    decide +kernel
  unfold handleTcpClient
  refine congrArg (tcpReply fd _ >>= ·) (funext fun written => ?_)
  rw [handleMessage_command hc (tcpReply fd) hprotocol]
  cases written <;> rfl

/-- A handler goes on after the acknowledgement, unless it was a write that
failed. -/
def Origin.GoesOn (origin : Origin) (e : Answered Server) : Prop :=
  ∀ fd, origin = .tcp fd → sendFailed e = false

/-- Until a command is acknowledged, its handler has at most looked up a PID,
and is about to do that or to send the acknowledgement. -/
theorem command_unacknowledged (hc : IsCommand buffer) {h : List (Answered Server)}
    {q : Handling Loop} (hl : Leads (iteration env origin buffer s) h q)
    (hnone : ∀ e ∈ h, e.1.text? = none) :
    (∀ e ∈ h, ∃ pid, e.1 = .udpRegistered pid) ∧ ∃ (o : Operation) (k : o.Reply → Handling Loop),
      q = .call o k ∧ ((∃ pid, o = .udpRegistered pid) ∨
        (∃ text, o = origin.send text) ∧ ∀ r, ∃ go : Bool,
          (go = true ↔ origin.GoesOn ⟨o, r⟩) ∧ k r = reportIf go origin buffer s) := by
  cases origin with
  | udp cliAddr =>
    rw [iteration, handleUdpClients_command hc] at hl
    cases hl with
    | refl => exact ⟨by simp, _, _, rfl, .inl ⟨_, rfl⟩⟩
    | call registered hl =>
      cases hl with
      | refl =>
        exact ⟨fun e he => ⟨atoi buffer, by rw [List.mem_singleton.1 he]⟩, _, _, rfl,
          .inr ⟨⟨_, rfl⟩, fun sent => ⟨true, by simp [Origin.GoesOn], rfl⟩⟩⟩
      | call sent hl => exact absurd (hnone ⟨_, sent⟩ (by simp)) (by simp [Operation.text?])
  | tcp fd =>
    rw [iteration, handleTcpClient_command hc] at hl
    cases hl with
    | refl =>
      exact ⟨by simp, _, _, rfl, .inr ⟨⟨_, rfl⟩,
        fun written : Bool => ⟨written, by simp [Origin.GoesOn, sendFailed], rfl⟩⟩⟩
    | call written hl => exact absurd (hnone ⟨_, written⟩ (by simp)) (by simp [Operation.text?])

/-- A report reads first what it is about. -/
theorem report_reads {protocol : String} {clientId : Int} {t : List (Answered Server)}
    (hl : Leads (report buffer protocol clientId) t (.pure ())) :
    ∃ e ∈ t, e.1 = reportOperation buffer := by
  unfold report at hl
  unfold reportOperation
  split at hl
  · next hlist =>
    obtain ⟨r, t', rfl, _⟩ := Leads.call_pure_inv hl
    exact ⟨_, List.mem_cons_self, (if_pos hlist).symm⟩
  · next hlist =>
    obtain ⟨r, t', rfl, _⟩ := Leads.call_pure_inv hl
    exact ⟨_, List.mem_cons_self, (if_neg hlist).symm⟩

end

/-! ## Which commands are reported -/

section

variable {env : Env}

/-- The handling of the message made the report and sent it to whom it found. -/
def Finished.Reported (f : Finished env) : Prop :=
  ∃ h t, f.job.task.history = h ++ t ∧
    Leads (report f.job.buffer f.job.origin.protocol f.job.loop.clientId) t (.pure ())

/-- Every command handled so far was reported. -/
def CommandsReported (s : Sys env) : Prop :=
  ∀ f ∈ s.finished, IsCommand f.job.buffer → f.Reported

/-- The next operation of the message is its first send. -/
def Job.Acknowledging (job : Job env) : Prop :=
  (∃ text, job.task.next? = some (job.origin.send text)) ∧
    ∀ e ∈ job.task.history, e.1.text? = none

/-- When the event is the acknowledgement of a command, the handler's last
order passed both checks, and over TCP the write succeeds. -/
def CommandsHeard (s : Sys env) (e : Event) : Prop :=
  ∀ who ok (job : Job env), e = .proceed who ok → s.activity? who = some (.busy job) →
    IsCommand job.buffer → job.Acknowledging →
      job.loop.Passed ∧ ∀ fd, job.origin = .tcp fd → ok = true

/-- The report is under way, or done. -/
def Job.Reporting (job : Job env) : Prop :=
  ∃ h t, job.task.history = h ++ t ∧
    Leads (report job.buffer job.origin.protocol job.loop.clientId >>= fun _ => .pure job.loop)
      t job.task.rest

/-- A command is not acknowledged yet, or its report is under way. -/
def OnTrack (_ : Option Int) : Activity env → Prop
  | .idle _ => True
  | .busy job => IsCommand job.buffer →
    (∀ e ∈ job.task.history, e.1.text? = none) ∨ job.Reporting

theorem reportIf_passed {origin : Origin} {buffer : String} {s : Loop} (hs : s.Passed) :
    reportIf true origin buffer s =
      (report buffer origin.protocol s.clientId >>= fun _ => .pure s) := by
  unfold reportIf
  rw [hs.1, hs.2]
  rfl

theorem reportIf_not {go : Bool} {origin : Origin} {buffer : String} {s : Loop}
    (h : ¬ (go = true ∧ s.Passed)) : reportIf go origin buffer s = .pure s := by
  unfold reportIf
  refine if_neg fun hall => h ?_
  simp only [Bool.and_eq_true] at hall
  exact ⟨hall.1.1, hall.1.2, hall.2⟩

/-- The environment decides whether a send fails. -/
theorem sendFailed_answer {ok : Bool} {s : Shared} {e : Answered Server} {origin : Origin}
    {text : String} (ho : e.1 = origin.send text) (hr : e.2 = (answer env ok s e.1).1) :
    sendFailed e = !ok := by
  obtain ⟨o, r⟩ := e
  simp only at ho hr
  subst hr ho
  cases origin <;> rfl

theorem goesOn_iff {ok : Bool} {s : Shared} {e : Answered Server} {origin : Origin}
    {text : String} (ho : e.1 = origin.send text) (hr : e.2 = (answer env ok s e.1).1) :
    origin.GoesOn e ↔ ∀ fd, origin = .tcp fd → ok = true := by
  unfold Origin.GoesOn
  rw [sendFailed_answer ho hr, Bool.not_eq_false']

theorem onTrack_stable : @Stable env OnTrack where
  start := trivial
  register _ _ := trivial
  receive _ _ _ _ _ _ := fun _ => .inl fun _ he => absurd he List.not_mem_nil
  finish _ _ _ _ _ := trivial

/-- A step keeps commands on track when it acknowledges none that is not heard. -/
theorem step_onTrack {s s' : Sys env} {e : Event} (hI : s.Every OnTrack)
    (h : s.step e = some s') (hC : CommandsHeard s e) : s'.Every OnTrack := by
  refine hI.step onTrack_stable h ?_
  intro who ok k job event task shared he _ hact hjob htask hcommand
  obtain ⟨k', hrest, hreply, hhistory, hrest', _⟩ := Task.step_some htask
  rcases hjob hcommand with hnone | ⟨h₁, t, hh, hl⟩
  · obtain ⟨_, o, k'', hcall, hcase⟩ := command_unacknowledged hcommand job.task.leads hnone
    rw [hrest] at hcall
    cases hcall
    rcases hcase with ⟨pid, hpid⟩ | ⟨⟨text, htext⟩, hgo⟩
    · refine .inl fun e' he' => ?_
      have he' : e' ∈ job.task.history ++ [event] := hhistory ▸ he'
      rcases List.mem_append.1 he' with hold | hnew
      · exact hnone e' hold
      · rw [List.mem_singleton.1 hnew, hpid]; rfl
    · obtain ⟨go, hiff, hnext⟩ := hgo event.2
      obtain ⟨hpassed, hok⟩ := hC who ok job he hact hcommand
        ⟨⟨text, htext ▸ Task.next?_of_call hrest⟩, hnone⟩
      obtain rfl : go = true := hiff.2 ((goesOn_iff htext hreply).2 hok)
      refine .inr ⟨job.task.history ++ [event], [], by simp [Job.withTask, hhistory], ?_⟩
      show Leads _ [] task.rest
      rw [hrest', hnext, reportIf_passed hpassed]
      exact .refl _
  · refine .inr ⟨h₁, t ++ [event], by simp [Job.withTask, hhistory, hh], ?_⟩
    show Leads _ _ task.rest
    rw [hrest']
    rw [hrest] at hl
    exact hl.snoc event.2

/-- A command that was on track to its end was reported. -/
theorem reported_of_onTrack {f : Finished env} {k : Option Int} (h : OnTrack k (.busy f.job))
    (hc : IsCommand f.job.buffer) : f.Reported := by
  rcases h hc with hnone | ⟨h₁, t, hh, hl⟩
  · obtain ⟨_, o, k', hcall, _⟩ := command_unacknowledged hc f.job.task.leads hnone
    rw [f.done] at hcall
    cases hcall
  · rw [f.done] at hl
    obtain ⟨t₁, t₂, _, rfl, hreport, hpure⟩ := Leads.bind_inv hl
    obtain ⟨rfl, _⟩ := Leads.pure_inv hpure
    exact ⟨h₁, t₁, by simpa using hh, hreport⟩

/-- What was read for the report of a command. -/
theorem Finished.Reported.read {f : Finished env} (h : f.Reported) :
    ∃ e ∈ f.job.task.history, e.1 = reportOperation f.job.buffer := by
  obtain ⟨h₁, t, hh, hl⟩ := h
  obtain ⟨e, he, ho⟩ := report_reads hl
  exact ⟨e, hh ▸ List.mem_append_right _ he, ho⟩

theorem reportOperation_cases (buffer : String) :
    reportOperation buffer = .clientMapUdp ∨ reportOperation buffer = .productQuantities := by
  unfold reportOperation
  split
  · exact .inl rfl
  · exact .inr rfl

/-- A command that is acknowledged and not heard ends without a report. -/
theorem heard_of_reported {s s' : Sys env} {e : Event} (h : s.step e = some s')
    (hP : CommandsReported s') : CommandsHeard s e := by
  rintro who ok job rfl hact hcommand ⟨⟨text, hnext⟩, hnone⟩
  obtain ⟨job', event, task, shared, hact', htask, rfl⟩ := Sys.proceed_some h
  cases hact.symm.trans hact'
  obtain ⟨k', hrest, hreply, hhistory, hrest', _⟩ := Task.step_some htask
  have htext : event.1 = job.origin.send text :=
    Option.some.inj ((Task.next?_of_call hrest).symm.trans hnext)
  obtain ⟨hlookups, o, k'', hcall, hcase⟩ :=
    command_unacknowledged hcommand job.task.leads hnone
  rw [hrest] at hcall
  cases hcall
  obtain ⟨_, hgo⟩ := hcase.resolve_left fun ⟨pid, hpid⟩ => by
    have htext' := congrArg Operation.text? (htext.symm.trans hpid)
    rw [Origin.send_text] at htext'
    cases htext'
  obtain ⟨go, hiff, hend⟩ := hgo event.2
  rw [goesOn_iff htext hreply] at hiff
  by_contra hnot
  have hdone : task.rest = .pure job.loop := by
    rw [hrest', hend]
    exact reportIf_not fun ⟨hgo, hpassed⟩ => hnot ⟨hpassed, hiff.1 hgo⟩
  obtain ⟨_, _, hcall', _⟩ | ⟨result, hfinished, heq⟩ | ⟨_, hthrow, _⟩ := Sys.settle_cases
    { s with shared, log := s.log ++ [⟨who, job.origin, job.buffer, event⟩] } who
    { job with task }
  · cases hdone.symm.trans hcall'
  · rw [heq] at hP
    obtain ⟨e, he, hread⟩ := (hP _ (List.mem_append_right _ (List.mem_singleton_self _))
      hcommand).read
    have he : e ∈ job.task.history ++ [event] := hhistory ▸ he
    rcases List.mem_append.1 he with hold | hnew
    · obtain ⟨pid, hpid⟩ := hlookups e hold
      rcases reportOperation_cases job.buffer with h | h <;> cases hpid.symm.trans (hread.trans h)
    · rw [List.mem_singleton.1 hnew, htext] at hread
      have hread' := congrArg Operation.text? hread
      rw [Origin.send_text] at hread'
      rcases reportOperation_cases job.buffer with h | h <;> rw [h] at hread' <;> cases hread'
  · cases hdone.symm.trans hthrow

/-- **Every command is reported exactly when each was heard**: when it was
acknowledged, the last order of its handler had passed both checks, and over
TCP the acknowledgement was written. -/
theorem commands_reported_iff (tables : Tables) (es : List Event) :
    Throughout Sys.step CommandsReported (Sys.start tables : Sys env) es ↔
      Along Sys.step CommandsHeard (Sys.start tables : Sys env) es :=
  throughout_iff_along (I := fun s => s.Every OnTrack) (fun _ _ _ hI h hC => step_onTrack hI h hC)
    (fun s hI f hf hc => by
      rcases hI.finished f hf with ⟨_, h⟩ | ⟨_, _, _, h⟩ <;> exact reported_of_onTrack h hc)
    (fun _ _ _ _ h hP => heard_of_reported h hP) (Sys.start_every onTrack_stable tables)

end

/-! ### A rejected order silences another client -/

/-- A server that can read one order without any field. -/
def emptyOrderEnv : Env := .reading [("{}", .object [])]

def firstAddr : SockAddr := ⟨⟨127, 0, 0, 1⟩, 5000⟩

def secondAddr : SockAddr := ⟨⟨127, 0, 0, 1⟩, 5001⟩

/-- The UDP handler takes a datagram and has so many operations answered. -/
def exchange (cliAddr : SockAddr) (payload : String) (n : Nat) : List Event :=
  .datagram cliAddr payload :: List.replicate n (.proceed .udp true)

/-- Two clients register, the first sends the order, the second a command. -/
def silencingEvents : List Event :=
  exchange firstAddr "7" 2 ++ exchange secondAddr "8" 2 ++ exchange firstAddr "{}" 5 ++
    exchange secondAddr "LIST_CLIENTS" 2

/-- The operation reads for the report of the command. -/
def readsFor (buffer : String) (o : Operation) : Bool := decide (o = reportOperation buffer)

theorem readsFor_iff {buffer : String} {o : Operation} :
    readsFor buffer o = true ↔ o = reportOperation buffer := decide_eq_true_iff

def Finished.reads {env : Env} (f : Finished env) : Bool :=
  f.job.task.history.any fun e => readsFor f.job.buffer e.1

/-- The handling of the command is over, and nothing was read for its report. -/
theorem silencingEvents_run :
    ((Sys.start (waterTables 500) : Sys emptyOrderEnv).run silencingEvents).map
      (fun s => s.finished.map fun f => (f.job.buffer, f.reads)) =
    some [("7", false), ("8", false), ("{}", false), ("LIST_CLIENTS", false)] := by
  decide +kernel

theorem rejected_order_silences :
    ¬ Throughout Sys.step CommandsReported (Sys.start (waterTables 500) : Sys emptyOrderEnv)
      silencingEvents := by
  intro h
  obtain ⟨s, hrun, hs⟩ := Option.map_eq_some_iff.1 silencingEvents_run
  have hin : ("LIST_CLIENTS", false) ∈ s.finished.map fun f => (f.job.buffer, f.reads) := by
    rw [hs]; simp
  obtain ⟨f, hf, heq⟩ := List.mem_map.1 hin
  obtain ⟨hbuffer, hreads⟩ := Prod.mk.inj heq
  obtain ⟨e, he, hread⟩ := (h.last hrun f hf (.inl hbuffer)).read
  have : f.reads = true := List.any_eq_true.2 ⟨e, he, readsFor_iff.2 hread⟩
  exact absurd (hreads.symm.trans this) (by simp)

/-! ## Whom a report reaches -/

section

variable {env : Env}

/-- Every send for a command of a UDP client goes to that client. -/
def ReportsToAsker (s : Sys env) : Prop :=
  ∀ l ∈ s.log, l.who = .udp → IsCommand l.buffer → ∀ text, l.event.1.text? = some text →
    l.event.1 = l.origin.send text

/-- When the event looks up the recipient of a report to a UDP client, it
finds no other address than that of the client that asked. -/
def recipientAsked (s : Sys env) (e : Event) : Bool :=
  match e, s.udp with
  | .proceed .udp _, .busy job =>
    !decide (IsCommand job.buffer) || match job.task.next? with
      | some (.findClientById clientId protocol) =>
        (s.shared.clients.findClientById clientId protocol).all fun info =>
          decide (job.origin = .udp info.addr)
      | _ => true
  | _, _ => true

/-- A text is sent to the sender of the message, or to a client looked up for it. -/
def Directed (cliAddr : SockAddr) (h : List (Answered Server)) (o : Operation) : Prop :=
  ∀ text, o.text? = some text → o = .sendto cliAddr text ∨
    ∃ clientId protocol info,
      (⟨.findClientById clientId protocol, some info⟩ : Answered Server) ∈ h ∧
        o = .sendto info.addr text

theorem forwardMessageToClient_directed {cliAddr : SockAddr} {message : String} {clientId : Int}
    {h : List (Answered Server)} :
    (forwardMessageToClient message clientId "udp").Meets (fun _ _ => True) (Directed cliAddr)
      (fun _ _ => True) h := by
  refine ⟨fun _ htext => (by cases htext), fun target _ => ?_⟩
  cases target with
  | none => trivial
  | some info =>
    refine ⟨fun text htext => ?_, fun _ _ => trivial⟩
    cases htext
    exact .inr ⟨clientId, "udp", info, by simp, rfl⟩

theorem report_directed {cliAddr : SockAddr} {buffer : String} {clientId : Int}
    {h : List (Answered Server)} :
    (report buffer "udp" clientId).Meets (fun _ _ => True) (Directed cliAddr)
      (fun _ _ => True) h := by
  unfold report
  split
  · exact ⟨fun _ htext => (by cases htext), fun _ _ => ⟨fun _ htext => (by cases htext),
      fun _ _ => forwardMessageToClient_directed⟩⟩
  · exact ⟨fun _ htext => (by cases htext), fun _ _ => forwardMessageToClient_directed⟩

theorem command_directed {origin : Origin} {cliAddr : SockAddr} {buffer : String} {s : Loop}
    (hudp : origin = .udp cliAddr) (hc : IsCommand buffer) :
    (iteration env origin buffer s).Meets (fun _ _ => True) (Directed cliAddr)
      (fun _ _ => True) [] := by
  subst hudp
  rw [iteration, handleUdpClients_command hc]
  refine ⟨fun _ htext => (by cases htext), fun _ _ => ⟨fun text htext => ?_, fun _ _ => ?_⟩⟩
  · cases htext
    exact .inl rfl
  · unfold reportIf
    split
    · exact Meets.bind report_directed fun _ _ _ => trivial
    · trivial

/-- The lookups of a command of a UDP client found the client that asked. -/
def LookedUpAsker : Option Int → Activity env → Prop
  | none, .busy job => IsCommand job.buffer → ∀ clientId protocol info,
      (⟨.findClientById clientId protocol, some info⟩ : Answered Server) ∈ job.task.history →
        job.origin = .udp info.addr
  | _, _ => True

theorem lookedUpAsker_stable : @Stable env LookedUpAsker where
  start := trivial
  register _ _ := trivial
  receive k _ _ _ _ _ := by
    cases k with
    | none => exact fun _ _ _ _ hin => absurd hin List.not_mem_nil
    | some fd => trivial
  finish k _ _ _ _ := by cases k <;> trivial

theorem step_lookedUpAsker {s s' : Sys env} {e : Event} (hI : s.Every LookedUpAsker)
    (h : s.step e = some s') (hC : recipientAsked s e = true) : s'.Every LookedUpAsker := by
  refine hI.step lookedUpAsker_stable h ?_
  rintro who ok k job event task shared rfl hk hact hjob htask
  obtain ⟨k', hrest, hreply, hhistory, _, _⟩ := Task.step_some htask
  cases k with
  | some fd => trivial
  | none =>
    intro (hcommand : IsCommand job.buffer) clientId protocol info hin
    have hin : _ ∈ job.task.history ++ [event] := hhistory ▸ hin
    rcases List.mem_append.1 hin with hold | hnew
    · exact hjob hcommand clientId protocol info hold
    · obtain rfl := List.mem_singleton.1 hnew
      obtain rfl : who = .udp := by
        cases who with
        | udp => rfl
        | tcp i => obtain ⟨_, _, hfd⟩ := hk; cases hfd
      have hudp : s.udp = .busy job := Option.some.inj hact
      have hfound : some info = s.shared.clients.findClientById clientId protocol := hreply
      show job.origin = _
      simpa [recipientAsked, hudp, hcommand, Task.next?_of_call hrest, ← hfound] using hC

/-- A step keeps reports with their askers. -/
theorem step_reportsToAsker {s s' : Sys env} {e : Event} (hP : ReportsToAsker s)
    (hI : s.Every LookedUpAsker) (hserves : s.Every (Conducted env))
    (h : s.step e = some s') : ReportsToAsker s' := by
  intro l hl hwho hcommand text htext
  obtain ⟨-, hlog⟩ | ⟨who, ok, _, _, _, rfl, _⟩ := Sys.step_tables h
  · exact hP l (hlog ▸ hl) hwho hcommand text htext
  obtain ⟨job, event, task, shared, hact, htask, rfl⟩ := Sys.proceed_some h
  rw [Sys.settle_log] at hl
  rcases List.mem_append.1 hl with hold | hnew
  · exact hP l hold hwho hcommand text htext
  · obtain rfl := List.mem_singleton.1 hnew
    simp only at hwho hcommand htext ⊢
    subst hwho
    have hudp : s.udp = .busy job := Option.some.inj hact
    obtain ⟨_, cliAddr, horigin⟩ := hudp ▸ hserves.udp
    obtain ⟨k', hrest, _⟩ := Task.step_some htask
    have hlookups := (hudp ▸ hI.udp : LookedUpAsker none (.busy job)) hcommand
    have hdirected : Directed cliAddr job.task.history event.1 :=
      (command_directed horigin hcommand).issued (Task.leads_call hrest) fun _ _ => trivial
    rcases hdirected text htext with hsend | ⟨clientId, protocol, info, hin, hsend⟩
    · rw [hsend, horigin]; rfl
    · rw [hsend, hlookups clientId protocol info hin]; rfl

/-- **Reports go to the client that asked in every run in which each lookup of
a recipient finds it.** -/
theorem reports_to_asker {tables : Tables} {es : List Event}
    (hC : Along Sys.step (fun s e => recipientAsked s e = true)
      (Sys.start tables : Sys env) es) :
    Throughout Sys.step ReportsToAsker (Sys.start tables : Sys env) es :=
  throughout_of_along
    (I := fun s => s.Every (Conducted env) ∧ s.Every LookedUpAsker ∧ ReportsToAsker s)
    (fun _ _ _ ⟨hserves, hI, hP⟩ h hC => ⟨hserves.step_conducted h, step_lookedUpAsker hI h hC,
      step_reportsToAsker hP hI hserves h⟩)
    (fun _ hI => hI.2.2)
    ⟨Sys.start_every conducted_stable tables, Sys.start_every lookedUpAsker_stable tables,
      fun _ hl => absurd hl List.not_mem_nil⟩ hC

end

/-! ### A report that reaches another client -/

/-- Two clients register, and the first asks. -/
def misdirectedEvents : List Event :=
  exchange firstAddr "7" 2 ++ exchange secondAddr "8" 2 ++ exchange firstAddr "LIST_CLIENTS" 6

/-- The operation sends a text to another address than that of the origin. -/
def sendsElsewhere (origin : Origin) (o : Operation) : Bool :=
  match o.text? with
  | some text => decide (o ≠ origin.send text)
  | none => false

theorem sendsElsewhere_iff {origin : Origin} {o : Operation} : sendsElsewhere origin o = true ↔
    ∃ text, o.text? = some text ∧ o ≠ origin.send text := by
  unfold sendsElsewhere
  split
  · next text htext => simp [htext]
  · next htext => simp [htext]

def Logged.misdirected (l : Logged) : Bool :=
  decide (l.who = .udp) && decide (IsCommand l.buffer) && sendsElsewhere l.origin l.event.1

theorem misdirectedEvents_run :
    ((Sys.start (waterTables 500) : Sys emptyOrderEnv).run misdirectedEvents).map
      (fun s => s.log.any Logged.misdirected) = some true := by
  decide +kernel

theorem report_misdirected :
    ¬ Throughout Sys.step ReportsToAsker (Sys.start (waterTables 500) : Sys emptyOrderEnv)
      misdirectedEvents := by
  intro h
  obtain ⟨s, hrun, hs⟩ := Option.map_eq_some_iff.1 misdirectedEvents_run
  obtain ⟨l, hl, hmis⟩ := List.any_eq_true.1 hs
  unfold Logged.misdirected at hmis
  simp only [Bool.and_eq_true, decide_eq_true_eq] at hmis
  obtain ⟨⟨hwho, hcommand⟩, helsewhere⟩ := hmis
  obtain ⟨text, htext, hne⟩ := sendsElsewhere_iff.1 helsewhere
  exact hne (h.last hrun l hl hwho hcommand text htext)

/-- One client that asks on its own gets its report. -/
theorem reports_to_asker_alone :
    Throughout Sys.step ReportsToAsker (Sys.start (waterTables 500) : Sys emptyOrderEnv)
      (exchange firstAddr "7" 2 ++ exchange firstAddr "LIST_CLIENTS" 6) :=
  reports_to_asker (by decide +kernel)

end LogisticService
