import LogisticService.Order.Sample
import LogisticService.Server.Reachable

/-!
# Message boundaries on a TCP connection

A TCP stream has no message boundaries, and neither side adds any: the client
sends its PID and its messages as they are, and the handler takes whatever one
`read` returns as one message. So the handler serves the reads, one by one and
in order (`stream_framing`), and these are the messages that were sent just
when every `read` happens to return one of them.
-/

namespace LogisticService

open Effects

/-- What the reads of a connection returned, in order. -/
def readsOf (i : Nat) (es : List Event) : List String :=
  es.filterMap fun e =>
    match e with
    | .read j payload => if j = i then some payload else none
    | _ => none

/-- The messages a connection's handler has handled to completion, in order. -/
def handled {env : Env} (s : Sys env) (i : Nat) : List String :=
  (s.finished.filter fun f => f.who = .tcp i).map fun f => f.job.buffer

/-- The PID a connection's handler registered, when it waits for its next read. -/
def waitsUnder {env : Env} (s : Sys env) (i : Nat) : Option Int :=
  match (s.conns[i]?).map Conn.phase with
  | some (.serving clientPid (.idle _)) => some clientPid
  | _ => none

theorem waitsUnder_some {env : Env} {s : Sys env} {i : Nat} {clientPid : Int}
    (h : waitsUnder s i = some clientPid) :
    ∃ c loop, s.conns[i]? = some c ∧ c.phase = .serving clientPid (.idle loop) := by
  unfold waitsUnder at h
  cases hc : s.conns[i]? with
  | none =>
    rw [hc] at h
    cases h
  | some c =>
    rw [hc, Option.map_some] at h
    split at h
    · next pid loop hphase =>
      cases h
      exact ⟨c, loop, rfl, Option.some.inj hphase⟩
    · cases h

/-! ## What a handler makes of its reads -/

/-- How far a handler is with what was read: the first read told the PID, the
others are handled one after the other. -/
def FramedAt {env : Env} : Option (Conn env) → List String → List String → Prop
  | none, done, reads => reads = [] ∧ done = []
  | some c, done, reads =>
    match c.phase with
    | .awaitPid => reads = [] ∧ done = []
    | .serving clientPid (.idle _) => ∃ first rest, reads = first :: rest ∧
        clientPid = atoi (receivedText first) ∧ done = rest.map receivedText
    | .serving clientPid (.busy job) => ∃ first rest last, reads = first :: (rest ++ [last]) ∧
        clientPid = atoi (receivedText first) ∧ done = rest.map receivedText ∧
        job.buffer = receivedText last
    | .closed => True

/-- How far the handler of the `i`th connection is. -/
def Framed {env : Env} (i : Nat) (s : Sys env) (reads : List String) : Prop :=
  FramedAt s.conns[i]? (handled s i) reads

section

variable {env : Env} {s s' : Sys env} {i : Nat} {reads : List String}

/-- A step that concerns other handlers. -/
theorem Framed.of_same (h : Framed i s reads) (hconn : s'.conns[i]? = s.conns[i]?)
    (hfinished : handled s' i = handled s i) : Framed i s' reads := by
  unfold Framed
  rw [hconn, hfinished]
  exact h

theorem handled_of_finished (h : s'.finished = s.finished) : handled s' i = handled s i := by
  unfold handled
  rw [h]

/-- A step that finishes no message. -/
theorem Framed.of_quiet (h : Framed i s reads) (hconn : s'.conns[i]? = s.conns[i]?)
    (hfinished : s'.finished = s.finished) : Framed i s' reads :=
  h.of_same hconn (handled_of_finished hfinished)

theorem Framed.accept {fd : Int} {cliAddr : SockAddr} (h : Framed i s reads) :
    Framed i { s with conns := s.conns ++ [⟨fd, cliAddr, .awaitPid⟩] } reads := by
  by_cases hlt : i < s.conns.length
  · exact h.of_quiet (List.getElem?_append_left hlt) rfl
  · have hnone : s.conns[i]? = none := List.getElem?_eq_none (by omega)
    have hempty : reads = [] ∧ handled s i = [] := by
      unfold Framed at h
      rwa [hnone] at h
    have hdone : handled { s with conns := s.conns ++ [⟨fd, cliAddr, .awaitPid⟩] } i = [] :=
      (handled_of_finished rfl).trans hempty.2
    unfold Framed
    rw [hdone, hempty.1]
    dsimp only
    rw [List.getElem?_append_right (by omega)]
    cases hj : i - s.conns.length with
    | zero => exact ⟨rfl, rfl⟩
    | succ j => exact ⟨rfl, rfl⟩

theorem FramedAt.await_iff {c : Conn env} {done : List String} (hphase : c.phase = .awaitPid) :
    FramedAt (some c) done reads ↔ reads = [] ∧ done = [] := by
  simp only [FramedAt, hphase]

theorem FramedAt.idle_iff {c : Conn env} {done : List String} {clientPid : Int} {loop : Loop}
    (hphase : c.phase = .serving clientPid (.idle loop)) :
    FramedAt (some c) done reads ↔ ∃ first rest, reads = first :: rest ∧
      clientPid = atoi (receivedText first) ∧ done = rest.map receivedText := by
  simp only [FramedAt, hphase]

theorem FramedAt.busy_iff {c : Conn env} {done : List String} {clientPid : Int} {job : Job env}
    (hphase : c.phase = .serving clientPid (.busy job)) :
    FramedAt (some c) done reads ↔ ∃ first rest last, reads = first :: (rest ++ [last]) ∧
      clientPid = atoi (receivedText first) ∧ done = rest.map receivedText ∧
        job.buffer = receivedText last := by
  simp only [FramedAt, hphase]

theorem Framed.of_conn {c : Conn env} (hc : s.conns[i]? = some c)
    (h : FramedAt (some c) (handled s i) reads) : Framed i s reads := by
  unfold Framed
  rw [hc]
  exact h

theorem Framed.at_conn {c : Conn env} (h : Framed i s reads) (hc : s.conns[i]? = some c) :
    FramedAt (some c) (handled s i) reads := by
  unfold Framed at h
  rwa [hc] at h

theorem handle_phase {c : Conn env} {clientPid : Int} {a : Activity env} (buffer : String)
    (loop : Loop) (hphase : c.phase = .serving clientPid a) : (c.handle buffer loop).phase =
      .serving clientPid (.busy (.begin env (.tcp c.fd) buffer loop)) := by
  unfold Conn.handle Conn.become
  rw [hphase]

/-- A read on this connection: the first one tells the PID, a later one starts
a message. -/
theorem Framed.read {payload : String} (h : Framed i s reads)
    (hstep : s.step (.read i payload) = some s') : Framed i s' (reads ++ [payload]) := by
  obtain ⟨c, hc, hcases⟩ := Sys.read_some hstep
  have hlt : i < s.conns.length := (List.getElem?_eq_some_iff.1 hc).1
  have hat := h.at_conn hc
  rcases hcases with ⟨hphase, hs'⟩ | ⟨clientPid, loop, hphase, hs'⟩
  · obtain ⟨hreads, hdone⟩ := (FramedAt.await_iff hphase).1 hat
    have hregistered : ∀ {s₁ : Sys env} {loop : Loop}, s₁.finished = s.finished →
        s₁.conns[i]? =
          some { c with phase := .serving (atoi (receivedText payload)) (.idle loop) } →
        Framed i s₁ ([] ++ [payload]) := by
      intro s₁ loop hfinished hc₁
      refine Framed.of_conn hc₁ ((FramedAt.idle_iff rfl).2 ?_)
      exact ⟨payload, [], rfl, rfl, (handled_of_finished hfinished).trans hdone⟩
    rw [hs', Sys.readPid_eq, hreads]
    exact hregistered (by rfl) (List.getElem?_set_self hlt)
  · obtain ⟨first, rest, hreads, hpid, hdone⟩ := (FramedAt.idle_iff hphase).1 hat
    rw [hs', hreads]
    refine Framed.of_conn (List.getElem?_set_self hlt)
      ((FramedAt.busy_iff (handle_phase _ _ hphase)).2 ?_)
    exact ⟨first, rest, payload, rfl, hpid, (handled_of_finished rfl).trans hdone, rfl⟩

/-- A message handled by another handler. -/
theorem handled_append_other {f : Finished env} (hwho : f.who ≠ .tcp i) :
    ((s.finished ++ [f]).filter fun f => f.who = .tcp i).map (fun f => f.job.buffer) =
      handled s i := by
  rw [List.filter_append, List.filter_cons_of_neg (by simpa using hwho), List.filter_nil,
    List.append_nil]
  rfl

/-- An operation of another handler. -/
theorem Framed.settle_other {who : Who} {job : Job env} (h : Framed i s reads)
    (hwho : who ≠ .tcp i) : Framed i (s.settle who job) reads := by
  have hconns : ∀ a, (s.setActivity who a).conns[i]? = s.conns[i]? := by
    intro a
    cases who with
    | udp => rfl
    | tcp j =>
      have hne : j ≠ i := fun hj => hwho (by rw [hj])
      exact List.getElem?_modify_ne _ _ hne
  rcases Sys.settle_cases s who job with ⟨_, _, _, heq⟩ | ⟨result, hdone, heq⟩ | ⟨_, _, heq⟩
  · rw [heq]
    exact h.of_quiet (hconns _) (Sys.setActivity_finished _ _)
  · rw [heq]
    exact h.of_same (hconns _) (handled_append_other hwho)
  · rw [heq]
    exact h.of_quiet (hconns _) (Sys.setActivity_finished _ _)

/-- An operation of this connection's handler: the message goes on, or it is
handled and counts among the others. -/
theorem Framed.settle_own {job : Job env} {c : Conn env} {clientPid : Int} {first last : String}
    {rest : List String} (hc : s.conns[i]? = some c)
    (hphase : ∃ job', c.phase = .serving clientPid (.busy job'))
    (hreads : reads = first :: (rest ++ [last])) (hpid : clientPid = atoi (receivedText first))
    (hdone : handled s i = rest.map receivedText) (hbuffer : job.buffer = receivedText last) :
    Framed i (s.settle (.tcp i) job) reads := by
  obtain ⟨job', hphase⟩ := hphase
  have hconn : ∀ a, (s.setActivity (.tcp i) a).conns[i]? = some (c.become a) := by
    intro a
    show (s.conns.modify i (·.become a))[i]? = _
    rw [List.getElem?_modify_eq, hc]
    rfl
  have hbecome : ∀ a, (c.become a).phase = .serving clientPid a := by
    intro a
    unfold Conn.become
    rw [hphase]
  have hbusy : ∀ s' : Sys env, s'.conns[i]? = some (c.become (.busy job)) →
      s'.finished = s.finished → Framed i s' reads := by
    intro s' hc' hfinished
    refine Framed.of_conn hc' ((FramedAt.busy_iff (hbecome _)).2 ?_)
    exact ⟨first, rest, last, hreads, hpid, (handled_of_finished hfinished).trans hdone, hbuffer⟩
  rcases Sys.settle_cases s (.tcp i) job with ⟨_, _, _, heq⟩ | ⟨result, hresult, heq⟩ | ⟨_, _, heq⟩
  · rw [heq]
    exact hbusy _ (hconn _) rfl
  · rw [heq]
    refine Framed.of_conn (hconn _) ((FramedAt.idle_iff (hbecome _)).2 ?_)
    refine ⟨first, rest ++ [last], hreads, hpid, ?_⟩
    unfold handled
    dsimp only
    rw [List.filter_append, List.map_append, List.filter_cons_of_pos (by simp), List.filter_nil,
      List.map_append, ← hdone, List.map_singleton, List.map_singleton, hbuffer]
    rfl
  · rw [heq]
    exact hbusy _ (hconn _) rfl

/-- One step: a read of this connection is added to what was read, and any
other step leaves the handler in order. -/
theorem Framed.step {e : Event} (h : Framed i s reads) (hstep : s.step e = some s') :
    Framed i s' (reads ++ readsOf i [e]) := by
  have hnone : ∀ {s' : Sys env}, readsOf i [e] = [] → Framed i s' reads →
      Framed i s' (reads ++ readsOf i [e]) := by
    intro s' hreads hframed
    rw [hreads, List.append_nil]
    exact hframed
  cases e with
  | connectFails who =>
    obtain ⟨_, rfl⟩ := Sys.connectFails_some hstep
    exact hnone rfl (h.of_quiet rfl rfl)
  | datagram cliAddr payload =>
    obtain ⟨_, _, rfl⟩ := Sys.datagram_some hstep
    exact hnone rfl (h.of_quiet rfl rfl)
  | accept fd cliAddr =>
    obtain ⟨_, rfl⟩ := Sys.accept_some hstep
    exact hnone rfl h.accept
  | read j payload =>
    by_cases hj : j = i
    · subst hj
      have hreads : readsOf j [.read j payload] = [payload] := by simp [readsOf]
      rw [hreads]
      exact h.read hstep
    · refine hnone (by simp [readsOf, hj]) ?_
      obtain ⟨c, _, ⟨_, rfl⟩ | ⟨_, _, _, rfl⟩⟩ := Sys.read_some hstep
      · rw [Sys.readPid_eq]
        exact h.of_quiet (List.getElem?_set_ne hj) rfl
      · exact h.of_quiet (List.getElem?_set_ne hj) rfl
  | hangup j =>
    refine hnone rfl ?_
    obtain ⟨c, hc, hcases⟩ := Sys.hangup_some hstep
    by_cases hj : j = i
    · subst hj
      have hlt : j < s.conns.length := (List.getElem?_eq_some_iff.1 hc).1
      rcases hcases with ⟨_, rfl⟩ | ⟨_, _, _, rfl⟩
      · unfold Framed
        rw [List.getElem?_set_self hlt]
        trivial
      · unfold Framed
        rw [List.getElem?_set_self hlt]
        trivial
    · rcases hcases with ⟨_, rfl⟩ | ⟨_, _, _, rfl⟩
      · exact h.of_quiet (List.getElem?_set_ne hj) rfl
      · exact h.of_quiet (List.getElem?_set_ne hj) rfl
  | proceed who ok =>
    refine hnone rfl ?_
    obtain ⟨job, event, task, shared, hact, _, rfl⟩ := Sys.proceed_some hstep
    have hbefore : Framed i { s with
        shared, log := s.log ++ [⟨who, job.origin, job.buffer, event⟩] } reads := h.of_quiet rfl rfl
    by_cases hwho : who = .tcp i
    · subst hwho
      obtain ⟨c, pid, hc, hphase⟩ := Sys.activity?_tcp hact
      have hat := h
      unfold Framed at hat
      rw [hc] at hat
      simp only [FramedAt, hphase] at hat
      obtain ⟨first, rest, last, hreads, hpid, hdone, hbuffer⟩ := hat
      have hc' : ({ s with shared, log := s.log ++
        [⟨Who.tcp i, job.origin, job.buffer, event⟩] } : Sys env).conns[i]? = some c := hc
      exact Framed.settle_own hc' ⟨job, hphase⟩ hreads hpid hdone hbuffer
    · exact hbefore.settle_other hwho
  | cleanup timeout =>
    obtain rfl := Sys.cleanup_some hstep
    exact hnone rfl (h.of_quiet rfl rfl)
  | tick d =>
    obtain rfl := Sys.tick_some hstep
    exact hnone rfl (h.of_quiet rfl rfl)

/-- A whole run. -/
theorem Framed.run {es : List Event} (h : Framed i s reads) (hrun : s.run es = some s') :
    Framed i s' (reads ++ readsOf i es) := by
  induction es generalizing s reads with
  | nil =>
    cases hrun
    simpa [readsOf] using h
  | cons e es ih =>
    obtain ⟨s₁, hstep, hrun⟩ := runSteps_cons.1 hrun
    have hsplit : readsOf i (e :: es) = readsOf i [e] ++ readsOf i es :=
      @List.filterMap_append _ _ [e] es _
    rw [hsplit, ← List.append_assoc]
    exact ih (h.step hstep) hrun

/-- **A handler serves the reads of its connection**: the PID it registered is
the number the first read begins with, and it handled every other read, one by
one and in order. -/
theorem stream_framing {tables : Tables} {es : List Event} {clientPid : Int}
    (hrun : (Sys.start tables).run es = some s) (hwaits : waitsUnder s i = some clientPid) :
    ∃ first rest, readsOf i es = first :: rest ∧ clientPid = atoi (receivedText first) ∧
      handled s i = rest.map receivedText := by
  have hstart : Framed i (Sys.start tables : Sys env) [] := ⟨rfl, rfl⟩
  have hframed := hstart.run hrun
  obtain ⟨c, loop, hc, hphase⟩ := waitsUnder_some hwaits
  unfold Framed at hframed
  rw [hc] at hframed
  simp only [FramedAt, hphase] at hframed
  exact hframed

end

/-! ## The messages that were sent -/

/-- A text without a NUL that fits the buffer is received as it is. -/
theorem receivedText_of_fits {payload : String}
    (hlength : payload.toList.length ≤ BUFFER_SIZE_SERVER - 1)
    (hnul : '\x00' ∉ payload.toList) : receivedText payload = payload := by
  unfold receivedText
  rw [List.take_of_length_le hlength, List.takeWhile_eq_self_iff.2, String.ofList_toList]
  intro c hc
  have hne : c ≠ '\x00' := fun h => hnul (h ▸ hc)
  simpa using hne

/-- What a `read` may return: at least one byte, and no more than fit the buffer. -/
def ReadSized (payload : String) : Prop :=
  1 ≤ payload.length ∧ payload.length ≤ BUFFER_SIZE_SERVER - 1

instance (payload : String) : Decidable (ReadSized payload) :=
  inferInstanceAs (Decidable (_ ∧ _))

/-- A message a client can send: not empty, without a NUL, within the client's buffer. -/
def Sendable (message : String) : Prop :=
  message ≠ "" ∧ '\x00' ∉ message.toList ∧ message.length ≤ 4095

instance (message : String) : Decidable (Sendable message) :=
  inferInstanceAs (Decidable (_ ∧ _ ∧ _))

/-- No read of a stream without NULs holds one. -/
theorem nul_free_of_stream {reads messages : List String} {pid : Int}
    (hmessages : ∀ m ∈ messages, Sendable m)
    (hstream : String.join reads = toString pid ++ String.join messages) :
    ∀ r ∈ reads, '\x00' ∉ r.toList := by
  intro r hr hnul
  have hin : '\x00' ∈ (String.join reads).toList := by
    rw [String.toList_join]
    exact List.mem_flatMap.2 ⟨r, hr, hnul⟩
  rw [hstream, String.toList_append, String.toList_join] at hin
  rcases List.mem_append.1 hin with hleft | hright
  · exact nul_not_in_decimal pid hleft
  · obtain ⟨m, hm, hmnul⟩ := List.mem_flatMap.1 hright
    exact (hmessages m hm).2.1 hmnul

/-- **Message boundaries survive the stream exactly when the reads keep them**:
whatever a client sends after its PID, and however the stream is cut into
reads, the handler registers the PID and handles exactly those messages if and
only if the first read is the text of the PID and every other read is one of
the messages. -/
theorem stream_handled_iff {env : Env} {tables : Tables} {es : List Event} {s : Sys env} {i : Nat}
    {clientPid pid : Int} {messages : List String} (hrun : (Sys.start tables).run es = some s)
    (hwaits : waitsUnder s i = some clientPid) (hpid : 0 < pid ∧ pid ≤ INT_MAX)
    (hmessages : ∀ m ∈ messages, Sendable m) (hreads : ∀ r ∈ readsOf i es, ReadSized r)
    (hstream : String.join (readsOf i es) = toString pid ++ String.join messages) :
    (clientPid = pid ∧ handled s i = messages) ↔ readsOf i es = toString pid :: messages := by
  obtain ⟨first, rest, hsplit, hclientPid, hhandled⟩ := stream_framing hrun hwaits
  have hnul := nul_free_of_stream hmessages hstream
  have hreceived : ∀ r ∈ readsOf i es, receivedText r = r := fun r hr =>
    receivedText_of_fits (hreads r hr).2 (hnul r hr)
  rw [hsplit] at hreceived hstream ⊢
  have hrest : rest.map receivedText = rest := by
    refine (List.map_congr_left fun r hr => ?_).trans (List.map_id rest)
    exact hreceived r (List.mem_cons_of_mem _ hr)
  rw [hhandled, hrest, hclientPid, hreceived first List.mem_cons_self]
  constructor
  · rintro ⟨_, rfl⟩
    rw [String.join_cons] at hstream
    rw [(String.append_left_inj _).1 hstream]
  · intro heq
    obtain ⟨hfirst, hmessages'⟩ := List.cons.inj heq
    refine ⟨?_, hmessages'⟩
    rw [hfirst]
    refine atoi_toString ?_
    unfold IsInt INT_MIN
    omega

/-! ## Two messages in one read -/

/-- A client with PID 7 sends `a` and `b`, and one read returns both. -/
def joinedEvents : List Event :=
  [.accept 4 ⟨⟨127, 0, 0, 1⟩, 5000⟩, .read 0 "7", .read 0 "ab", .proceed (.tcp 0) true]

/-- The same client, with a read for each message. -/
def separateEvents : List Event :=
  [.accept 4 ⟨⟨127, 0, 0, 1⟩, 5000⟩, .read 0 "7", .read 0 "a", .proceed (.tcp 0) true,
    .read 0 "b", .proceed (.tcp 0) true]

theorem joinedEvents_run : ∃ s : Sys (.reading []),
    (Sys.start (waterTables 500)).run joinedEvents = some s ∧
      (waitsUnder s 0, handled s 0) = (some 7, ["ab"]) :=
  Option.map_eq_some_iff.1 (by decide +kernel)

theorem separateEvents_run : ∃ s : Sys (.reading []),
    (Sys.start (waterTables 500)).run separateEvents = some s ∧ waitsUnder s 0 = some 7 :=
  Option.map_eq_some_iff.1 (by decide +kernel)

/-- With a read for each message, both are handled. -/
theorem stream_handled_iff_separate : ∃ s : Sys (.reading []),
    (Sys.start (waterTables 500)).run separateEvents = some s ∧ handled s 0 = ["a", "b"] := by
  obtain ⟨s, hrun, hwaits⟩ := separateEvents_run
  refine ⟨s, hrun, ?_⟩
  have hiff := @stream_handled_iff _ _ _ s 0 7 7 ["a", "b"] hrun hwaits (by decide) (by decide)
    (by decide) (by decide +kernel)
  exact (hiff.2 (by decide +kernel)).2

/-- So not every way of cutting the stream keeps the messages apart. -/
theorem stream_boundaries_lost : ¬ ∀ (env : Env) (tables : Tables) (es : List Event) (s : Sys env)
    (i : Nat) (clientPid pid : Int) (messages : List String),
    (Sys.start tables).run es = some s → waitsUnder s i = some clientPid →
      0 < pid ∧ pid ≤ INT_MAX → (∀ m ∈ messages, Sendable m) →
      (∀ r ∈ readsOf i es, ReadSized r) →
      String.join (readsOf i es) = toString pid ++ String.join messages →
        clientPid = pid ∧ handled s i = messages := by
  intro h
  obtain ⟨s, hrun, hs⟩ := joinedEvents_run
  obtain ⟨hwaits, hhandled⟩ := Prod.mk.inj hs
  have hkept := (h _ _ _ s 0 7 7 ["a", "b"] hrun hwaits (by decide) (by decide) (by decide)
    (by decide +kernel)).2
  rw [hhandled] at hkept
  exact absurd hkept (by decide)

end LogisticService
