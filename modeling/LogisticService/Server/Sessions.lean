import LogisticService.Server.Reachable

/-!
# TCP sessions

The connections as the TCP client map sees them: a socket, and whether the
handler waits for a PID, serves under one with the client id it was given, or
is gone. `Sessions.Moves` says what an event may do to them and to the map,
and `Sys.step_moves` that the server does nothing else.
-/

namespace LogisticService

open Effects

/-- How far a connection is, and the PID and client id it has by then. -/
inductive Stage
  | awaitPid
  | serving (pid clientId : Int)
  | closed
deriving DecidableEq

structure Session where
  fd : Int
  stage : Stage
deriving DecidableEq

structure Sessions where
  conns : List Session
  clients : ClientMap
  nextId : Int

namespace Sessions

/-- `registerClient` accepts a first message with this PID. -/
def Granted (S : Sessions) (pid : Int) : Prop :=
  pid ≠ 0 ∧ S.clients[pid]? = none ∧ S.nextId ≤ MAX_CLIENTS_ID

/-- What an event may do to the sessions. -/
inductive Moves (S : Sessions) : Event → Sessions → Prop
  | stays (e) (hread : ∀ i payload fd, e = .read i payload → S.conns[i]? ≠ some ⟨fd, .awaitPid⟩)
      (hhangup : ∀ i, e ≠ .hangup i) : Moves S e S
  | accepts (fd cliAddr) (hfree : ∀ c ∈ S.conns, c.stage ≠ .closed → c.fd ≠ fd) :
      Moves S (.accept fd cliAddr) { S with conns := S.conns ++ [⟨fd, .awaitPid⟩] }
  | registers (i payload info) (hi : S.conns[i]? = some ⟨info.socketFd, .awaitPid⟩)
      (hgranted : S.Granted (atoi (receivedText payload))) (hid : info.clientId = S.nextId) :
      Moves S (.read i payload)
        { conns := S.conns.set i
            ⟨info.socketFd, .serving (atoi (receivedText payload)) info.clientId⟩
          clients := S.clients.insert (atoi (receivedText payload)) info
          nextId := toInt32 (S.nextId + 1) }
  | refuses (i payload fd clientId nextId) (hi : S.conns[i]? = some ⟨fd, .awaitPid⟩)
      (hrefused : ¬ S.Granted (atoi (receivedText payload))) (hid : clientId ≤ 0) :
      Moves S (.read i payload)
        { S with
          conns := S.conns.set i ⟨fd, .serving (atoi (receivedText payload)) clientId⟩
          nextId }
  | leaves (i fd) (hi : S.conns[i]? = some ⟨fd, .awaitPid⟩ ∨
        ∃ clientId, S.conns[i]? = some ⟨fd, .serving 0 clientId⟩) :
      Moves S (.hangup i) { S with conns := S.conns.set i ⟨fd, .closed⟩ }
  | disconnects (i fd pid clientId) (hi : S.conns[i]? = some ⟨fd, .serving pid clientId⟩)
      (hpid : pid ≠ 0) :
      Moves S (.hangup i)
        { S with conns := S.conns.set i ⟨fd, .closed⟩, clients := S.clients.erase pid }

end Sessions

/-! ## The sessions of the server -/

section

variable {env : Env}

def Phase.stage : Phase env → Stage
  | .awaitPid => .awaitPid
  | .serving pid activity => .serving pid activity.loop.clientId
  | .closed => .closed

def Conn.session (c : Conn env) : Session := ⟨c.fd, c.phase.stage⟩

def Sys.sessions (s : Sys env) : Sessions where
  conns := s.conns.map Conn.session
  clients := s.shared.clients.clientMapTcp
  nextId := s.shared.clients.nextClientIdTcp

theorem Conn.isOpen_iff {c : Conn env} : c.isOpen = true ↔ c.session.stage ≠ .closed := by
  unfold Conn.isOpen Conn.session Phase.stage
  cases c.phase <;> simp

/-- What becomes of a serving connection with the client id it has is the same session. -/
theorem Conn.become_session {c : Conn env} {a b : Activity env} {pid : Int}
    (hphase : c.phase = .serving pid a) (hid : b.loop.clientId = a.loop.clientId) :
    (c.become b).session = c.session := by
  unfold Conn.become
  simp only [hphase, Conn.session, Phase.stage, hid]

namespace Sys

variable {s s' : Sys env}

theorem sessions_get {i : Nat} {c : Conn env} (h : s.conns[i]? = some c) :
    s.sessions.conns[i]? = some c.session := by
  simp [sessions, h]

/-- A connection replaced by one with the same session. -/
theorem map_session_set {i : Nat} {c c' : Conn env} {cs : List (Conn env)} (hc : cs[i]? = some c)
    (hsame : c'.session = c.session) : (cs.set i c').map Conn.session = cs.map Conn.session := by
  refine List.ext_getElem? fun j => ?_
  rw [List.getElem?_map, List.getElem?_map, List.getElem?_set]
  split
  · next hij =>
    subst hij
    split
    · simp [hc, hsame]
    · next hlen => simp [List.getElem?_eq_none (Nat.le_of_not_lt hlen)]
  · rfl

/-- What an answered operation leaves to a TCP handler keeps its session. -/
theorem setActivity_sessions {who : Who} {a b : Activity env}
    (hact : s.activity? who = some a)
    (hid : ∀ i, who = .tcp i → b.loop.clientId = a.loop.clientId) :
    (s.setActivity who b).conns.map Conn.session = s.conns.map Conn.session := by
  cases who with
  | udp => rfl
  | tcp i =>
    obtain ⟨c, pid, hc, hphase⟩ := activity?_tcp hact
    refine List.ext_getElem? fun j => ?_
    show ((s.conns.modify i (·.become b)).map Conn.session)[j]? = _
    rw [List.getElem?_map, List.getElem?_map, List.getElem?_modify]
    split
    · next hij =>
      subst hij
      simp [hc, Conn.become_session hphase (hid i rfl)]
    · simp

/-- Settling a job leaves the sessions alone, if its result keeps the client id. -/
theorem settle_sessions {who : Who} {a : Activity env} {job : Job env}
    (hact : s.activity? who = some a)
    (hid : ∀ i, who = .tcp i → job.loop.clientId = a.loop.clientId ∧
      ∀ result, job.task.rest = .pure result → result.clientId = a.loop.clientId) :
    (s.settle who job).conns.map Conn.session = s.conns.map Conn.session := by
  rcases settle_cases s who job with ⟨_, _, _, heq⟩ | ⟨result, hdone, heq⟩ | ⟨_, _, heq⟩
  · rw [heq]; exact setActivity_sessions hact fun i h => (hid i h).1
  · rw [heq]; exact setActivity_sessions hact fun i h => (hid i h).2 result hdone
  · rw [heq]; exact setActivity_sessions hact fun i h => (hid i h).1

end Sys

/-! ## The TCP map along a step -/

theorem Asks.register_inv {origin : Origin} {buffer : String} {h : List (Answered Server)}
    {pid fd : Int} {protocol : String} {addr : SockAddr} {o : Operation}
    (ha : Asks env origin buffer h o) (ho : o = .registerClient pid protocol addr fd) :
    protocol = "UDP" := by
  cases ha with
  | registerClient => cases ho; rfl
  | acknowledge | error | success | alert =>
    have htext := congrArg Operation.text? ho
    rw [Origin.send_text] at htext
    cases htext
  | debit _ _ _ _ _ _ hu | credit _ _ _ _ _ _ _ _ _ hu =>
    subst ho
    cases hu
  | forward _ _ _ _ hsend =>
    subst ho
    rcases hsend with h | h <;> cases h
  | _ => cases ho

theorem Registry.registerClient_udp (reg : Registry) (now pid : Int) (addr : SockAddr) (fd : Int) :
    (reg.registerClient now pid "UDP" addr fd).2.clientMapTcp = reg.clientMapTcp ∧
      (reg.registerClient now pid "UDP" addr fd).2.nextClientIdTcp = reg.nextClientIdTcp := by
  have hr := reg.registerClient_eq .udp now pid addr fd
  rw [show "UDP" = Protocol.udp.name from rfl, hr]
  split
  · exact ⟨rfl, rfl⟩
  · split <;> exact ⟨rfl, rfl⟩

/-- No operation of a handler changes the TCP map. -/
theorem answer_tcp {origin : Origin} {buffer : String} {h : List (Answered Server)}
    {o : Operation} (ha : Asks env origin buffer h o) (ok : Bool) (s : Shared) :
    (answer env ok s o).2.clients.clientMapTcp = s.clients.clientMapTcp ∧
      (answer env ok s o).2.clients.nextClientIdTcp = s.clients.nextClientIdTcp := by
  cases o with
  | registerClient pid protocol addr fd =>
    obtain rfl := ha.register_inv rfl
    exact Registry.registerClient_udp ..
  | _ => exact ⟨rfl, rfl⟩

/-- A first message that is granted gets the next id, and its entry. -/
theorem Registry.registerClient_granted {reg : Registry} (now : Int) {pid : Int}
    (addr : SockAddr) (fd : Int)
    (hnew : reg.clientMapTcp[pid]? = none) (hid : reg.nextClientIdTcp ≤ MAX_CLIENTS_ID) :
    ∃ info : ClientInfo, info.socketFd = fd ∧ info.clientId = reg.nextClientIdTcp ∧
      reg.registerClient now pid "TCP" addr fd = (info.clientId, { reg with
        clientMapTcp := reg.clientMapTcp.insert pid info
        nextClientIdTcp := toInt32 (reg.nextClientIdTcp + 1) }) := by
  have hcontains : reg.clientMapTcp.contains pid = false := by
    rw [Std.TreeMap.contains_eq_isSome_getElem?, hnew]; rfl
  refine ⟨⟨reg.nextClientIdTcp, fd, addr, inetNtoa addr.sinAddr, "TCP", now⟩, rfl, rfl, ?_⟩
  refine (reg.registerClient_eq .tcp now pid addr fd).trans ?_
  have hroom : ¬ reg.nextClientId .tcp > MAX_CLIENTS_ID := Int.not_lt.2 hid
  rw [if_neg (by simp [clientMap, hcontains]), if_neg hroom]
  rfl

/-- Any other gets no id, and no entry. -/
theorem Registry.registerClient_refused {reg : Registry} (now : Int) {pid : Int}
    (addr : SockAddr) (fd : Int)
    (h : ¬ (reg.clientMapTcp[pid]? = none ∧ reg.nextClientIdTcp ≤ MAX_CLIENTS_ID)) :
    (reg.registerClient now pid "TCP" addr fd).1 = -1 ∧
      (reg.registerClient now pid "TCP" addr fd).2.clientMapTcp = reg.clientMapTcp := by
  have hr := reg.registerClient_eq .tcp now pid addr fd
  rw [show "TCP" = Protocol.tcp.name from rfl, hr]
  split
  · exact ⟨rfl, rfl⟩
  · next hnew =>
    split
    · exact ⟨rfl, rfl⟩
    · next hid =>
      rw [Std.TreeMap.contains_eq_isSome_getElem?, Option.not_isSome_iff_eq_none] at hnew
      exact absurd ⟨hnew, Int.not_lt.1 hid⟩ h

namespace Sys

variable {s s' : Sys env}

/-- The first read of a connection registers its session, or refuses it. -/
theorem readPid_moves {i : Nat} {c : Conn env} (hc : s.conns[i]? = some c)
    (hphase : c.phase = .awaitPid) (payload : String) :
    s.sessions.Moves (.read i payload) (s.readPid i c (receivedText payload)).sessions := by
  have hi : s.sessions.conns[i]? = some ⟨c.fd, .awaitPid⟩ := by
    rw [sessions_get hc, Conn.session, hphase]
    rfl
  have hset : ∀ clientId, (s.conns.set i (registered c (atoi (receivedText payload)) clientId)).map
      Conn.session = s.sessions.conns.set i
        ⟨c.fd, .serving (atoi (receivedText payload)) clientId⟩ := fun clientId => List.map_set
  rw [readPid_eq]
  simp only [sessions, hset]
  by_cases hgranted : s.sessions.Granted (atoi (receivedText payload))
  · obtain ⟨hpid, hnew, hid⟩ := hgranted
    obtain ⟨info, hfd, hinfo, hreg⟩ := Registry.registerClient_granted s.shared.clock c.cliAddr
      c.fd hnew hid
    rw [← hfd] at hi ⊢
    rw [registration, if_pos hpid, hfd, hreg, ← hfd]
    exact .registers i payload info hi ⟨hpid, hnew, hid⟩ hinfo
  · obtain ⟨hid, hclients⟩ : (s.registration c (atoi (receivedText payload))).1 ≤ 0 ∧
        (s.registration c (atoi (receivedText payload))).2.clientMapTcp =
          s.shared.clients.clientMapTcp := by
      unfold registration
      split
      · next hpid =>
        obtain ⟨hneg, hclients⟩ := Registry.registerClient_refused s.shared.clock c.cliAddr
          c.fd fun h => hgranted ⟨hpid, h⟩
        exact ⟨by rw [hneg]; decide, hclients⟩
      · exact ⟨Int.le_refl 0, rfl⟩
    rw [hclients]
    exact .refuses i payload c.fd _ _ hi hgranted hid

theorem hangup_moves {i : Nat} (h : s.step (.hangup i) = some s') :
    s.sessions.Moves (.hangup i) s'.sessions := by
  obtain ⟨c, hc, ⟨hphase, rfl⟩ | ⟨pid, loop, hphase, rfl⟩⟩ := hangup_some h
  · have hi := sessions_get hc
    rw [Conn.session, hphase] at hi
    unfold sessions
    rw [List.map_set]
    exact .leaves i c.fd (.inl hi)
  · have hi := sessions_get hc
    rw [Conn.session, hphase] at hi
    unfold sessions
    rw [List.map_set]
    by_cases hpid : pid = 0
    · subst hpid
      exact .leaves i c.fd (.inr ⟨_, hi⟩)
    · rw [if_pos hpid]
      exact .disconnects i c.fd pid _ hi hpid

theorem proceed_sessions {who : Who} {ok : Bool} (hI : s.Every (Conducted env))
    (h : s.step (.proceed who ok) = some s') : s'.sessions = s.sessions := by
  obtain ⟨job, o, hact, _, hasks, hshared⟩ := proceed_asks hI h
  obtain ⟨job', event, task, shared, hact', _, rfl⟩ := proceed_some h
  cases hact.symm.trans hact'
  obtain ⟨hclients, hnext⟩ := answer_tcp hasks ok s.shared
  rw [← hshared] at hclients hnext
  obtain ⟨k, hk, halert, hserves⟩ := hI.active hact
  unfold sessions
  rw [hclients, hnext, settle_sessions (a := .busy job) (by cases who <;> exact hact)]
  rintro i rfl
  obtain ⟨c, _, rfl⟩ := hk
  exact ⟨rfl, fun result hdone => (@Job.ends env (job.withTask task) result halert hdone).clientId
    c.fd hserves⟩

/-- **The sessions move as the events say.** -/
theorem step_moves {e : Event} (hI : s.Every (Conducted env)) (h : s.step e = some s') :
    s.sessions.Moves e s'.sessions := by
  cases e with
  | connectFails who => obtain ⟨_, rfl⟩ := connectFails_some h; exact .stays _ (by simp) (by simp)
  | datagram cliAddr payload =>
    obtain ⟨loop, _, rfl⟩ := datagram_some h
    exact .stays _ (by simp) (by simp)
  | accept fd cliAddr =>
    obtain ⟨hfree, rfl⟩ := accept_some h
    unfold sessions
    rw [List.map_append]
    exact .accepts fd cliAddr fun x hx hopen => by
      obtain ⟨c, hc, rfl⟩ := List.mem_map.1 hx
      exact hfree c hc (Conn.isOpen_iff.2 hopen)
  | read i payload =>
    obtain ⟨c, hc, ⟨hphase, rfl⟩ | ⟨pid, loop, hphase, rfl⟩⟩ := read_some h
    · exact readPid_moves hc hphase payload
    · have hsame : (c.handle (receivedText payload) loop).session = c.session :=
        Conn.become_session hphase rfl
      unfold sessions
      rw [map_session_set hc hsame]
      refine .stays _ ?_ (by simp)
      rintro j _ fd heq hj
      cases heq
      have hi := (sessions_get hc).symm.trans hj
      rw [Conn.session, hphase] at hi
      cases hi
  | hangup i => exact hangup_moves h
  | proceed who ok => rw [proceed_sessions hI h]; exact .stays _ (by simp) (by simp)
  | cleanup timeout => obtain rfl := cleanup_some h; exact .stays _ (by simp) (by simp)
  | tick d => obtain rfl := tick_some h; exact .stays _ (by simp) (by simp)

end Sys

end

end LogisticService
