import LogisticService.Server.System

/-!
# What a step of the server does

Each event's effect is stated once, as an inversion of `Sys.step`; everything
proved about runs starts from these lemmas. The database is touched by the
operations of the handlers only (`Sys.step_tables`).
-/

namespace LogisticService

open Effects

namespace Sys

variable {env : Env} {s s' : Sys env}

/-! ## Fields that settling a job leaves alone -/

@[simp] theorem setActivity_shared (who : Who) (a : Activity env) :
    (s.setActivity who a).shared = s.shared := by cases who <;> rfl

@[simp] theorem setActivity_log (who : Who) (a : Activity env) :
    (s.setActivity who a).log = s.log := by cases who <;> rfl

@[simp] theorem setActivity_finished (who : Who) (a : Activity env) :
    (s.setActivity who a).finished = s.finished := by cases who <;> rfl

@[simp] theorem setActivity_crashed (who : Who) (a : Activity env) :
    (s.setActivity who a).crashed = s.crashed := by cases who <;> rfl

/-- What a handler does next, once one operation of its job was answered: it
goes on with the job, is idle with the job's result, or died of an exception. -/
theorem settle_cases (s : Sys env) (who : Who) (job : Job env) :
    (∃ o k, job.task.rest = .call o k ∧ s.settle who job = s.setActivity who (.busy job)) ∨
      (∃ result, ∃ h : job.task.rest = .pure result,
        s.settle who job = { s.setActivity who (.idle result) with
          finished := s.finished ++ [⟨who, job, result, h⟩] }) ∨
      (∃ e, job.task.rest = .throw e ∧
        s.settle who job = { s.setActivity who (.busy job) with crashed := true }) := by
  unfold settle
  split
  · next o k h => exact .inl ⟨o, k, h, rfl⟩
  · next result h => exact .inr (.inl ⟨result, h, rfl⟩)
  · next e h => exact .inr (.inr ⟨e, h, rfl⟩)

@[simp] theorem settle_shared (who : Who) (job : Job env) :
    (s.settle who job).shared = s.shared := by
  rcases settle_cases s who job with ⟨_, _, _, h⟩ | ⟨_, _, h⟩ | ⟨_, _, h⟩ <;> simp [h]

@[simp] theorem settle_log (who : Who) (job : Job env) : (s.settle who job).log = s.log := by
  rcases settle_cases s who job with ⟨_, _, _, h⟩ | ⟨_, _, h⟩ | ⟨_, _, h⟩ <;> simp [h]

/-! ## Inversion of the events -/

theorem step_alive {e : Event} (h : s.step e = some s') : s.crashed = false := by
  unfold step at h
  split at h
  · cases h
  · next hc => simpa using hc

/-- A session that does not open changes nothing but that the server ends. -/
theorem connectFails_some {who : Who} (h : s.step (.connectFails who) = some s') :
    s.starting who = true ∧ s' = { s with crashed := true } := by
  have halive := step_alive h
  rw [step, if_neg (by simp [halive])] at h
  simp only [connectFails] at h
  split at h
  · next hstarting => exact ⟨hstarting, (Option.some.inj h).symm⟩
  · cases h

theorem datagram_some {cliAddr : SockAddr} {payload : String}
    (h : s.step (.datagram cliAddr payload) = some s') :
    ∃ loop, s.udp = .idle loop ∧
      s' = { s with udp := .busy (.begin env (.udp cliAddr) (receivedText payload) loop) } := by
  have halive := step_alive h
  rw [step, if_neg (by simp [halive])] at h
  simp only [datagram] at h
  split at h
  · next loop hudp => exact ⟨loop, hudp, (Option.some.inj h).symm⟩
  · cases h

theorem accept_some {fd : Int} {cliAddr : SockAddr}
    (h : s.step (.accept fd cliAddr) = some s') :
    (∀ c ∈ s.conns, c.isOpen = true → c.fd ≠ fd) ∧
      s' = { s with conns := s.conns ++ [⟨fd, cliAddr, .awaitPid⟩] } := by
  have halive := step_alive h
  rw [step, if_neg (by simp [halive])] at h
  simp only [accept] at h
  split at h
  · cases h
  · next hfree =>
    refine ⟨fun c hc hopen hfd => hfree ?_, (Option.some.inj h).symm⟩
    exact List.any_eq_true.2 ⟨c, hc, by simp [hopen, hfd]⟩

theorem read_some {i : Nat} {payload : String} (h : s.step (.read i payload) = some s') :
    ∃ c, s.conns[i]? = some c ∧
      ((c.phase = .awaitPid ∧ s' = s.readPid i c (receivedText payload)) ∨
        ∃ clientPid loop, c.phase = .serving clientPid (.idle loop) ∧
          s' = { s with conns := s.conns.set i (c.handle (receivedText payload) loop) }) := by
  have halive := step_alive h
  rw [step, if_neg (by simp [halive])] at h
  simp only [read] at h
  split at h
  · cases h
  · next c hc =>
    refine ⟨c, hc, ?_⟩
    split at h
    · next hphase => exact .inl ⟨hphase, (Option.some.inj h).symm⟩
    · next clientPid loop hphase =>
      exact .inr ⟨clientPid, loop, hphase, (Option.some.inj h).symm⟩
    · cases h

theorem hangup_some {i : Nat} (h : s.step (.hangup i) = some s') :
    ∃ c, s.conns[i]? = some c ∧
      ((c.phase = .awaitPid ∧
          s' = { s with conns := s.conns.set i { c with phase := .closed } }) ∨
        ∃ clientPid loop, c.phase = .serving clientPid (.idle loop) ∧
          s' = { s with
            conns := s.conns.set i { c with phase := .closed }
            shared := { s.shared with
              clients := if clientPid ≠ 0 then s.shared.clients.eraseTcp clientPid
                else s.shared.clients } }) := by
  have halive := step_alive h
  rw [step, if_neg (by simp [halive])] at h
  simp only [hangup] at h
  split at h
  · cases h
  · next c hc =>
    refine ⟨c, hc, ?_⟩
    split at h
    · next hphase => exact .inl ⟨hphase, (Option.some.inj h).symm⟩
    · next clientPid loop hphase =>
      refine .inr ⟨clientPid, loop, hphase, ?_⟩
      split at h
      · next hpid => rw [← Option.some.inj h, if_pos hpid]
      · next hpid => rw [← Option.some.inj h, if_neg hpid]
    · cases h

theorem proceed_some {who : Who} {ok : Bool} (h : s.step (.proceed who ok) = some s') :
    ∃ job event task shared, s.activity? who = some (.busy job) ∧
      job.task.step (answer env ok) s.shared = some (event, task, shared) ∧
      s' = settle { s with shared, log := s.log ++ [⟨who, job.origin, job.buffer, event⟩] }
        who { job with task } := by
  have halive := step_alive h
  rw [step, if_neg (by simp [halive])] at h
  simp only [proceed] at h
  split at h
  · next job hact =>
    split at h
    · cases h
    · split at h
      · next event task shared hstep =>
        exact ⟨job, event, task, shared, hact, hstep, (Option.some.inj h).symm⟩
      · cases h
  · cases h

/-- What the first read of a connection registers: nothing without a PID. -/
def registration (s : Sys env) (c : Conn env) (clientPid : Int) : Int × Registry :=
  if clientPid ≠ 0 then
    s.shared.clients.registerClient s.shared.clock clientPid "TCP" c.cliAddr c.fd
  else (0, s.shared.clients)

/-- A connection that has told its PID and got a client id. -/
def registered (c : Conn env) (clientPid clientId : Int) : Conn env :=
  { c with phase := .serving clientPid (.idle { Loop.start with clientId }) }

theorem registered_serving {c : Conn env} {clientPid clientId pid : Int} {a : Activity env}
    (h : (registered c clientPid clientId).phase = .serving pid a) :
    a = .idle { Loop.start with clientId } := by
  cases h
  rfl

theorem readPid_eq (i : Nat) (c : Conn env) (buffer : String) :
    s.readPid i c buffer = { s with
      shared := { s.shared with clients := (s.registration c (atoi buffer)).2 }
      conns := s.conns.set i (registered c (atoi buffer) (s.registration c (atoi buffer)).1) } := by
  unfold readPid registration
  simp only
  split <;> rfl

theorem cleanup_some {timeout : Int} (h : s.step (.cleanup timeout) = some s') :
    s' = s.cleanup timeout := by
  have halive := step_alive h
  rw [step, if_neg (by simp [halive])] at h
  exact (Option.some.inj h).symm

theorem tick_some {d : Nat} (h : s.step (.tick d) = some s') :
    s' = s.tick d := by
  have halive := step_alive h
  rw [step, if_neg (by simp [halive])] at h
  exact (Option.some.inj h).symm

/-! ## The database along a step -/

/-- A step either leaves the tables and the log alone, or answers one
operation of a handler on them and logs it. -/
theorem step_tables {e : Event} (h : s.step e = some s') :
    (s'.shared.tables = s.shared.tables ∧ s'.log = s.log) ∨
      ∃ who ok origin buffer event, e = .proceed who ok ∧
        event.2 = (answer env ok s.shared event.1).1 ∧
        s'.shared.tables = (answer env ok s.shared event.1).2.tables ∧
        s'.log = s.log ++ [⟨who, origin, buffer, event⟩] := by
  cases e with
  | connectFails who => obtain ⟨_, rfl⟩ := connectFails_some h; exact .inl ⟨rfl, rfl⟩
  | datagram cliAddr payload => obtain ⟨_, _, rfl⟩ := datagram_some h; exact .inl ⟨rfl, rfl⟩
  | accept fd cliAddr => obtain ⟨_, rfl⟩ := accept_some h; exact .inl ⟨rfl, rfl⟩
  | read i payload =>
    obtain ⟨c, _, ⟨_, rfl⟩ | ⟨_, _, _, rfl⟩⟩ := read_some h
    · rw [readPid_eq]; exact .inl ⟨rfl, rfl⟩
    · exact .inl ⟨rfl, rfl⟩
  | hangup i =>
    obtain ⟨c, _, ⟨_, rfl⟩ | ⟨_, _, _, rfl⟩⟩ := hangup_some h <;> exact .inl ⟨rfl, rfl⟩
  | proceed who ok =>
    obtain ⟨job, event, task, shared, _, hstep, rfl⟩ := proceed_some h
    obtain ⟨k, _, hreply, _, _, rfl⟩ := Task.step_some hstep
    exact .inr ⟨who, ok, job.origin, job.buffer, event, rfl, hreply, by simp, by simp⟩
  | cleanup timeout => obtain rfl := cleanup_some h; exact .inl ⟨rfl, rfl⟩
  | tick d => obtain rfl := tick_some h; exact .inl ⟨rfl, rfl⟩

end Sys

end LogisticService
