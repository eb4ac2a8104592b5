import LogisticService.Server.Reachable
import Mathlib.Algebra.BigOperators.Group.List.Basic
import Mathlib.Algebra.Ring.Int.Defs

/-!
# The log and the jobs

Operations of different handlers interleave in the log, but each of them was
asked for by one job. The log is a shuffle of what the jobs had answered, those
handled to completion and those under way (`Sys.run_lines`), so a sum over the
log is a sum over the jobs, whatever the interleaving (`Sys.run_sum`). Each job
kept its contract (`Sys.run_kept`), and each of its answers was given at one
moment of the run, while it was under way (`Sys.run_answered`).
-/

namespace LogisticService

open Effects

variable {env : Env}

/-- The messages taken in so far. -/
def Sys.jobs (s : Sys env) : List (Job env) := s.finished.map Finished.job ++ s.active

/-- An answered operation with the message it was asked for. -/
abbrev Line := Origin × String × Answered Server

def Logged.line (l : Logged) : Line := (l.origin, l.buffer, l.event)

/-- What a job had answered so far. -/
def Job.lines (job : Job env) : List Line :=
  job.task.history.map fun e => (job.origin, job.buffer, e)

/-- The job waits for the answer to an operation. -/
def Job.Waits (job : Job env) : Prop :=
  ∃ (o : Operation) (k : o.Reply → Handling Loop), job.task.rest = .call o k

/-- What a receive of the server returned. -/
def Event.payload? : Event → Option String
  | .datagram _ payload => some payload
  | .read _ payload => some payload
  | _ => none

/-! ## One handler among the others -/

/-- An element of a list, and what replacing it leaves. -/
theorem split_at {α : Type} {l : List α} {i : Nat} {a : α} (h : l[i]? = some a) :
    ∃ before after, l = before ++ a :: after ∧ (∀ b, l.set i b = before ++ b :: after) ∧
      ∀ f, l.modify i f = before ++ f a :: after := by
  obtain ⟨hi, rfl⟩ := List.getElem?_eq_some_iff.1 h
  refine ⟨l.take i, l.drop (i + 1), ?_, fun b => ?_, fun f => ?_⟩
  · rw [List.getElem_cons_drop, List.take_append_drop]
  · rw [List.set_eq_take_append_cons_drop, if_pos hi]
  · rw [List.modify_eq_take_cons_drop hi]

theorem Conn.jobs_serving {c : Conn env} {clientPid : Int} {a : Activity env}
    (h : c.phase = .serving clientPid a) : c.jobs = a.jobs := by
  unfold Conn.jobs
  rw [h]

theorem Conn.jobs_become {c : Conn env} {clientPid : Int} {a : Activity env}
    (h : c.phase = .serving clientPid a) (b : Activity env) : (c.become b).jobs = b.jobs := by
  unfold Conn.become
  rw [h]
  rfl

namespace Sys

variable {s s' : Sys env}

/-- The handler that goes on is one among those under way. -/
theorem active_split {who : Who} {a : Activity env} (h : s.activity? who = some a) :
    ∃ before after, s.active = before ++ a.jobs ++ after ∧
      ∀ b, (s.setActivity who b).active = before ++ b.jobs ++ after := by
  cases who with
  | udp =>
    cases h
    exact ⟨[], s.conns.flatMap Conn.jobs, rfl, fun b => rfl⟩
  | tcp i =>
    obtain ⟨c, clientPid, hc, hphase⟩ := activity?_tcp h
    obtain ⟨before, after, hconns, -, hmodify⟩ := split_at hc
    refine ⟨s.udp.jobs ++ before.flatMap Conn.jobs, after.flatMap Conn.jobs, ?_, fun b => ?_⟩
    · rw [active, hconns, List.flatMap_append, List.flatMap_cons, Conn.jobs_serving hphase]
      simp only [List.append_assoc]
    · show s.udp.jobs ++ (s.conns.modify i (·.become b)).flatMap Conn.jobs = _
      rw [hmodify, List.flatMap_append, List.flatMap_cons, Conn.jobs_become hphase]
      simp only [List.append_assoc]

/-- A connection without a job gives way to one with nothing answered. -/
theorem lines_set {i : Nat} {c c' : Conn env} (hc : s.conns[i]? = some c)
    (hjobs : c.jobs = []) (hlines : c'.jobs.flatMap Job.lines = []) (hudp : s'.udp = s.udp)
    (hconns : s'.conns = s.conns.set i c') (hfinished : s'.finished = s.finished)
    (hlog : s'.log = s.log) (h : (s.log.map Logged.line).Perm (s.jobs.flatMap Job.lines)) :
    (s'.log.map Logged.line).Perm (s'.jobs.flatMap Job.lines) := by
  obtain ⟨before, after, hold, hset, -⟩ := split_at hc
  unfold jobs active at h ⊢
  rw [hudp, hconns, hfinished, hset, hlog]
  rw [hold] at h
  simpa only [List.flatMap_append, List.flatMap_cons, hjobs, hlines, List.nil_append] using h

/-- A job that goes on adds one line to those of the jobs. -/
theorem settle_lines {who : Who} {job : Job env} {line : Line}
    (hact : s.activity? who = some (.busy job))
    {task : Task (iteration env job.origin job.buffer job.loop)}
    (hlines : (job.withTask task).lines = job.lines ++ [line]) :
    ((s.settle who (job.withTask task)).jobs.flatMap Job.lines).Perm
      (s.jobs.flatMap Job.lines ++ [line]) := by
  classical
  obtain ⟨before, after, hold, hnew⟩ := active_split hact
  have hbusy : ∀ s' : Sys env, s'.active = (s.setActivity who (.busy (job.withTask task))).active →
      s'.finished = s.finished →
      (s'.jobs.flatMap Job.lines).Perm (s.jobs.flatMap Job.lines ++ [line]) := by
    intro s' hactive hfinished
    unfold jobs
    rw [hactive, hfinished, hnew, hold, List.perm_iff_count]
    intro x
    simp only [Activity.jobs, List.flatMap_append, List.flatMap_cons, List.flatMap_nil, hlines,
      List.count_append]
    omega
  rcases settle_cases s who (job.withTask task) with ⟨_, _, _, heq⟩ | ⟨result, _, heq⟩ | ⟨_, _, heq⟩
  · rw [heq]
    exact hbusy _ rfl (by simp)
  · -- The job moves from those under way to the finished ones.
    have hdone : ∀ s' : Sys env, s'.active = (s.setActivity who (.idle result)).active →
        s'.finished.map Finished.job = s.finished.map Finished.job ++ [job.withTask task] →
        (s'.jobs.flatMap Job.lines).Perm (s.jobs.flatMap Job.lines ++ [line]) := by
      intro s' hactive hfinished
      unfold jobs
      rw [hactive, hfinished, hnew, hold, List.perm_iff_count]
      intro x
      simp only [Activity.jobs, List.flatMap_append, List.flatMap_cons, List.flatMap_nil, hlines,
        List.count_append, List.count_nil]
      omega
    rw [heq]
    exact hdone _ rfl (by simp)
  · rw [heq]
    exact hbusy _ rfl (by simp)

/-- One step adds the same line to the log and to the jobs, or none to either. -/
theorem step_lines {e : Event} (hstep : s.step e = some s')
    (h : (s.log.map Logged.line).Perm (s.jobs.flatMap Job.lines)) :
    (s'.log.map Logged.line).Perm (s'.jobs.flatMap Job.lines) := by
  cases e with
  | connectFails who => obtain ⟨_, rfl⟩ := connectFails_some hstep; exact h
  | datagram cliAddr payload =>
    obtain ⟨loop, hudp, rfl⟩ := datagram_some hstep
    simpa [jobs, active, hudp, Activity.jobs, Job.lines, Job.begin, Task.begin] using h
  | accept fd cliAddr =>
    obtain ⟨_, rfl⟩ := accept_some hstep
    simpa [jobs, active, Conn.jobs] using h
  | read i payload =>
    obtain ⟨c, hc, ⟨hphase, rfl⟩ | ⟨clientPid, loop, hphase, rfl⟩⟩ := read_some hstep
    · rw [readPid_eq]
      exact lines_set hc (by simp [Conn.jobs, hphase]) rfl rfl rfl rfl rfl h
    · refine lines_set hc (by rw [Conn.jobs_serving hphase]; rfl) ?_ rfl rfl rfl rfl h
      rw [Conn.handle, Conn.jobs_become hphase]
      rfl
  | hangup i =>
    obtain ⟨c, hc, ⟨hphase, rfl⟩ | ⟨clientPid, loop, hphase, rfl⟩⟩ := hangup_some hstep
    · exact lines_set hc (by simp [Conn.jobs, hphase]) rfl rfl rfl rfl rfl h
    · exact lines_set hc (by rw [Conn.jobs_serving hphase]; rfl) rfl rfl rfl rfl rfl h
  | proceed who ok =>
    obtain ⟨job, event, task, shared, hact, htask, rfl⟩ := proceed_some hstep
    obtain ⟨_, _, _, hhistory, _, _⟩ := Task.step_some htask
    have hlines : (job.withTask task).lines = job.lines ++ [(job.origin, job.buffer, event)] := by
      show task.history.map _ = _
      rw [hhistory, List.map_append]
      rfl
    obtain ⟨s₁, hs₁⟩ : ∃ s₁ : Sys env, s₁ = { s with
      shared, log := s.log ++ [⟨who, job.origin, job.buffer, event⟩] } := ⟨_, rfl⟩
    have hact₁ : s₁.activity? who = some (.busy job) := by
      rw [hs₁]
      cases who <;> exact hact
    have hjobs : s₁.jobs = s.jobs := by rw [hs₁]; rfl
    have hsettled := settle_lines hact₁ hlines
    rw [hjobs] at hsettled
    rw [← hs₁, settle_log, hs₁, List.map_append, ← hs₁]
    exact (h.append_right _).trans hsettled.symm
  | cleanup timeout => obtain rfl := cleanup_some hstep; exact h
  | tick d => obtain rfl := tick_some hstep; exact h

/-- **The log of a run is a shuffle of what its jobs had answered.** -/
theorem run_lines {tables : Tables} {es : List Event} (hrun : (start tables).run es = some s) :
    (s.log.map Logged.line).Perm (s.jobs.flatMap Job.lines) := by
  refine runSteps_invariant (I := fun s : Sys env =>
    (s.log.map Logged.line).Perm (s.jobs.flatMap Job.lines))
    (fun _ _ _ h hstep => step_lines hstep h) ?_ hrun
  exact .refl []

/-- What is summed over the log is summed job by job. -/
theorem run_sum {tables : Tables} {es : List Event} (hrun : (start tables).run es = some s)
    (f : Answered Server → Int) : (s.log.map fun l => f l.event).sum =
      (s.jobs.map fun job => (job.task.history.map f).sum).sum := by
  have hsum := ((run_lines hrun).map fun line : Line => f line.2.2).sum_eq
  rw [List.map_map, List.map_flatMap] at hsum
  refine hsum.trans ?_
  rw [List.flatMap_def, List.sum_flatten, List.map_map]
  refine congrArg List.sum (List.map_congr_left fun job _ => ?_)
  show ((job.task.history.map _).map _).sum = _
  rw [List.map_map]
  rfl

/-! ## Where a job comes from -/

/-- The step of a handler whose job can take one and need not wait for `ordersMutex`. -/
theorem step_proceed {who : Who} {ok : Bool} {job : Job env} {event : Answered Server}
    {task : Task (iteration env job.origin job.buffer job.loop)} {shared : Shared}
    (halive : s.crashed = false) (hact : s.activity? who = some (.busy job))
    (hfree : job.locksOrders = true → s.ordersLocked = false)
    (htask : job.task.step (answer env ok) s.shared = some (event, task, shared)) :
    s.step (.proceed who ok) = some (Sys.settle
      { s with shared, log := s.log ++ [⟨who, job.origin, job.buffer, event⟩] } who
      (job.withTask task)) := by
  have hgoes : ¬ (job.locksOrders && s.ordersLocked) = true := by
    rw [Bool.and_eq_true]
    rintro ⟨hlocks, hlocked⟩
    exact absurd hlocked (Bool.eq_false_iff.1 (hfree hlocks))
  simp only [step, halive, Bool.false_eq_true, if_false, proceed, hact, if_neg hgoes, htask]
  rfl

/-- The job of a handler is among those under way. -/
theorem mem_active {who : Who} {job : Job env} (h : s.activity? who = some (.busy job)) :
    job ∈ s.active := by
  obtain ⟨before, after, hold, -⟩ := active_split h
  simp [hold, Activity.jobs]

/-- Settling a job changes that job only. -/
theorem settle_jobs {who : Who} {job₁ job : Job env}
    {task : Task (iteration env job₁.origin job₁.buffer job₁.loop)}
    (hact : s.activity? who = some (.busy job₁))
    (hjob : job ∈ (s.settle who (job₁.withTask task)).jobs) :
    job ∈ s.jobs ∨ job = job₁.withTask task := by
  obtain ⟨before, after, hold, hnew⟩ := active_split hact
  have hmem : job ∈ s.jobs ↔ job ∈ s.finished.map Finished.job ∨
      (job ∈ before ∨ job = job₁) ∨ job ∈ after := by
    simp only [jobs, hold, Activity.jobs, List.mem_append, List.mem_singleton]
  have hbusy : ∀ s' : Sys env, s'.active = (s.setActivity who (.busy (job₁.withTask task))).active →
      s'.finished = s.finished → job ∈ s'.jobs → job ∈ s.jobs ∨ job = job₁.withTask task := by
    intro s' hactive hfinished h
    rw [hmem]
    simp only [jobs, hactive, hfinished, hnew, Activity.jobs, List.mem_append,
      List.mem_singleton] at h
    tauto
  rcases settle_cases s who (job₁.withTask task) with
    ⟨_, _, _, heq⟩ | ⟨result, _, heq⟩ | ⟨_, _, heq⟩
  · rw [heq] at hjob
    exact hbusy _ rfl (by simp) hjob
  · have hdone : ∀ s' : Sys env, s'.active = (s.setActivity who (.idle result)).active →
        s'.finished.map Finished.job = s.finished.map Finished.job ++ [job₁.withTask task] →
        job ∈ s'.jobs → job ∈ s.jobs ∨ job = job₁.withTask task := by
      intro s' hactive hfinished h
      rw [hmem]
      simp only [jobs, hactive, hfinished, hnew, Activity.jobs, List.mem_append,
        List.mem_singleton, List.not_mem_nil] at h
      tauto
    rw [heq] at hjob
    refine hdone _ ?_ ?_ hjob
    · rfl
    · simp
  · rw [heq] at hjob
    exact hbusy _ rfl (by simp) hjob

/-- A job of the next state was there before, is a message that just came in,
or is the one an operation of which was just answered. -/
theorem step_jobs {e : Event} (hstep : s.step e = some s') {job : Job env} (hjob : job ∈ s'.jobs) :
    job ∈ s.jobs ∨
      (∃ payload, e.payload? = some payload ∧ job.buffer = receivedText payload ∧
        job.task.history = []) ∨
      ∃ who ok event job₁ task, e = .proceed who ok ∧ s.activity? who = some (.busy job₁) ∧
        job = job₁.withTask task ∧ task.history = job₁.task.history ++ [event] ∧
        event.2 = (answer env ok s.shared event.1).1 := by
  -- A connection that is replaced has the jobs of its new phase.
  have hset : ∀ {i : Nat} {c c' : Conn env} {shared : Shared}, s.conns[i]? = some c →
      job ∈ ({ s with shared, conns := s.conns.set i c' } : Sys env).jobs →
      job ∈ s.jobs ∨ job ∈ c'.jobs := by
    intro i c c' shared hc hin
    obtain ⟨before, after, hold, hset, -⟩ := split_at hc
    have hnew := hset c'
    simp only [jobs, active, hnew, List.mem_append, List.flatMap_append, List.flatMap_cons] at hin
    simp only [jobs, active, hold, List.mem_append, List.flatMap_append, List.flatMap_cons]
    tauto
  cases e with
  | connectFails who => obtain ⟨_, rfl⟩ := connectFails_some hstep; exact .inl hjob
  | datagram cliAddr payload =>
    obtain ⟨loop, hudp, rfl⟩ := datagram_some hstep
    simp only [jobs, active, Activity.jobs, List.mem_append, List.mem_singleton] at hjob
    rcases hjob with hin | rfl | hin
    · exact .inl (List.mem_append_left _ hin)
    · exact .inr (.inl ⟨payload, rfl, rfl, rfl⟩)
    · exact .inl (List.mem_append_right _ (List.mem_append_right _ hin))
  | accept fd cliAddr =>
    obtain ⟨_, rfl⟩ := accept_some hstep
    refine .inl ?_
    simpa [jobs, active, Conn.jobs] using hjob
  | read i payload =>
    obtain ⟨c, hc, ⟨hphase, rfl⟩ | ⟨clientPid, loop, hphase, rfl⟩⟩ := read_some hstep
    · rw [readPid_eq] at hjob
      rcases hset hc hjob with hin | hin
      · exact .inl hin
      · cases hin
    · rcases hset hc hjob with hin | hin
      · exact .inl hin
      · rw [Conn.handle, Conn.jobs_become hphase] at hin
        rw [List.mem_singleton.1 hin]
        exact .inr (.inl ⟨payload, rfl, rfl, rfl⟩)
  | hangup i =>
    obtain ⟨c, hc, ⟨_, rfl⟩ | ⟨_, _, _, rfl⟩⟩ := hangup_some hstep
    · rcases hset hc hjob with hin | hin
      · exact .inl hin
      · cases hin
    · rcases hset hc hjob with hin | hin
      · exact .inl hin
      · cases hin
  | proceed who ok =>
    obtain ⟨job₁, event, task, shared, hact, htask, rfl⟩ := proceed_some hstep
    obtain ⟨_, _, hreply, hhistory, _, _⟩ := Task.step_some htask
    obtain ⟨s₁, hs₁⟩ : ∃ s₁ : Sys env, s₁ = { s with
      shared, log := s.log ++ [⟨who, job₁.origin, job₁.buffer, event⟩] } := ⟨_, rfl⟩
    have hact₁ : s₁.activity? who = some (.busy job₁) := by
      rw [hs₁]
      cases who <;> exact hact
    have hjobs : s₁.jobs = s.jobs := by rw [hs₁]; rfl
    rw [← hs₁] at hjob
    rcases @settle_jobs env s₁ who job₁ job task hact₁ hjob with hold | rfl
    · exact .inl (hjobs ▸ hold)
    · exact .inr (.inr ⟨who, ok, event, job₁, task, rfl, hact, rfl, hhistory, hreply⟩)
  | cleanup timeout => obtain rfl := cleanup_some hstep; exact .inl hjob
  | tick d => obtain rfl := tick_some hstep; exact .inl hjob

/-- A handler's next operation was answered at the end of `past`, when the
handler was on the message `job` is about and `h` was what it had answered. -/
structure AnsweredAt (tables : Tables) (past : List Event) (job : Job env)
    (h : List (Answered Server)) (e : Answered Server) (now : Sys env) : Prop where
  run : (start tables).run past = some now
  job : ∃ who job₁ task, now.activity? who = some (.busy job₁) ∧ job = job₁.withTask task ∧
    job₁.task.history = h
  reply : ∃ ok, e.2 = (answer env ok now.shared e.1).1

/-- **Every answer a job had was given at one moment of the run**, before its
end, by the state the handlers share, while the job was under way. -/
theorem run_answered {tables : Tables} {es : List Event} (hrun : (start tables).run es = some s)
    {job : Job env} (hjob : job ∈ s.jobs) {h h' : List (Answered Server)} {e : Answered Server}
    (hhistory : job.task.history = h ++ e :: h') :
    ∃ past next s₁, past ++ [next] <+: es ∧ AnsweredAt tables past job h e s₁ := by
  have hstart : (start tables : Sys env).run [] = some (start tables) := rfl
  have hempty : ∀ job ∈ (start tables : Sys env).jobs, ∀ h e h', job.task.history = h ++ e :: h' →
      ∃ past' next s₁, past' ++ [next] <+: [] ∧ AnsweredAt tables past' job h e s₁ :=
    fun job hjob => by cases hjob
  refine (runSteps_recorded (J := fun past s => (start tables).run past = some s ∧
    ∀ job ∈ s.jobs, ∀ h e h', job.task.history = h ++ e :: h' →
      ∃ past' next s₁, past' ++ [next] <+: past ∧ AnsweredAt tables past' job h e s₁) ?_
    ⟨hstart, hempty⟩ hrun).2 job hjob h e h' hhistory
  rintro past s e' s' ⟨hpast, hI⟩ hstep
  refine ⟨runSteps_snoc hpast hstep, fun job hjob h e h' hhistory => ?_⟩
  rcases step_jobs hstep hjob with hold | ⟨_, _, _, hnil⟩ |
    ⟨who, ok, event, job₁, task, _, hact, rfl, htask, hreply⟩
  · obtain ⟨past', next, s₁, hprefix, hat⟩ := hI job hold h e h' hhistory
    exact ⟨past', next, s₁, hprefix.trans (List.prefix_append _ _), hat⟩
  · rw [hnil] at hhistory
    exact absurd hhistory (by simp)
  · replace hhistory : task.history = h ++ e :: h' := hhistory
    rcases List.eq_nil_or_concat h' with rfl | ⟨h₁, e₁, rfl⟩
    · obtain ⟨rfl, hlast⟩ := List.append_inj' (htask.symm.trans hhistory) rfl
      cases hlast
      exact ⟨past, e', s, List.prefix_refl _, hpast,
        ⟨who, job₁, task, hact, rfl, rfl⟩, ok, hreply⟩
    · have hbefore : job₁.task.history = h ++ e :: h₁ := by
        have hsplit : job₁.task.history ++ [event] = (h ++ e :: h₁) ++ [e₁] := by
          rw [← htask, hhistory, List.concat_eq_append, List.append_assoc, List.cons_append]
        exact (List.append_inj' hsplit rfl).1
      obtain ⟨past', next, s₁, hprefix, hat⟩ :=
        hI job₁ (List.mem_append_right _ (mem_active hact)) h e h₁ hbefore
      obtain ⟨who', job₂, task', hact', rfl, hh⟩ := hat.job
      exact ⟨past', next, s₁, hprefix.trans (List.prefix_append _ _), hat.run,
        ⟨who', job₂, task, hact', rfl, hh⟩, hat.reply⟩

/-! ## What holds of every job -/

/-- What holds of every handler and every finished message holds of every job. -/
theorem Every.job {P : Option Int → Activity env → Prop} (h : s.Every P) {job : Job env}
    (hjob : job ∈ s.jobs) : ∃ k, P k (.busy job) := by
  have hbusy : ∀ {a : Activity env} {k : Option Int}, P k a → job ∈ a.jobs → P k (.busy job) := by
    intro a k ha hin
    cases a with
    | idle => cases hin
    | busy job' => rw [List.mem_singleton.1 hin]; exact ha
  rcases List.mem_append.1 hjob with hdone | hactive
  · obtain ⟨f, hf, rfl⟩ := List.mem_map.1 hdone
    rcases h.finished f hf with ⟨_, hP⟩ | ⟨_, fd, _, hP⟩
    · exact ⟨none, hP⟩
    · exact ⟨some fd, hP⟩
  · rcases List.mem_append.1 hactive with hudp | htcp
    · exact ⟨none, hbusy h.udp hudp⟩
    · obtain ⟨c, hc, hin⟩ := List.mem_flatMap.1 htcp
      unfold Conn.jobs at hin
      split at hin
      · next pid a hphase => exact ⟨some c.fd, hbusy (h.tcp c hc pid a hphase) hin⟩
      · cases hin

/-- Every job asked only for what it was allowed to. -/
theorem run_kept {tables : Tables} {es : List Event} (hrun : (start tables).run es = some s)
    {job : Job env} (hjob : job ∈ s.jobs) :
    Program.Kept (Asks env job.origin job.buffer) job.task.history := by
  obtain ⟨_, halert, _⟩ := (run_conducted hrun).job hjob
  exact Job.kept halert

end Sys

end LogisticService
