import LogisticService.Server.Conduct
import LogisticService.Server.Steps

/-!
# What holds of every handler in every reachable state

`Sys.Every P` says that `P` holds of what each handler is doing, the UDP
handler (`none`) and that of each connection (`some fd`), and held of each
message handled to completion. `Sys.run_every` proves it of all reachable
states from what a handler does on its own: start, take a message, have an
operation answered, end an iteration. With it the contract of an iteration
holds of every job of every run (`Sys.run_conducted`).
-/

namespace LogisticService

open Effects

/-- Which messages a handler serves: the UDP handler datagrams from anywhere,
a connection's handler what it reads from its socket. -/
def Serves : Option Int → Origin → Prop
  | none, origin => ∃ cliAddr, origin = .udp cliAddr
  | some fd, origin => origin = .tcp fd

section

variable {env : Env}

/-- `P` holds of what every handler does, and held of every finished message. -/
structure Sys.Every (P : Option Int → Activity env → Prop) (s : Sys env) : Prop where
  udp : P none s.udp
  tcp : ∀ c ∈ s.conns, ∀ pid a, c.phase = .serving pid a → P (some c.fd) a
  finished : ∀ f ∈ s.finished, (f.who = .udp ∧ P none (.busy f.job)) ∨
    ∃ i fd, f.who = .tcp i ∧ P (some fd) (.busy f.job)

/-- A handler that starts, takes a message or ends one keeps `P`. -/
structure Stable (P : Option Int → Activity env → Prop) : Prop where
  start : P none (.idle .start)
  register : ∀ fd clientId, P (some fd) (.idle { Loop.start with clientId })
  receive : ∀ k origin buffer loop, Serves k origin → P k (.idle loop) →
    P k (.busy (.begin env origin buffer loop))
  finish : ∀ k (job : Job env) result, P k (.busy job) → job.task.rest = .pure result →
    P k (.idle result)

/-- A job one of whose operations was answered. -/
def Job.withTask (job : Job env) (task : Task (iteration env job.origin job.buffer job.loop)) :
    Job env := { job with task }

/-- `P` does not depend on what was answered. -/
def Steady (P : Option Int → Activity env → Prop) : Prop :=
  ∀ k job task, P k (.busy job) → P k (.busy (job.withTask task))

namespace Sys

variable {s s' : Sys env} {P : Option Int → Activity env → Prop}

theorem activity?_tcp {i : Nat} {a : Activity env} (h : s.activity? (.tcp i) = some a) :
    ∃ c pid, s.conns[i]? = some c ∧ c.phase = .serving pid a := by
  simp only [activity?] at h
  cases hc : s.conns[i]? with
  | none => simp [hc] at h
  | some c =>
    simp only [hc, Option.map_some] at h
    split at h
    · next pid a' hphase =>
      cases h
      exact ⟨c, pid, rfl, Option.some.inj hphase⟩
    · cases h

theorem become_serving {c : Conn env} {a b : Activity env} {pid : Int}
    (h : (c.become a).phase = .serving pid b) : b = a ∧ ∃ a', c.phase = .serving pid a' := by
  unfold Conn.become at h
  split at h
  · next pid' a' hphase => cases h; exact ⟨rfl, a', hphase⟩
  · next hnot => exact absurd h (hnot pid b)

@[simp] theorem become_fd (c : Conn env) (a : Activity env) : (c.become a).fd = c.fd := by
  unfold Conn.become
  split <;> rfl

theorem mem_modify {c : Conn env} {i : Nat} {f : Conn env → Conn env} {cs : List (Conn env)}
    (h : c ∈ cs.modify i f) : c ∈ cs ∨ ∃ c', cs[i]? = some c' ∧ c = f c' := by
  obtain ⟨j, hj⟩ := List.mem_iff_getElem?.1 h
  rw [List.getElem?_modify] at hj
  split at hj
  · next hij =>
    subst hij
    obtain ⟨c', hc', rfl⟩ := Option.map_eq_some_iff.1 hj
    exact .inr ⟨c', hc', rfl⟩
  · exact .inl (List.mem_iff_getElem?.2 ⟨j, by simpa using hj⟩)

/-- The kind of a handler. -/
def IsKind (s : Sys env) : Who → Option Int → Prop
  | .udp, k => k = none
  | .tcp i, k => ∃ c, s.conns[i]? = some c ∧ k = some c.fd

/-- The handler that goes on has what it did before replaced. -/
theorem Every.setActivity {who : Who} {a : Activity env} {k : Option Int} (h : s.Every P)
    (hk : s.IsKind who k) (ha : P k a) : (s.setActivity who a).Every P := by
  cases who with
  | udp => cases hk; exact ⟨ha, h.tcp, h.finished⟩
  | tcp i =>
    refine ⟨h.udp, fun c hc pid b hphase => ?_, h.finished⟩
    rcases mem_modify hc with hold | ⟨c', hc', rfl⟩
    · exact h.tcp c hold pid b hphase
    · obtain ⟨rfl, -⟩ := become_serving hphase
      obtain ⟨c, hc, rfl⟩ := hk
      cases hc.symm.trans hc'
      rw [become_fd]
      exact ha

/-- What the handler of a step is doing, and its kind. -/
theorem Every.active {who : Who} {a : Activity env} (h : s.Every P)
    (ha : s.activity? who = some a) : ∃ k, s.IsKind who k ∧ P k a := by
  cases who with
  | udp => exact ⟨none, rfl, Option.some.inj ha ▸ h.udp⟩
  | tcp i =>
    obtain ⟨c, pid, hc, hphase⟩ := activity?_tcp ha
    exact ⟨some c.fd, ⟨c, hc, rfl⟩, h.tcp c (List.mem_of_getElem? hc) pid a hphase⟩

theorem Every.settle {who : Who} {job : Job env} {k : Option Int} (hP : Stable P) (h : s.Every P)
    (hk : s.IsKind who k) (hjob : P k (.busy job)) : (s.settle who job).Every P := by
  rcases settle_cases s who job with ⟨_, _, _, heq⟩ | ⟨result, hdone, heq⟩ | ⟨_, _, heq⟩
  · rw [heq]; exact h.setActivity hk hjob
  · have hset := h.setActivity hk (hP.finish k job result hjob hdone)
    rw [heq]
    refine ⟨hset.udp, hset.tcp, fun f hf => ?_⟩
    rcases List.mem_append.1 hf with hold | hnew
    · exact h.finished f hold
    · rw [List.mem_singleton.1 hnew]
      cases who with
      | udp => cases hk; exact .inl ⟨rfl, hjob⟩
      | tcp i => obtain ⟨c, _, rfl⟩ := hk; exact .inr ⟨i, c.fd, rfl, hjob⟩
  · have hset := h.setActivity hk hjob
    rw [heq]
    exact ⟨hset.udp, hset.tcp, hset.finished⟩

/-- One connection is replaced. -/
theorem Every.set {i : Nat} {c : Conn env} {shared : Shared} (h : s.Every P)
    (hc : ∀ pid a, c.phase = .serving pid a → P (some c.fd) a) :
    ({ s with shared, conns := s.conns.set i c } : Sys env).Every P := by
  refine ⟨h.udp, fun c' hc' pid a hphase => ?_, h.finished⟩
  rcases List.mem_or_eq_of_mem_set hc' with hold | rfl
  · exact h.tcp c' hold pid a hphase
  · exact hc pid a hphase

/-- One step keeps `P`, if the operation it answers does. -/
theorem Every.step (hP : Stable P) (h : s.Every P) {e : Event} (hstep : s.step e = some s')
    (hans : ∀ who ok k job event task shared, e = .proceed who ok → s.IsKind who k →
      s.activity? who = some (.busy job) → P k (.busy job) →
      job.task.step (answer env ok) s.shared = some (event, task, shared) →
      P k (.busy (job.withTask task))) : s'.Every P := by
  cases e with
  | connectFails who =>
    obtain ⟨_, rfl⟩ := connectFails_some hstep
    exact ⟨h.udp, h.tcp, h.finished⟩
  | datagram cliAddr payload =>
    obtain ⟨loop, hudp, rfl⟩ := datagram_some hstep
    exact ⟨hP.receive none _ _ loop ⟨cliAddr, rfl⟩ (hudp ▸ h.udp), h.tcp, h.finished⟩
  | accept fd cliAddr =>
    obtain ⟨_, rfl⟩ := accept_some hstep
    refine ⟨h.udp, fun c hc pid a hphase => ?_, h.finished⟩
    rcases List.mem_append.1 hc with hold | hnew
    · exact h.tcp c hold pid a hphase
    · rw [List.mem_singleton.1 hnew] at hphase; cases hphase
  | read i payload =>
    obtain ⟨c, hc, ⟨_, hs'⟩ | ⟨pid, loop, hphase, rfl⟩⟩ := read_some hstep
    · rw [hs', readPid_eq]
      refine h.set fun pid a hserving => ?_
      rw [registered_serving hserving]
      exact hP.register _ _
    · refine h.set fun pid' a hserving => ?_
      obtain ⟨rfl, -⟩ := become_serving hserving
      rw [Conn.handle, become_fd]
      exact hP.receive _ _ _ loop rfl (h.tcp c (List.mem_of_getElem? hc) pid _ hphase)
  | hangup i =>
    obtain ⟨c, hc, ⟨_, rfl⟩ | ⟨_, _, _, rfl⟩⟩ := hangup_some hstep
    · exact h.set fun pid a hserving => by cases hserving
    · exact h.set fun pid a hserving => by cases hserving
  | proceed who ok =>
    obtain ⟨job, event, task, shared, hact, htask, rfl⟩ := proceed_some hstep
    obtain ⟨k, hk, hjob⟩ := h.active hact
    refine Every.settle hP ⟨h.udp, h.tcp, h.finished⟩ ?_
      (hans who ok k job event task shared rfl hk hact hjob htask)
    cases who <;> exact hk
  | cleanup timeout => obtain rfl := cleanup_some hstep; exact ⟨h.udp, h.tcp, h.finished⟩
  | tick d => obtain rfl := tick_some hstep; exact ⟨h.udp, h.tcp, h.finished⟩

theorem start_every (hP : Stable P) (tables : Tables) : (start tables : Sys env).Every P where
  udp := hP.start
  tcp _ hc := absurd hc List.not_mem_nil
  finished _ hf := absurd hf List.not_mem_nil

/-- **What every handler keeps on its own holds in every reachable state.** -/
theorem run_every (hP : Stable P) (hsteady : Steady P) {tables : Tables} {es : List Event}
    (hrun : (start tables).run es = some s) : s.Every P :=
  runSteps_invariant (fun _ _ _ h hstep => h.step hP hstep
    fun _ _ k job _ task _ _ _ _ hjob _ => hsteady k job task hjob) (start_every hP tables) hrun

end Sys

/-! ## The contract along a run -/

/-- The loop variables hold an alert string, and a handler serves its own kind
of messages. -/
def Conducted (env : Env) (k : Option Int) (a : Activity env) : Prop :=
  AlertOk env a.loop ∧ match a with
    | .idle _ => True
    | .busy job => Serves k job.origin

theorem Job.ends {job : Job env} {result : Loop} (halert : AlertOk env job.loop)
    (hdone : job.task.rest = .pure result) :
    IterationEnds env job.origin job.buffer job.loop job.task.history result :=
  (iteration_conducts halert).result (Task.leads_pure hdone) fun _ _ => trivial

/-- What a job has asked for so far it was allowed to. -/
theorem Job.kept {job : Job env} (halert : AlertOk env job.loop) :
    Program.Kept (Asks env job.origin job.buffer) job.task.history := by
  simpa using (iteration_conducts halert).kept job.task.leads (fun _ _ => trivial)
    Program.Kept.nil

theorem conducted_stable : Stable (Conducted env) where
  start := ⟨.inl rfl, trivial⟩
  register _ _ := ⟨.inl rfl, trivial⟩
  receive _ _ _ _ hserves h := ⟨h.1, hserves⟩
  finish _ _ _ h hdone := ⟨(Job.ends h.1 hdone).alert, trivial⟩

theorem conducted_steady : Steady (Conducted env) := fun _ _ _ h => h

/-- The contract is kept by every step. -/
theorem Sys.Every.step_conducted {s s' : Sys env} (h : s.Every (Conducted env)) {e : Event}
    (hstep : s.step e = some s') : s'.Every (Conducted env) :=
  h.step conducted_stable hstep fun _ _ k job _ task _ _ _ _ hjob _ =>
    conducted_steady k job task hjob

/-- An operation that is answered is one its handler may ask for. -/
theorem Sys.proceed_asks {s s' : Sys env} {who : Who} {ok : Bool} (h : s.Every (Conducted env))
    (hstep : s.step (.proceed who ok) = some s') :
    ∃ (job : Job env) (o : Operation), s.activity? who = some (.busy job) ∧
      job.task.next? = some o ∧ Asks env job.origin job.buffer job.task.history o ∧
      s'.shared = (answer env ok s.shared o).2 := by
  obtain ⟨job, event, task, shared, hact, htask, rfl⟩ := proceed_some hstep
  obtain ⟨k, hrest, _, _, _, rfl⟩ := Task.step_some htask
  obtain ⟨_, _, halert, _⟩ := h.active hact
  refine ⟨job, event.1, hact, Task.next?_of_call hrest, ?_, settle_shared _ _⟩
  exact (iteration_conducts halert).issued (Task.leads_call hrest) fun _ _ => trivial

theorem Sys.run_conducted {s : Sys env} {tables : Tables} {es : List Event}
    (hrun : (Sys.start tables).run es = some s) : s.Every (Conducted env) :=
  Sys.run_every conducted_stable conducted_steady hrun

end

end LogisticService
