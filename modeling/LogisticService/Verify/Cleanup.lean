import LogisticService.Order.Sample
import LogisticService.Server.Grants
import LogisticService.Server.Steps

/-!
# Whom the cleanup removes

The cleanup is meant for clients that sent nothing within its timeout, but the
time it looks at is set when a client is registered and never again. A run is
watched here with two records beside it: when a datagram came from which
address, and when which PID was entered into the UDP map. The time stored in an
entry is that of the latest registration of its PID, so the cleanup keeps the
clients that are active just as long as their registration is recent.
-/

namespace LogisticService

open Effects

/-- A running server, the datagrams it received and the registrations it made. -/
structure Watched (env : Env) where
  sys : Sys env
  heard : List (SockAddr × Int)
  registered : List (Int × Int)

/-- The PID that a registration attempt names. -/
def Logged.attempt? (l : Logged) : Option Int :=
  match l.event.1 with
  | .registerClient pid _ _ _ => some pid
  | _ => none

section

variable {env : Env}

def Sys.udpEntry (s : Sys env) (pid : Int) : Option ClientInfo :=
  s.shared.clients.clientMapUdp[pid]?

/-- The PID a step entered into the UDP map, if it did. -/
def registeredBy (s s' : Sys env) : Option Int :=
  (((s'.log.drop s.log.length).head?).bind Logged.attempt?).filter fun pid =>
    (s.udpEntry pid).isNone && (s'.udpEntry pid).isSome

namespace Watched

def start (tables : Tables) : Watched env := ⟨.start tables, [], []⟩

def clock (w : Watched env) : Int := w.sys.shared.clock

def step (w : Watched env) (e : Event) : Option (Watched env) :=
  (w.sys.step e).map fun s' =>
    { sys := s'
      heard := match e with
        | .datagram cliAddr _ => w.heard ++ [(cliAddr, w.clock)]
        | _ => w.heard
      registered := w.registered ++ (registeredBy w.sys s').toList.map fun pid => (pid, w.clock) }

/-- A datagram came from this address within the timeout. -/
def HeardFrom (w : Watched env) (timeout : Int) (addr : SockAddr) : Prop :=
  ∃ t, (addr, t) ∈ w.heard ∧ w.clock ≤ t + timeout

/-- A cleanup pass removes no client that was heard from within its timeout. -/
def KeepsActive (w : Watched env) : Event → Prop
  | .cleanup timeout => ∀ pid info, w.sys.udpEntry pid = some info →
    w.HeardFrom timeout info.addr → (w.sys.cleanup timeout).udpEntry pid = some info
  | _ => True

/-- At a cleanup pass, every client that was heard from within the timeout was
also registered within it. -/
def ActiveAreRecent (w : Watched env) : Event → Prop
  | .cleanup timeout => ∀ pid info, w.sys.udpEntry pid = some info →
    w.HeardFrom timeout info.addr → ∃ t, (pid, t) ∈ w.registered ∧ w.clock ≤ t + timeout
  | _ => True

/-- The time in an entry is that of the latest registration of its PID. -/
structure Dated (w : Watched env) : Prop where
  entered : ∀ pid info, w.sys.udpEntry pid = some info → (pid, info.lastSeen) ∈ w.registered
  latest : ∀ pid info t, w.sys.udpEntry pid = some info → (pid, t) ∈ w.registered →
    t ≤ info.lastSeen
  past : ∀ pid t, (pid, t) ∈ w.registered → t ≤ w.clock

end Watched

/-! ## What a step does to the UDP map -/

/-- What one operation does to the UDP map: an attempt to register may add an
entry for its PID, dated now, and nothing else changes the map. -/
theorem answer_udp (ok : Bool) (s : Shared) (o : Operation) :
    (answer env ok s o).2.clients.clientMapUdp = s.clients.clientMapUdp ∨
      ∃ pid protocol addr socketFd info, o = .registerClient pid protocol addr socketFd ∧
        s.clients.clientMapUdp[pid]? = none ∧ info.lastSeen = s.clock ∧
        (answer env ok s o).2.clients.clientMapUdp = s.clients.clientMapUdp.insert pid info := by
  cases o with
  | registerClient pid protocol addr socketFd =>
    by_cases hknown : ∃ p : Protocol, protocol = p.name
    · obtain ⟨p, rfl⟩ := hknown
      obtain ⟨hothers, hcases⟩ :=
        s.clients.registerClient_cases s.clock pid p addr socketFd
      cases p with
      | tcp => exact .inl (hothers .udp (by decide)).1
      | udp =>
        rcases hcases with hr | ⟨_, hmap, _⟩ | ⟨hnew, _, _, _, hmap⟩
        · left
          show (s.clients.registerClient s.clock pid _ addr socketFd).2.clientMapUdp = _
          rw [hr]
        · exact .inl hmap
        · exact .inr ⟨pid, _, addr, socketFd, _, rfl, hnew, rfl, hmap⟩
    · left
      have hunknown : ∀ p : Protocol, protocol ≠ p.name := fun p hp => hknown ⟨p, hp⟩
      show (s.clients.registerClient s.clock pid protocol addr socketFd).2.clientMapUdp = _
      rw [Registry.registerClient_unknown s.clients s.clock pid addr socketFd hunknown]
  | _ => exact .inl rfl

/-- No operation takes time. -/
theorem answer_clock (ok : Bool) (s : Shared) (o : Operation) :
    (answer env ok s o).2.clock = s.clock := by
  cases o <;> rfl

theorem registeredBy_same {s s' : Sys env}
    (h : s'.shared.clients.clientMapUdp = s.shared.clients.clientMapUdp) :
    registeredBy s s' = none := by
  unfold registeredBy
  refine Option.filter_eq_none_iff.2 fun pid _ => ?_
  have hentry : s'.udpEntry pid = s.udpEntry pid := by
    unfold Sys.udpEntry
    rw [h]
  rw [hentry]
  cases s.udpEntry pid <;> simp

theorem registeredBy_new {s s' : Sys env} {l : Logged} {pid : Int} (hlog : s'.log = s.log ++ [l])
    (hl : l.attempt? = some pid) (hold : s.udpEntry pid = none)
    (hnew : (s'.udpEntry pid).isSome = true) : registeredBy s s' = some pid := by
  unfold registeredBy
  rw [hlog, List.drop_left, List.head?_cons, Option.bind_some, hl]
  simp [Option.filter, hold, hnew]

/-- What a step does to the UDP map and the clock. -/
theorem Sys.step_udp {s s' : Sys env} {e : Event} (h : s.step e = some s') :
    (s'.shared.clients.clientMapUdp = s.shared.clients.clientMapUdp ∧
        s.shared.clock ≤ s'.shared.clock) ∨
      (∃ timeout, e = .cleanup timeout ∧ s' = s.cleanup timeout) ∨
      ∃ pid info, s.udpEntry pid = none ∧ info.lastSeen = s.shared.clock ∧
        s'.shared.clients.clientMapUdp = s.shared.clients.clientMapUdp.insert pid info ∧
        registeredBy s s' = some pid ∧ s'.shared.clock = s.shared.clock := by
  cases e with
  | connectFails who =>
    obtain ⟨_, rfl⟩ := connectFails_some h
    exact .inl ⟨rfl, Int.le_refl _⟩
  | datagram cliAddr payload =>
    obtain ⟨_, _, rfl⟩ := datagram_some h
    exact .inl ⟨rfl, Int.le_refl _⟩
  | accept fd cliAddr =>
    obtain ⟨_, rfl⟩ := accept_some h
    exact .inl ⟨rfl, Int.le_refl _⟩
  | read i payload =>
    obtain ⟨c, _, ⟨_, hs'⟩ | ⟨_, _, _, rfl⟩⟩ := read_some h
    · have hmap : (s.registration c (atoi (receivedText payload))).2.clientMapUdp =
          s.shared.clients.clientMapUdp := by
        unfold registration
        split
        · exact ((s.shared.clients.registerClient_cases s.shared.clock
            (atoi (receivedText payload)) .tcp c.cliAddr c.fd).1 .udp (by decide)).1
        · rfl
      rw [readPid_eq] at hs'
      generalize s.registration c (atoi (receivedText payload)) = granted at hs' hmap
      subst hs'
      exact .inl ⟨hmap, Int.le_refl _⟩
    · exact .inl ⟨rfl, Int.le_refl _⟩
  | hangup i =>
    obtain ⟨c, _, ⟨_, rfl⟩ | ⟨pid, _, _, rfl⟩⟩ := hangup_some h
    · exact .inl ⟨rfl, Int.le_refl _⟩
    · refine .inl ⟨?_, Int.le_refl _⟩
      by_cases hpid : pid ≠ 0
      · simp only [if_pos hpid]
        rfl
      · simp only [if_neg hpid]
  | proceed who ok =>
    obtain ⟨job, event, task, shared, _, hstep, rfl⟩ := proceed_some h
    obtain ⟨_, _, _, _, _, rfl⟩ := Task.step_some hstep
    have hclock := @answer_clock env ok s.shared event.1
    rw [settle_shared]
    obtain hsame | ⟨pid, protocol, addr, fd, info, hop, hnew, hdate, hmap⟩ :=
      answer_udp ok s.shared event.1
    · exact .inl ⟨hsame, Int.le_of_eq hclock.symm⟩
    · refine .inr (.inr ⟨pid, info, hnew, hdate, hmap, ?_, hclock⟩)
      have hattempt : (⟨who, job.origin, job.buffer, event⟩ : Logged).attempt? = some pid := by
        unfold Logged.attempt?
        simp only [hop]
      refine registeredBy_new (by rw [settle_log]) hattempt hnew ?_
      unfold udpEntry
      rw [settle_shared, hmap, ClientMap.insert_get.2 (.inl ⟨rfl, rfl⟩)]
      rfl
  | cleanup timeout => exact .inr (.inl ⟨timeout, rfl, cleanup_some h⟩)
  | tick d =>
    obtain rfl := tick_some h
    refine .inl ⟨rfl, ?_⟩
    show s.shared.clock ≤ s.shared.clock + d
    omega

end

/-! ## Whole runs -/

namespace Watched

variable {env : Env} {w w' : Watched env}

theorem start_dated (tables : Tables) : (start tables : Watched env).Dated where
  entered pid info h := by simp [start, Sys.start, Sys.udpEntry, Shared.start, Registry.start] at h
  latest pid info t _ ht := absurd ht List.not_mem_nil
  past pid t ht := absurd ht List.not_mem_nil

/-- Without a registration entries may go, and time may pass. -/
theorem Dated.fewer (h : w.Dated) (hregistered : w'.registered = w.registered)
    (hkept : ∀ pid info, w'.sys.udpEntry pid = some info → w.sys.udpEntry pid = some info)
    (hclock : w.clock ≤ w'.clock) : w'.Dated := by
  refine ⟨?_, ?_, ?_⟩
  · intro pid info hget
    rw [hregistered]
    exact h.entered pid info (hkept pid info hget)
  · intro pid info t hget ht
    rw [hregistered] at ht
    exact h.latest pid info t (hkept pid info hget) ht
  · intro pid t ht
    rw [hregistered] at ht
    exact Int.le_trans (h.past pid t ht) hclock

/-- A new registration is dated now, later than all the others. -/
theorem Dated.more (h : w.Dated) {pid : Int} {info : ClientInfo}
    (hregistered : w'.registered = w.registered ++ [(pid, w.clock)])
    (hget : ∀ k x, w'.sys.udpEntry k = some x ↔
      (k = pid ∧ x = info) ∨ (k ≠ pid ∧ w.sys.udpEntry k = some x))
    (hdate : info.lastSeen = w.clock) (hclock : w'.clock = w.clock) : w'.Dated := by
  have hmem : ∀ k t, (k, t) ∈ w'.registered ↔
      (k, t) ∈ w.registered ∨ (k = pid ∧ t = w.clock) := by
    intro k t
    simp [hregistered]
  refine ⟨?_, ?_, ?_⟩
  · intro k x hentry
    refine (hmem k _).2 ?_
    rcases (hget k x).1 hentry with ⟨rfl, rfl⟩ | ⟨_, hold⟩
    · exact .inr ⟨rfl, hdate⟩
    · exact .inl (h.entered k x hold)
  · intro k x t hentry ht
    rcases (hget k x).1 hentry with ⟨rfl, rfl⟩ | ⟨hne, hold⟩
    · rw [hdate]
      rcases (hmem k t).1 ht with ht | ⟨_, rfl⟩
      · exact h.past k t ht
      · exact Int.le_refl _
    · rcases (hmem k t).1 ht with ht | ⟨heq, _⟩
      · exact h.latest k x t hold ht
      · exact absurd heq hne
  · intro k t ht
    rw [hclock]
    rcases (hmem k t).1 ht with ht | ⟨_, rfl⟩
    · exact h.past k t ht
    · exact Int.le_refl _

/-- What a step leaves of the records and the entries. -/
theorem Dated.step (h : w.Dated) {e : Event} (hstep : w.step e = some w') : w'.Dated := by
  obtain ⟨s', hs, rfl⟩ := Option.map_eq_some_iff.1 hstep
  obtain ⟨hmap, hclock⟩ | ⟨timeout, rfl, rfl⟩ | ⟨pid, info, hnew, hdate, hmap, hby, hclock⟩ :=
    Sys.step_udp hs
  · refine h.fewer ?_ (fun pid info hget => ?_) hclock
    · simp [registeredBy_same hmap]
    · unfold Sys.udpEntry at hget ⊢
      rwa [hmap] at hget
  · refine h.fewer ?_ (fun pid info hget => (ClientMap.filter_get.1 hget).1) (Int.le_refl _)
    have hnone : registeredBy w.sys (w.sys.cleanup timeout) = none := by
      unfold registeredBy
      show (((w.sys.log.drop w.sys.log.length).head?).bind _).filter _ = none
      rw [List.drop_length]
      rfl
    simp [hnone]
  · have hregistered : w.registered ++ (registeredBy w.sys s').toList.map
        (fun pid => (pid, w.clock)) = w.registered ++ [(pid, w.clock)] := by
      rw [hby]
      rfl
    refine h.more hregistered (fun k x => ?_) hdate hclock
    unfold Sys.udpEntry
    rw [hmap, ClientMap.insert_get]

/-- A pass keeps an entry that is recent enough, and no other. -/
theorem cleanup_keeps {pid : Int} {info : ClientInfo} {timeout : Int}
    (hget : w.sys.udpEntry pid = some info) :
    (w.sys.cleanup timeout).udpEntry pid = some info ↔ w.clock ≤ info.lastSeen + timeout := by
  have hfilter : (w.sys.cleanup timeout).udpEntry pid = some info ↔
      w.sys.udpEntry pid = some info ∧ (!(w.clock - info.lastSeen > timeout : Bool)) = true :=
    ClientMap.filter_get
  rw [hfilter]
  simp only [hget, true_and, Bool.not_eq_true', decide_eq_false_iff_not]
  omega

/-- **Active clients are kept just as long as they are recent**: in every run,
the cleanup passes remove no client that was heard from within their timeout
exactly when each such client was registered within it. -/
theorem active_kept_iff (tables : Tables) (es : List Event) :
    Along Watched.step KeepsActive (start tables : Watched env) es ↔
      Along Watched.step ActiveAreRecent (start tables : Watched env) es := by
  refine Along.congr (I := Dated) (fun _ _ _ h hstep => h.step hstep) ?_ (start_dated tables)
  intro w e hdated
  cases e with
  | cleanup timeout =>
    constructor
    · intro hkeeps pid info hget hheard
      have hrecent := (cleanup_keeps hget).1 (hkeeps pid info hget hheard)
      exact ⟨info.lastSeen, hdated.entered pid info hget, hrecent⟩
    · intro hrecent pid info hget hheard
      obtain ⟨t, ht, hle⟩ := hrecent pid info hget hheard
      have hlatest := hdated.latest pid info t hget ht
      exact (cleanup_keeps hget).2 (by omega)
  | _ => exact Iff.rfl

/-! ## A client removed while it is active -/

def writerAddr : SockAddr := ⟨⟨127, 0, 0, 1⟩, 5000⟩

/-- A client registers, and writes fifty seconds later. -/
def writingEvents : List Event :=
  [.datagram writerAddr "7", .proceed .udp true, .proceed .udp true, .tick 50,
    .datagram writerAddr "LIST_CLIENTS", .tick 20]

def writerEntry : ClientInfo :=
  { clientId := 1, socketFd := 0, addr := writerAddr, ipAddress := "127.0.0.1", protocol := "UDP",
    lastSeen := 0 }

theorem writingEvents_run :
    (runSteps Watched.step (start (waterTables 0) : Watched (.reading [])) writingEvents).map
      (fun w => (w.sys.udpEntry 7, w.heard, w.clock, w.sys.crashed)) =
        some (some writerEntry, [(writerAddr, 0), (writerAddr, 50)], 70, false) := by
  decide +kernel

/-- Seventy seconds after the registration, a pass with a timeout of sixty
removes the client that wrote twenty seconds ago. -/
theorem active_removed : ¬ ∀ (env : Env) (tables : Tables) (es : List Event),
    Along Watched.step KeepsActive (start tables : Watched env) es := by
  intro h
  obtain ⟨w, hrun, hfacts⟩ := Option.map_eq_some_iff.1 writingEvents_run
  simp only [Prod.mk.injEq] at hfacts
  obtain ⟨hentry, hheard, hclock, halive⟩ := hfacts
  have hcleanup : w.sys.step (.cleanup 60) = some (w.sys.cleanup 60) := by
    unfold Sys.step
    rw [halive]
    rfl
  obtain ⟨w', hstep⟩ : ∃ w', w.step (.cleanup 60) = some w' := by
    unfold step
    rw [hcleanup]
    exact ⟨_, rfl⟩
  have hkeeps := (h _ _ (writingEvents ++ [.cleanup 60])).last hrun hstep
  have hactive : w.HeardFrom 60 writerEntry.addr := ⟨50, by rw [hheard]; decide, by omega⟩
  have hrecent := (cleanup_keeps hentry).1 (hkeeps 7 writerEntry hentry hactive)
  rw [hclock] at hrecent
  exact absurd hrecent (by decide)

end Watched

end LogisticService
