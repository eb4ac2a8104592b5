import LogisticService.Order.Sample
import LogisticService.Server.Sessions

/-!
# Entries of the TCP map and their sockets

Every entry of the TCP map belongs to an open connection, which announced the
entry's PID (`no_dangling_entry`). The converse fails: a connection that was
refused because another one holds its PID erases the other's entry when it
disconnects. `Sessions.Respected` is the exact condition on a step under which
every registered connection keeps its entry (`registered_reachable_iff`).
-/

namespace LogisticService

open Effects

namespace Sessions

variable {S S' : Sessions} {e : Event}

/-- No two open connections share a socket. -/
def Distinct (conns : List Session) : Prop :=
  ∀ (i j : Nat) c c', conns[i]? = some c → conns[j]? = some c' → c.stage ≠ .closed →
    c'.stage ≠ .closed → c.fd = c'.fd → i = j

/-- Every entry belongs to a connection that serves under its PID and id. -/
structure Owned (S : Sessions) : Prop where
  entry : ∀ (pid : Int) info, S.clients[pid]? = some info →
    pid ≠ 0 ∧ ⟨info.socketFd, .serving pid info.clientId⟩ ∈ S.conns
  distinct : Distinct S.conns

theorem mem_set_of_ne (c' : Session) {c x : Session} {i : Nat} {cs : List Session}
    (hi : cs[i]? = some c) (hx : x ∈ cs) (hne : x ≠ c) : x ∈ cs.set i c' := by
  obtain ⟨j, hj⟩ := List.mem_iff_getElem?.1 hx
  refine List.mem_iff_getElem?.2 ⟨j, ?_⟩
  rw [List.getElem?_set_ne, hj]
  rintro rfl
  exact hne (Option.some.inj (hj.symm.trans hi))

theorem mem_set_self {c c' : Session} {i : Nat} {cs : List Session} (hi : cs[i]? = some c) :
    c' ∈ cs.set i c' := by
  refine List.mem_iff_getElem?.2 ⟨i, ?_⟩
  obtain ⟨hlt, _⟩ := List.getElem?_eq_some_iff.1 hi
  exact List.getElem?_set_self hlt

/-- An open connection that goes on keeps its socket to itself. -/
theorem Distinct.set {conns : List Session} (h : Distinct conns) {i : Nat} {fd : Int}
    {stage stage' : Stage} (hi : conns[i]? = some ⟨fd, stage⟩) (hopen : stage ≠ .closed) :
    Distinct (conns.set i ⟨fd, stage'⟩) := by
  -- Each open connection of the new list was open, with its socket, in the old one.
  have hold : ∀ {j : Nat} {c : Session}, (conns.set i ⟨fd, stage'⟩)[j]? = some c →
      c.stage ≠ .closed → ∃ c₀, conns[j]? = some c₀ ∧ c₀.stage ≠ .closed ∧ c₀.fd = c.fd := by
    intro j c hj hc
    rw [List.getElem?_set] at hj
    split at hj
    · next hij =>
      subst hij
      split at hj
      · cases hj; exact ⟨_, hi, hopen, rfl⟩
      · cases hj
    · exact ⟨c, hj, hc, rfl⟩
  intro j k c c' hj hk hc hc' hfd
  obtain ⟨c₀, hj₀, hc₀, hfd₀⟩ := hold hj hc
  obtain ⟨c₁, hk₁, hc₁, hfd₁⟩ := hold hk hc'
  exact h j k c₀ c₁ hj₀ hk₁ hc₀ hc₁ (hfd₀.trans (hfd.trans hfd₁.symm))

/-- A new connection comes with a socket that no open one has. -/
theorem Distinct.append {conns : List Session} (h : Distinct conns) {c : Session}
    (hfree : ∀ x ∈ conns, x.stage ≠ .closed → x.fd ≠ c.fd) : Distinct (conns ++ [c]) := by
  have hcases : ∀ {j : Nat} {x : Session}, (conns ++ [c])[j]? = some x →
      conns[j]? = some x ∨ (j = conns.length ∧ x = c) := by
    intro j x hj
    rcases Nat.lt_or_ge j conns.length with hlt | hge
    · exact .inl (by rwa [List.getElem?_append_left hlt] at hj)
    · rw [List.getElem?_append_right hge] at hj
      obtain ⟨hlt, hx⟩ := List.getElem?_eq_some_iff.1 hj
      simp only [List.length_singleton] at hlt
      exact .inr ⟨by omega, by simpa using hx.symm⟩
  intro j k x y hj hk hx hy hfd
  rcases hcases hj with hold | ⟨hlast, hnew⟩ <;> rcases hcases hk with hold' | ⟨hlast', hnew'⟩
  · exact h j k x y hold hold' hx hy hfd
  · exact absurd (hnew' ▸ hfd) (hfree x (List.mem_of_getElem? hold) hx)
  · exact absurd (hnew ▸ hfd.symm) (hfree y (List.mem_of_getElem? hold') hy)
  · exact hlast.trans hlast'.symm

/-- Whatever happens, entries keep belonging to open connections. -/
theorem Moves.owned (h : S.Moves e S') (hO : S.Owned) : S'.Owned := by
  cases h with
  | stays => exact hO
  | accepts fd cliAddr hfree =>
    refine ⟨fun pid info hget => ?_, hO.distinct.append hfree⟩
    obtain ⟨hpid, hin⟩ := hO.entry pid info hget
    exact ⟨hpid, List.mem_append_left _ hin⟩
  | registers i payload info hi hgranted hid =>
    refine ⟨fun pid x hget => ?_, hO.distinct.set hi (by simp)⟩
    rcases ClientMap.insert_get.1 hget with ⟨rfl, rfl⟩ | ⟨_, hold⟩
    · exact ⟨hgranted.1, mem_set_self hi⟩
    · obtain ⟨hpid, hin⟩ := hO.entry pid x hold
      exact ⟨hpid, mem_set_of_ne _ hi hin (by simp)⟩
  | refuses i payload fd clientId nextId hi hrefused hid =>
    refine ⟨fun pid x hget => ?_, hO.distinct.set hi (by simp)⟩
    obtain ⟨hpid, hin⟩ := hO.entry pid x hget
    exact ⟨hpid, mem_set_of_ne _ hi hin (by simp)⟩
  | leaves i fd hi =>
    refine ⟨fun pid x hget => ?_, ?_⟩
    · obtain ⟨hpid, hin⟩ := hO.entry pid x hget
      rcases hi with hi | ⟨_, hi⟩
      · exact ⟨hpid, mem_set_of_ne _ hi hin (by simp)⟩
      · exact ⟨hpid, mem_set_of_ne _ hi hin (by simp [hpid])⟩
    · rcases hi with hi | ⟨_, hi⟩ <;> exact hO.distinct.set hi (by simp)
  | disconnects i fd pid clientId hi hpid =>
    refine ⟨fun k x hget => ?_, hO.distinct.set hi (by simp)⟩
    obtain ⟨hne, hold⟩ := ClientMap.erase_get.1 hget
    obtain ⟨hk, hin⟩ := hO.entry k x hold
    exact ⟨hk, mem_set_of_ne _ hi hin (by simp [hne])⟩

/-- A connection keeps serving until a hangup. -/
theorem Moves.serving (h : S.Moves e S') (hhangup : ∀ i, e ≠ .hangup i) {fd pid clientId : Int}
    (hin : ⟨fd, .serving pid clientId⟩ ∈ S.conns) : ⟨fd, .serving pid clientId⟩ ∈ S'.conns := by
  cases h with
  | stays => exact hin
  | accepts => exact List.mem_append_left _ hin
  | registers i payload info hi _ _ => exact mem_set_of_ne _ hi hin (by simp)
  | refuses i payload fd clientId nextId hi _ _ => exact mem_set_of_ne _ hi hin (by simp)
  | leaves i => exact absurd rfl (hhangup i)
  | disconnects i => exact absurd rfl (hhangup i)

end Sessions

/-! ## No dangling entry -/

section

variable {env : Env}

/-- An open connection with this socket announced this PID. -/
def Sys.Holds (s : Sys env) (pid fd : Int) : Prop :=
  ∃ c ∈ s.conns, c.fd = fd ∧ c.isOpen = true ∧ ∃ a, c.phase = .serving pid a

/-- A forward that looks up its target in this state and goes on to write,
writes to the socket of an open connection that announced the target's PID. At
most a hangup between the lookup and the write can change that. -/
def Sys.ForwardsOpen (s : Sys env) : Prop :=
  ∀ message clientId protocol ok fd text k,
    Program.Leads (forwardMessageToClient message clientId protocol)
      [⟨.findClientById clientId protocol,
        (answer env ok s.shared (.findClientById clientId protocol)).1⟩]
      (.call (.write fd text) k) →
    ∃ (pid : Int) (info : ClientInfo), s.shared.clients.clientMapTcp[pid]? = some info ∧
      info.clientId = clientId ∧
      ∀ es s', s.run es = some s' → (∀ i, Event.hangup i ∉ es) → s'.Holds pid fd

theorem Sys.holds_of_session {s : Sys env} {pid fd clientId : Int}
    (h : ⟨fd, .serving pid clientId⟩ ∈ s.sessions.conns) : s.Holds pid fd := by
  obtain ⟨c, hc, hsession⟩ := List.mem_map.1 h
  obtain ⟨rfl, hstage⟩ := Session.mk.inj hsession
  refine ⟨c, hc, rfl, Conn.isOpen_iff.2 (by simp [Conn.session, hstage]), ?_⟩
  cases hphase : c.phase with
  | serving pid' a => rw [hphase] at hstage; cases hstage; exact ⟨a, rfl⟩
  | _ => rw [hphase] at hstage; cases hstage

/-- The sessions of every reachable state own their entries. -/
theorem Sys.run_owned {tables : Tables} {es : List Event} {s : Sys env}
    (hrun : (Sys.start tables).run es = some s) :
    s.Every (Conducted env) ∧ s.sessions.Owned := by
  refine runSteps_invariant (I := fun s => s.Every (Conducted env) ∧ s.sessions.Owned) ?_
    ⟨start_every conducted_stable tables, fun _ _ h => ?_, fun _ _ _ _ h => ?_⟩ hrun
  · exact fun _ _ _ ⟨hI, hO⟩ h => ⟨hI.step_conducted h, (step_moves hI h).owned hO⟩
  · simp [sessions, start, Shared.start, Registry.start] at h
  · simp [sessions, start] at h

/-- A connection serves on as long as nobody hangs up. -/
theorem Sys.run_holds {s s' : Sys env} {es : List Event} {pid fd clientId : Int}
    (hI : s.Every (Conducted env)) (hin : ⟨fd, .serving pid clientId⟩ ∈ s.sessions.conns)
    (hrun : s.run es = some s') (hhangup : ∀ i, Event.hangup i ∉ es) : s'.Holds pid fd := by
  have hC : Along Sys.step (fun _ e => ∀ i, e ≠ Event.hangup i) s es :=
    Along.of_forall (C := fun e => ∀ i, e ≠ Event.hangup i) fun e he i heq => hhangup i (heq ▸ he)
  have hend := runSteps_invariant_of_along
    (I := fun s => s.Every (Conducted env) ∧ ⟨fd, .serving pid clientId⟩ ∈ s.sessions.conns)
    (fun _ _ _ ⟨hI, hin⟩ h hC => ⟨hI.step_conducted h, (step_moves hI h).serving hC hin⟩)
    ⟨hI, hin⟩ hC hrun
  exact holds_of_session hend.2

/-- A forward writes to the socket of the client it found over TCP. -/
theorem forward_write {message protocol text : String} {clientId fd : Int}
    {reply : Option ClientInfo} {k : Bool → Handling Unit}
    (hl : Program.Leads (forwardMessageToClient message clientId protocol)
      [⟨.findClientById clientId protocol, reply⟩] (.call (.write fd text) k)) :
    protocol = "tcp" ∧ ∃ info, reply = some info ∧ fd = info.socketFd := by
  cases hl with
  | call _ hl =>
    cases reply with
    | none => exact absurd (Program.Leads.pure_inv hl).2 (by simp)
    | some info =>
      change Program.Leads (if protocol = "udp" then _ else _) _ _ at hl
      split at hl
      · cases hl
      · split at hl
        · next htcp => cases hl; exact ⟨htcp, info, rfl, rfl⟩
        · exact absurd (Program.Leads.pure_inv hl).2 (by simp)

/-- **No dangling TCP entry**, in any reachable state. -/
theorem no_dangling_entry {tables : Tables} {es : List Event} {s : Sys env}
    (hrun : (Sys.start tables).run es = some s) :
    (∀ (pid : Int) info, s.shared.clients.clientMapTcp[pid]? = some info →
      s.Holds pid info.socketFd) ∧ s.ForwardsOpen := by
  obtain ⟨hI, hO⟩ := Sys.run_owned hrun
  refine ⟨fun pid info hget => Sys.holds_of_session (hO.entry pid info hget).2, ?_⟩
  intro message clientId protocol ok fd text k hl
  obtain ⟨rfl, info, hfound, rfl⟩ := forward_write hl
  have hfind : Registry.findIn clientId s.shared.clients.clientMapTcp = some info := by
    rw [← hfound]
    show _ = s.shared.clients.findClientById clientId "tcp"
    unfold Registry.findClientById
    rw [show toUpper "tcp" = "TCP" by decide +kernel]
    rfl
  obtain ⟨hid, pid, hget⟩ := Registry.findIn_some hfind
  exact ⟨pid, info, hget, hid, fun es' s' hrun' hhangup =>
    Sys.run_holds hI (hO.entry pid info hget).2 hrun' hhangup⟩

end

/-- One connection registers. -/
def registeringEvents : List Event := [.accept 5 ⟨⟨127, 0, 0, 1⟩, 5000⟩, .read 0 "7"]

/-- A server that can read no order. -/
def silentEnv : Env := .reading []

theorem registeringEvents_run : ((Sys.start (waterTables 500) : Sys silentEnv).run
    registeringEvents).map (fun s => s.shared.clients.clientMapTcp[(7 : Int)]?.map
      ClientInfo.socketFd) = some (some 5) := by
  decide +kernel

theorem no_dangling_entry_registering : ∃ s : Sys silentEnv,
    (Sys.start (waterTables 500)).run registeringEvents = some s ∧ s.Holds 7 5 ∧
      s.ForwardsOpen := by
  obtain ⟨s, hrun, hs⟩ := Option.map_eq_some_iff.1 registeringEvents_run
  obtain ⟨info, hget, hfd⟩ := Option.map_eq_some_iff.1 hs
  obtain ⟨hentries, hforwards⟩ := no_dangling_entry hrun
  exact ⟨s, hrun, hfd ▸ hentries 7 info hget, hforwards⟩

/-! ## Registered connections -/

namespace Sessions

variable {S S' : Sessions} {e : Event}

/-- Every connection that serves under a positive client id has the entry of
its PID, and the search for the id finds it. -/
def Reachable (S : Sessions) : Prop :=
  ∀ fd pid clientId, ⟨fd, .serving pid clientId⟩ ∈ S.conns → 0 < clientId →
    ∃ info, S.clients[pid]? = some info ∧ info.socketFd = fd ∧ info.clientId = clientId ∧
      Registry.findIn clientId S.clients = some info

/-- A disconnect finds no registered entry of another connection under its
PID, and a registration hands out no id that an entry has. -/
def Respected (S : Sessions) : Event → Prop
  | .hangup i => ∀ fd pid clientId, S.conns[i]? = some ⟨fd, .serving pid clientId⟩ →
      ∀ info, S.clients[pid]? = some info → 0 < info.clientId → info.socketFd = fd
  | .read i payload => ∀ fd, S.conns[i]? = some ⟨fd, .awaitPid⟩ →
      S.Granted (atoi (receivedText payload)) → 0 < S.nextId →
        ∀ (pid : Int) info, S.clients[pid]? = some info → info.clientId ≠ S.nextId
  | _ => True

/-- Registered connections have different ids. -/
theorem Reachable.unique (hR : S.Reachable) (hO : S.Owned) {pid pid' : Int}
    {info info' : ClientInfo} (hget : S.clients[pid]? = some info)
    (hget' : S.clients[pid']? = some info') (hpos : 0 < info.clientId)
    (hid : info'.clientId = info.clientId) : info' = info := by
  obtain ⟨x, hx, _, _, hfind⟩ := hR _ _ _ (hO.entry pid info hget).2 hpos
  obtain ⟨x', hx', _, _, hfind'⟩ := hR _ _ _ (hO.entry pid' info' hget').2 (hid ▸ hpos)
  cases hx.symm.trans hget
  cases hx'.symm.trans hget'
  rw [hid, hfind] at hfind'
  exact (Option.some.inj hfind').symm

/-- A registration under an id that no entry has. -/
theorem Reachable.registers (hR : S.Reachable) (hO : S.Owned) {i : Nat} {pid nextId : Int}
    {info : ClientInfo} (hnone : S.clients[pid]? = none)
    (hfresh : 0 < info.clientId → ∀ (pid' : Int) x, S.clients[pid']? = some x →
      x.clientId ≠ info.clientId) :
    Reachable { conns := S.conns.set i ⟨info.socketFd, .serving pid info.clientId⟩
                clients := S.clients.insert pid info
                nextId } := by
  intro fd pid' clientId hin hpos
  rcases List.mem_or_eq_of_mem_set hin with hold | hnew
  · -- An older connection keeps its entry, under another id.
    obtain ⟨x, hget, hfd, rfl, hfind⟩ := hR fd pid' clientId hold hpos
    have hne : pid' ≠ pid := by
      rintro rfl
      rw [hnone] at hget
      cases hget
    have hget' : (S.clients.insert pid info)[pid']? = some x :=
      ClientMap.insert_get.2 (.inr ⟨hne, hget⟩)
    refine ⟨x, hget', hfd, rfl, Registry.findIn_of_unique hget' rfl ?_⟩
    intro k x' hx' hid'
    rcases ClientMap.insert_get.1 hx' with ⟨_, rfl⟩ | ⟨_, hold'⟩
    · exact absurd hid'.symm (hfresh (hid'.symm ▸ hpos) pid' x hget)
    · exact hR.unique hO hget hold' hpos hid'
  · -- The new one has the entry it just got.
    obtain ⟨rfl, hstage⟩ := Session.mk.inj hnew
    obtain ⟨rfl, rfl⟩ := Stage.serving.inj hstage
    have hget : (S.clients.insert pid' info)[pid']? = some info :=
      ClientMap.insert_get.2 (.inl ⟨rfl, rfl⟩)
    refine ⟨info, hget, rfl, rfl, Registry.findIn_of_unique hget rfl ?_⟩
    intro k x' hx' hid'
    rcases ClientMap.insert_get.1 hx' with ⟨_, rfl⟩ | ⟨_, hold'⟩
    · rfl
    · exact absurd hid' (hfresh hpos k x' hold')

/-- A disconnect that finds no registered entry of another connection. -/
theorem Reachable.disconnects (hR : S.Reachable) (hO : S.Owned) {i : Nat} {fd pid clientId : Int}
    (hi : S.conns[i]? = some ⟨fd, .serving pid clientId⟩)
    (hown : ∀ info, S.clients[pid]? = some info → 0 < info.clientId → info.socketFd = fd) :
    Reachable { S with conns := S.conns.set i ⟨fd, .closed⟩, clients := S.clients.erase pid } := by
  intro fd' pid' clientId' hin hpos
  rcases List.mem_or_eq_of_mem_set hin with hold | hnew
  · obtain ⟨x, hget, hfd, rfl, hfind⟩ := hR fd' pid' clientId' hold hpos
    have hne : pid' ≠ pid := by
      rintro rfl
      -- An entry under the same PID is that of the connection that left.
      have hsame : fd' = fd := hfd.symm.trans (hown x hget hpos)
      obtain ⟨j, hj⟩ := List.mem_iff_getElem?.1 hin
      by_cases hij : i = j
      · subst hij
        obtain ⟨hlt, _⟩ := List.getElem?_eq_some_iff.1 hi
        rw [List.getElem?_set_self hlt] at hj
        cases hj
      · rw [List.getElem?_set_ne hij] at hj
        exact hij (hO.distinct i j _ _ hi hj (by simp) (by simp) hsame.symm)
    have hget' := ClientMap.erase_get.2 ⟨hne, hget⟩
    refine ⟨x, hget', hfd, rfl, Registry.findIn_of_unique hget' rfl ?_⟩
    intro k x' hx' hid'
    exact hR.unique hO hget (ClientMap.erase_get.1 hx').2 hpos hid'
  · cases (Session.mk.inj hnew).2

/-- A step keeps registered connections reachable under its condition. -/
theorem Moves.reachable (h : S.Moves e S') (hO : S.Owned) (hR : S.Reachable)
    (hC : S.Respected e) : S'.Reachable := by
  cases h with
  | stays => exact hR
  | accepts fd cliAddr hfree =>
    intro fd' pid clientId hin hpos
    rcases List.mem_append.1 hin with hold | hnew
    · exact hR fd' pid clientId hold hpos
    · cases List.mem_singleton.1 hnew
  | registers i payload info hi hgranted hid =>
    refine hR.registers hO hgranted.2.1 fun hpos pid x hget => ?_
    rw [hid]
    exact hC _ hi hgranted (hid ▸ hpos) pid x hget
  | refuses i payload fd clientId nextId hi hrefused hid =>
    intro fd' pid clientId' hin hpos
    rcases List.mem_or_eq_of_mem_set hin with hold | hnew
    · exact hR fd' pid clientId' hold hpos
    · obtain ⟨_, hstage⟩ := Session.mk.inj hnew
      obtain ⟨_, rfl⟩ := Stage.serving.inj hstage
      exact absurd hpos (Int.not_lt.2 hid)
  | leaves i fd hi =>
    intro fd' pid clientId hin hpos
    rcases List.mem_or_eq_of_mem_set hin with hold | hnew
    · exact hR fd' pid clientId hold hpos
    · cases (Session.mk.inj hnew).2
  | disconnects i fd pid clientId hi hpid => exact hR.disconnects hO hi (hC fd pid clientId hi)

/-- A step that breaks its condition leaves a registered connection unreachable. -/
theorem Moves.respected (h : S.Moves e S') (hO : S.Owned) (hR : S'.Reachable) :
    S.Respected e := by
  have hO' := h.owned hO
  cases h with
  | stays _ hread hhangup =>
    cases e with
    | read i payload => exact fun fd hi => absurd hi (hread i payload fd rfl)
    | hangup i => exact absurd rfl (hhangup i)
    | _ => trivial
  | accepts => trivial
  | registers i payload info hi hgranted hid =>
    intro fd _ _ hpos pid x hget hsame
    -- The two entries would be found under one id.
    obtain ⟨hpid, hin⟩ := hO.entry pid x hget
    have hne : pid ≠ atoi (receivedText payload) := by
      rintro rfl
      rw [hgranted.2.1] at hget
      cases hget
    have hx : info = x := hR.unique hO' (ClientMap.insert_get.2 (.inr ⟨hne, hget⟩))
      (ClientMap.insert_get.2 (.inl ⟨rfl, rfl⟩)) (hsame ▸ hpos) (hid.trans hsame.symm)
    subst hx
    obtain ⟨j, hj⟩ := List.mem_iff_getElem?.1 hin
    have hij := hO.distinct i j _ _ hi hj (by simp) (by simp) rfl
    subst hij
    cases hi.symm.trans hj
  | refuses i payload fd clientId nextId hi hrefused hid =>
    exact fun fd' _ hgranted => absurd hgranted hrefused
  | leaves i fd hi =>
    intro fd' pid clientId hi' info hget _
    rcases hi with hi | ⟨_, hi⟩
    · cases hi.symm.trans hi'
    · cases hi.symm.trans hi'
      exact absurd rfl (hO.entry 0 info hget).1
  | disconnects i fd pid clientId hi hpid =>
    intro fd' pid' clientId' hi' info hget hpos
    cases hi.symm.trans hi'
    by_contra hne
    have hin := mem_set_of_ne ⟨fd, .closed⟩ hi (hO.entry pid info hget).2
      fun heq => hne (Session.mk.inj heq).1
    obtain ⟨x, hx, _⟩ := hR _ _ _ hin hpos
    exact (ClientMap.erase_get.1 hx).1 rfl

end Sessions

section

variable {env : Env}

/-- Every open connection whose registration returned a positive client id has
the entry of its PID, and `findClientById` finds it under the id. -/
def TcpReachable (s : Sys env) : Prop :=
  ∀ c ∈ s.conns, ∀ pid a, c.phase = .serving pid a → 0 < a.loop.clientId →
    ∃ info, s.shared.clients.clientMapTcp[pid]? = some info ∧ info.socketFd = c.fd ∧
      info.clientId = a.loop.clientId ∧
      s.shared.clients.findClientById a.loop.clientId "TCP" = some info

theorem tcpReachable_iff {s : Sys env} : TcpReachable s ↔ s.sessions.Reachable := by
  constructor
  · intro h fd pid clientId hin hpos
    obtain ⟨c, hc, hsession⟩ := List.mem_map.1 hin
    obtain ⟨rfl, hstage⟩ := Session.mk.inj hsession
    cases hphase : c.phase with
    | serving pid' a =>
      rw [hphase] at hstage
      cases hstage
      exact h c hc pid a hphase hpos
    | _ => rw [hphase] at hstage; cases hstage
  · intro h c hc pid a hphase hpos
    refine h c.fd pid a.loop.clientId (List.mem_map.2 ⟨c, hc, ?_⟩) hpos
    rw [Conn.session, hphase]
    rfl

/-- **Registered TCP clients stay reachable exactly as long as every disconnect
finds its own entry or none**, and no id is handed out twice. -/
theorem registered_reachable_iff (tables : Tables) (es : List Event) :
    Throughout Sys.step TcpReachable (Sys.start tables : Sys env) es ↔
      Along Sys.step (fun s e => s.sessions.Respected e) (Sys.start tables : Sys env) es := by
  have hstart : (Sys.start tables : Sys env).run [] = some (Sys.start tables) := rfl
  obtain ⟨hI, hO⟩ := Sys.run_owned hstart
  refine throughout_iff_along (I := fun s =>
    s.Every (Conducted env) ∧ s.sessions.Owned ∧ TcpReachable s) ?_ (fun _ h => h.2.2) ?_
    ⟨hI, hO, fun _ hc => absurd hc List.not_mem_nil⟩
  · intro s e s' ⟨hI, hO, hR⟩ h hC
    have hmoves := Sys.step_moves hI h
    exact ⟨hI.step_conducted h, hmoves.owned hO,
      tcpReachable_iff.2 (hmoves.reachable hO (tcpReachable_iff.1 hR) hC)⟩
  · intro s e s' ⟨hI, hO, _⟩ h hR
    exact (Sys.step_moves hI h).respected hO (tcpReachable_iff.1 hR)

end

/-- Two connections announce one PID, and the refused one disconnects. -/
def duplicateEvents : List Event :=
  [.accept 5 ⟨⟨127, 0, 0, 1⟩, 5000⟩, .accept 6 ⟨⟨127, 0, 0, 2⟩, 5000⟩, .read 0 "7", .read 1 "7",
    .hangup 1]

/-- The first connection still serves under its id, without an entry. -/
theorem duplicateEvents_run : ((Sys.start (waterTables 500) : Sys silentEnv).run
    duplicateEvents).map (fun s => (s.sessions.conns,
      s.shared.clients.clientMapTcp[(7 : Int)]?.isSome)) =
    some ([⟨5, .serving 7 1⟩, ⟨6, .closed⟩], false) := by
  decide +kernel

theorem registered_unreachable :
    ¬ Throughout Sys.step TcpReachable (Sys.start (waterTables 500) : Sys silentEnv)
      duplicateEvents := by
  intro h
  obtain ⟨s, hrun, hs⟩ := Option.map_eq_some_iff.1 duplicateEvents_run
  obtain ⟨hconns, hnone⟩ := Prod.mk.inj hs
  obtain ⟨info, hget, _⟩ := tcpReachable_iff.1 (h.last hrun) 5 7 1 (by simp [hconns]) (by decide)
  have hget : s.shared.clients.clientMapTcp[(7 : Int)]? = some info := hget
  rw [hget] at hnone
  cases hnone

end LogisticService
