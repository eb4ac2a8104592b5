import LogisticService.Server.Registry
import Mathlib.Data.List.Induction
import Mathlib.Data.List.Nodup

/-!
# Client ids over any calls of the registry

A `Grant` records a positive id that `registerClient` returned, with the entry
stored for it, and whether that entry is still to be there. The maps hold just
the entries of the open grants, and the counters run ahead of all ids granted,
so a search by id finds the one entry the id was handed out for.
-/

namespace LogisticService

inductive RegistryEvent
  | register (now pid : Int) (protocol : String) (addr : SockAddr) (socketFd : Int)
  | eraseTcp (pid : Int)
  | cleanup (now timeout : Int)

structure Grant where
  pid : Int
  info : ClientInfo
  isOpen : Bool

/-- The grant is closed, if its entry is one of those removed. -/
def Grant.closeIf (removed : Int → ClientInfo → Bool) (g : Grant) : Grant :=
  { g with isOpen := g.isOpen && !removed g.pid g.info }

/-- A registry with the grants it made, in order. -/
structure Granting where
  reg : Registry
  grants : Protocol → List Grant

namespace Granting

def start : Granting := ⟨.start, fun _ => []⟩

/-- The grant that a registration is recorded as, when it returned an id. -/
def granted (clientId now pid : Int) (protocol : String) (addr : SockAddr) (socketFd : Int) :
    List Grant :=
  if clientId > 0 then
    [⟨pid, { clientId, socketFd, addr, ipAddress := inetNtoa addr.sinAddr, protocol,
             lastSeen := now }, true⟩]
  else []

def step (b : Granting) : RegistryEvent → Granting
  | .register now pid protocol addr socketFd =>
    let r := b.reg.registerClient now pid protocol addr socketFd
    { reg := r.2
      grants := fun p => if protocol = p.name
        then b.grants p ++ granted r.1 now pid protocol addr socketFd else b.grants p }
  | .eraseTcp pid =>
    { reg := b.reg.eraseTcp pid
      grants := fun p => match p with
        | .udp => b.grants .udp
        | .tcp => (b.grants .tcp).map (Grant.closeIf fun k _ => k = pid) }
  | .cleanup now timeout =>
    { reg := b.reg.cleanupInactiveUdpClients now timeout
      grants := fun p => match p with
        | .udp => (b.grants .udp).map (Grant.closeIf fun _ info => now - info.lastSeen > timeout)
        | .tcp => b.grants .tcp }

def run (es : List RegistryEvent) : Granting := es.foldl step start

end Granting

/-- The event is an attempt to register under a protocol. -/
def RegistryEvent.attempts (p : Protocol) : RegistryEvent → Bool
  | .register _ _ protocol _ _ => protocol = p.name
  | _ => false

/-- What holds of one protocol: the ids granted are increasing, positive,
within the limit and below the counter, the counter has not wrapped around, and
the map holds the entries of the open grants. -/
structure Consistent (next : Int) (m : ClientMap) (grants : List Grant) (attempts : Nat) :
    Prop where
  next_pos : 1 ≤ next
  next_le : next ≤ attempts + 1
  increasing : grants.Pairwise fun g g' => g.info.clientId < g'.info.clientId
  ids : ∀ g ∈ grants, 1 ≤ g.info.clientId ∧ g.info.clientId ≤ MAX_CLIENTS_ID ∧
    g.info.clientId < next
  entries : ∀ (pid : Int) info, m[pid]? = some info ↔
    ∃ g ∈ grants, g.isOpen = true ∧ g.pid = pid ∧ g.info = info

namespace Consistent

variable {next : Int} {m : ClientMap} {grants : List Grant} {attempts : Nat}

theorem start : Consistent 1 ∅ [] 0 where
  next_pos := by omega
  next_le := by omega
  increasing := .nil
  ids g hg := absurd hg List.not_mem_nil
  entries pid info := by simp

/-- Another attempt does not matter by itself. -/
theorem mono (h : Consistent next m grants attempts) {attempts' : Nat}
    (hle : attempts ≤ attempts') : Consistent next m grants attempts' where
  next_pos := h.next_pos
  next_le := by have := h.next_le; omega
  increasing := h.increasing
  ids := h.ids
  entries := h.entries

/-- An attempt that only takes an id from the counter. -/
theorem bump (h : Consistent next m grants attempts) :
    Consistent (next + 1) m grants (attempts + 1) where
  next_pos := by have := h.next_pos; omega
  next_le := by have := h.next_le; omega
  increasing := h.increasing
  ids g hg := by have := h.ids g hg; omega
  entries := h.entries

/-- A grant under a new PID. -/
theorem grant (h : Consistent next m grants attempts) {pid : Int} {info : ClientInfo}
    (hnew : m[pid]? = none) (hid : info.clientId = next) (hmax : next ≤ MAX_CLIENTS_ID) :
    Consistent (next + 1) (m.insert pid info) (grants ++ [⟨pid, info, true⟩]) (attempts + 1) where
  next_pos := by have := h.next_pos; omega
  next_le := by have := h.next_le; omega
  increasing := by
    refine List.pairwise_append.2 ⟨h.increasing, List.pairwise_singleton _ _, ?_⟩
    intro g hg g' hg'
    have hlast : g'.info.clientId = next := by rw [List.mem_singleton.1 hg']; exact hid
    have := (h.ids g hg).2.2
    omega
  ids g hg := by
    have hpos := h.next_pos
    rcases List.mem_append.1 hg with hold | hlast
    · have := h.ids g hold
      omega
    · have hinfo : g.info.clientId = next := by rw [List.mem_singleton.1 hlast]; exact hid
      omega
  entries pid' info' := by
    rw [ClientMap.insert_get]
    constructor
    · rintro (⟨rfl, rfl⟩ | ⟨_, hold⟩)
      · exact ⟨_, List.mem_append_right _ List.mem_cons_self, rfl, rfl, rfl⟩
      · obtain ⟨g, hg, hopen, hpid, hinfo⟩ := (h.entries pid' info').1 hold
        exact ⟨g, List.mem_append_left _ hg, hopen, hpid, hinfo⟩
    · intro ⟨g, hg, hopen, hpid, hinfo⟩
      rcases List.mem_append.1 hg with hold | hlast
      · have hget := (h.entries pid' info').2 ⟨g, hold, hopen, hpid, hinfo⟩
        have hne : pid' ≠ pid := by
          intro heq
          rw [heq, hnew] at hget
          cases hget
        exact .inr ⟨hne, hget⟩
      · rw [List.mem_singleton.1 hlast] at hpid hinfo
        exact .inl ⟨hpid.symm, hinfo.symm⟩

/-- The entries of the grants that are closed are removed. -/
theorem close (h : Consistent next m grants attempts) {m' : ClientMap}
    {removed : Int → ClientInfo → Bool}
    (hm : ∀ (pid : Int) info, m'[pid]? = some info ↔
      m[pid]? = some info ∧ removed pid info = false) :
    Consistent next m' (grants.map (Grant.closeIf removed)) attempts where
  next_pos := h.next_pos
  next_le := h.next_le
  increasing := List.pairwise_map.2 h.increasing
  ids g hg := by
    obtain ⟨g', hg', rfl⟩ := List.mem_map.1 hg
    exact h.ids g' hg'
  entries pid info := by
    rw [hm, h.entries]
    constructor
    · intro ⟨⟨g, hg, hopen, hpid, hinfo⟩, hkept⟩
      refine ⟨g.closeIf removed, List.mem_map_of_mem hg, ?_, hpid, hinfo⟩
      simp [Grant.closeIf, hopen, hpid, hinfo, hkept]
    · intro ⟨g', hg', hopen, hpid, hinfo⟩
      obtain ⟨g, hg, rfl⟩ := List.mem_map.1 hg'
      obtain ⟨hopen, hkept⟩ := (Bool.and_eq_true _ _).mp hopen
      refine ⟨⟨g, hg, hopen, hpid, hinfo⟩, ?_⟩
      have hkept : removed g.pid g.info = false := by simpa using hkept
      rw [← hpid, ← hinfo]
      exact hkept

/-- No id was granted twice. -/
theorem ids_nodup (h : Consistent next m grants attempts) :
    (grants.map fun g => g.info.clientId).Nodup := by
  refine List.pairwise_map.2 (h.increasing.imp ?_)
  intro g g' hlt heq
  omega

theorem grant_unique (h : Consistent next m grants attempts) {g g' : Grant} (hg : g ∈ grants)
    (hg' : g' ∈ grants) (hid : g.info.clientId = g'.info.clientId) : g = g' :=
  List.inj_on_of_nodup_map h.ids_nodup hg hg' hid

/-- The search by id finds the entry of the open grant with that id. -/
theorem findIn_eq (h : Consistent next m grants attempts) (clientId : Int) :
    Registry.findIn clientId m =
      (grants.find? fun g => g.isOpen && g.info.clientId == clientId).map Grant.info := by
  cases hfind : grants.find? fun g => g.isOpen && g.info.clientId == clientId with
  | none =>
    have hnone := List.find?_eq_none.1 hfind
    cases hsearch : Registry.findIn clientId m with
    | none => rfl
    | some info =>
      obtain ⟨hid, pid, hget⟩ := Registry.findIn_some hsearch
      obtain ⟨g, hg, hopen, _, hinfo⟩ := (h.entries pid info).1 hget
      exact absurd (hnone g hg) (by simp [hopen, hinfo, hid])
  | some g =>
    have hg := List.mem_of_find?_eq_some hfind
    have hmatch := List.find?_some hfind
    obtain ⟨hopen, hid⟩ : g.isOpen = true ∧ g.info.clientId = clientId := by simpa using hmatch
    have hget := (h.entries g.pid g.info).2 ⟨g, hg, hopen, rfl, rfl⟩
    refine Registry.findIn_of_unique hget hid fun pid' info' hget' hid' => ?_
    obtain ⟨g', hg', _, _, rfl⟩ := (h.entries pid' info').1 hget'
    rw [h.grant_unique hg' hg (hid'.trans hid.symm)]

/-- No two entries carry one id. -/
theorem entry_unique (h : Consistent next m grants attempts) {pid pid' : Int}
    {info info' : ClientInfo} (hget : m[pid]? = some info) (hget' : m[pid']? = some info')
    (hid : info.clientId = info'.clientId) : pid = pid' := by
  obtain ⟨g, hg, _, rfl, rfl⟩ := (h.entries pid info).1 hget
  obtain ⟨g', hg', _, rfl, rfl⟩ := (h.entries pid' info').1 hget'
  rw [h.grant_unique hg hg' hid]

end Consistent

/-! ## One event -/

/-- What an attempt to register does to the registry. -/
theorem Registry.registerClient_cases (reg : Registry) (now pid : Int) (p : Protocol)
    (addr : SockAddr) (socketFd : Int) :
    let r := reg.registerClient now pid p.name addr socketFd
    (∀ q ≠ p, r.2.clientMap q = reg.clientMap q ∧ r.2.nextClientId q = reg.nextClientId q) ∧
      (r = (-1, reg) ∨
        (r.1 = -1 ∧ r.2.clientMap p = reg.clientMap p ∧
          r.2.nextClientId p = toInt32 (reg.nextClientId p + 1)) ∨
        ((reg.clientMap p)[pid]? = none ∧ reg.nextClientId p ≤ MAX_CLIENTS_ID ∧
          r.1 = reg.nextClientId p ∧ r.2.nextClientId p = toInt32 (reg.nextClientId p + 1) ∧
          r.2.clientMap p = (reg.clientMap p).insert pid
            { clientId := r.1, socketFd, addr, ipAddress := inetNtoa addr.sinAddr,
              protocol := p.name, lastSeen := now })) := by
  intro r
  have hr : r = _ := reg.registerClient_eq p now pid addr socketFd
  by_cases hin : (reg.clientMap p).contains pid = true
  · rw [hr, if_pos hin]
    exact ⟨fun _ _ => ⟨rfl, rfl⟩, .inl rfl⟩
  · have hnew : (reg.clientMap p)[pid]? = none := by
      rw [Std.TreeMap.contains_eq_isSome_getElem?, Option.not_isSome_iff_eq_none] at hin
      exact hin
    by_cases hmax : reg.nextClientId p > MAX_CLIENTS_ID
    · rw [hr, if_neg hin, if_pos hmax]
      refine ⟨fun q hq => ⟨advance_clientMap .., ?_⟩, .inr (.inl ⟨rfl, advance_clientMap .., ?_⟩)⟩
      · rw [advance_nextClientId, if_neg hq]
      · rw [advance_nextClientId, if_pos rfl]
    · rw [hr, if_neg hin, if_neg hmax]
      refine ⟨fun q hq => ⟨?_, ?_⟩, .inr (.inr ⟨hnew, Int.not_lt.1 hmax, rfl, ?_, ?_⟩)⟩
      · rw [store_clientMap, if_neg hq, advance_clientMap]
      · rw [store_nextClientId, advance_nextClientId, if_neg hq]
      · rw [store_nextClientId, advance_nextClientId, if_pos rfl]
      · rw [store_clientMap, if_pos rfl, advance_clientMap]

/-- Both protocols are consistent, after so many attempts on each. -/
def Granting.Good (b : Granting) (n : Protocol → Nat) : Prop :=
  ∀ p, Consistent (b.reg.nextClientId p) (b.reg.clientMap p) (b.grants p) (n p)

/-- The attempts after one more event. -/
def countAttempt (n : Protocol → Nat) (e : RegistryEvent) (p : Protocol) : Nat :=
  n p + if e.attempts p then 1 else 0

namespace Granting

variable {b : Granting} {n : Protocol → Nat}

/-- The counter has not run past the largest `int` yet. -/
theorem toInt32_next {next : Int} {m : ClientMap} {grants : List Grant} {attempts : Nat}
    (h : Consistent next m grants attempts) (hfew : attempts + 1 < 2147483647) :
    toInt32 (next + 1) = next + 1 := by
  have hpos := h.next_pos
  have hle := h.next_le
  refine toInt32_of_isInt ⟨?_, ?_⟩
  · unfold INT_MIN; omega
  · unfold INT_MAX; omega

/-- An attempt to register keeps its own protocol consistent. -/
theorem register_good (h : b.Good n) (now pid : Int) (p : Protocol) (addr : SockAddr)
    (socketFd : Int) (hfew : n p + 1 < 2147483647) :
    let r := b.reg.registerClient now pid p.name addr socketFd
    Consistent (r.2.nextClientId p) (r.2.clientMap p)
      (b.grants p ++ granted r.1 now pid p.name addr socketFd) (n p + 1) := by
  intro r
  obtain ⟨_, hr | ⟨hid, hmap, hnext⟩ | ⟨hnew, hmax, hid, hnext, hmap⟩⟩ :=
    b.reg.registerClient_cases now pid p addr socketFd
  · have hnone : granted r.1 now pid p.name addr socketFd = [] := by
      simp only [r, hr]
      rfl
    rw [hnone, List.append_nil]
    simp only [r, hr]
    exact (h p).mono (Nat.le_succ _)
  · have hnone : granted r.1 now pid p.name addr socketFd = [] := by
      simp only [r, hid]
      rfl
    rw [hnone, List.append_nil, hmap, hnext, toInt32_next (h p) hfew]
    exact (h p).bump
  · have hid : r.1 = b.reg.nextClientId p := hid
    have hpos : r.1 > 0 := by
      have := (h p).next_pos
      omega
    rw [granted, if_pos hpos, hmap, hnext, toInt32_next (h p) hfew]
    exact (h p).grant hnew hid hmax

/-- Every event keeps both protocols consistent. -/
theorem step_good (h : b.Good n) (e : RegistryEvent)
    (hfew : ∀ p, countAttempt n e p < 2147483647) : (b.step e).Good (countAttempt n e) := by
  intro p
  cases e with
  | register now pid protocol addr socketFd =>
    have hfew := hfew p
    simp only [step, countAttempt, RegistryEvent.attempts] at hfew ⊢
    by_cases hp : protocol = p.name
    · subst hp
      simp only [decide_true, ↓reduceIte] at hfew ⊢
      exact register_good h now pid p addr socketFd hfew
    · simp only [hp, decide_false, Bool.false_eq_true, ↓reduceIte, Nat.add_zero]
      by_cases hknown : ∃ q : Protocol, protocol = q.name
      · obtain ⟨q, rfl⟩ := hknown
        have hne : p ≠ q := fun heq => hp (by rw [heq])
        obtain ⟨hothers, _⟩ := b.reg.registerClient_cases now pid q addr socketFd
        rw [(hothers p hne).1, (hothers p hne).2]
        exact h p
      · have hunknown : ∀ q : Protocol, protocol ≠ q.name := fun q hq => hknown ⟨q, hq⟩
        rw [Registry.registerClient_unknown b.reg now pid addr socketFd hunknown]
        exact h p
  | eraseTcp pid =>
    simp only [step, countAttempt, RegistryEvent.attempts, Bool.false_eq_true, ↓reduceIte,
      Nat.add_zero]
    cases p with
    | udp => exact h .udp
    | tcp =>
      refine (h .tcp).close fun k info => ?_
      show (b.reg.clientMapTcp.erase pid)[k]? = some info ↔ _
      rw [ClientMap.erase_get]
      simp [Registry.clientMap, and_comm]
  | cleanup now timeout =>
    simp only [step, countAttempt, RegistryEvent.attempts, Bool.false_eq_true, ↓reduceIte,
      Nat.add_zero]
    cases p with
    | udp =>
      refine (h .udp).close fun k info => ?_
      show (b.reg.clientMapUdp.filter _)[k]? = some info ↔ _
      rw [ClientMap.filter_get]
      simp [Registry.clientMap]
    | tcp => exact h .tcp

theorem start_good : start.Good fun _ => 0 := by
  intro p
  cases p with
  | udp => exact .start
  | tcp => exact .start

/-- The invariant along a whole run. -/
theorem run_good {es : List RegistryEvent}
    (hfew : ∀ p, es.countP (RegistryEvent.attempts p) < 2147483647) :
    (run es).Good fun p => es.countP (RegistryEvent.attempts p) := by
  induction es using List.reverseRecOn with
  | nil => exact start_good
  | append_singleton es e ih =>
    have hcount : (fun p => (es ++ [e]).countP (RegistryEvent.attempts p)) =
        countAttempt (fun p => es.countP (RegistryEvent.attempts p)) e := by
      funext p
      rw [List.countP_append, List.countP_singleton]
      rfl
    have hfew' : ∀ p, countAttempt (fun p => es.countP (RegistryEvent.attempts p)) e p <
        2147483647 := fun p => by rw [← hcount]; exact hfew p
    have hbefore : ∀ p, es.countP (RegistryEvent.attempts p) < 2147483647 := by
      intro p
      have hafter := hfew' p
      simp only [countAttempt] at hafter
      omega
    rw [hcount]
    show ((es ++ [e]).foldl step start).Good _
    rw [List.foldl_append]
    exact step_good (ih hbefore) e hfew'

end Granting

/-! ## What the registry promises -/

/-- The registry and the grants it made agree on a protocol. -/
structure Granting.Agrees (b : Granting) (p : Protocol) : Prop where
  /-- Stored ids are pairwise distinct. -/
  distinct : ∀ (pid pid' : Int) info info', (b.reg.clientMap p)[pid]? = some info →
    (b.reg.clientMap p)[pid']? = some info' → info.clientId = info'.clientId → pid = pid'
  /-- They lie within the limit and below the counter. -/
  range : ∀ (pid : Int) info, (b.reg.clientMap p)[pid]? = some info →
    1 ≤ info.clientId ∧ info.clientId ≤ MAX_CLIENTS_ID ∧ info.clientId < b.reg.nextClientId p
  /-- No positive id was returned twice. -/
  once : ((b.grants p).map fun g => g.info.clientId).Nodup
  /-- A lookup returns the entry stored for the id, until that is removed. -/
  lookup : ∀ clientId protocol, toUpper protocol = p.name →
    b.reg.findClientById clientId protocol =
      ((b.grants p).find? fun g => g.isOpen && g.info.clientId == clientId).map Grant.info

/-- **The client id registry**, over any calls with fewer attempts than an
`int` can count. -/
theorem registry_agrees {es : List RegistryEvent}
    (hfew : ∀ p, es.countP (RegistryEvent.attempts p) < 2147483647) :
    (∀ p, (Granting.run es).Agrees p) ∧
      (∀ now pid protocol addr socketFd,
        let r := (Granting.run es).reg.registerClient now pid protocol addr socketFd
        r.1 ≤ 0 → ∀ p, r.2.clientMap p = (Granting.run es).reg.clientMap p) ∧
      ∀ clientId protocol, (∀ p : Protocol, toUpper protocol ≠ p.name) →
        (Granting.run es).reg.findClientById clientId protocol = none := by
  have hgood := Granting.run_good hfew
  refine ⟨fun p => ⟨?_, ?_, (hgood p).ids_nodup, ?_⟩, ?_, ?_⟩
  · intro pid pid' info info' hget hget' hid
    exact (hgood p).entry_unique hget hget' hid
  · intro pid info hget
    obtain ⟨g, hg, _, _, rfl⟩ := ((hgood p).entries pid info).1 hget
    exact (hgood p).ids g hg
  · intro clientId protocol hprotocol
    have hfound := (hgood p).findIn_eq clientId
    unfold Registry.findClientById
    simp only [hprotocol]
    cases p with
    | udp => exact hfound
    | tcp => exact hfound
  · intro now pid protocol addr socketFd r hfailed p
    by_cases hknown : ∃ q : Protocol, protocol = q.name
    · obtain ⟨q, rfl⟩ := hknown
      obtain ⟨hothers, hr | ⟨_, hmap, _⟩ | ⟨_, _, hid, _⟩⟩ :=
        (Granting.run es).reg.registerClient_cases now pid q addr socketFd
      · simp only [r, hr]
      · by_cases hp : p = q
        · rw [hp]; exact hmap
        · exact (hothers p hp).1
      · have hid : r.1 = (Granting.run es).reg.nextClientId q := hid
        have := (hgood q).next_pos
        omega
    · have hunknown : ∀ q : Protocol, protocol ≠ q.name := fun q hq => hknown ⟨q, hq⟩
      simp only [r, Registry.registerClient_unknown _ now pid addr socketFd hunknown]
  · intro clientId protocol hunknown
    exact (if_neg (hunknown .udp)).trans (if_neg (hunknown .tcp))

/-- Two clients register, the second leaves, and its id is not handed out again. -/
theorem registry_agrees_leaving :
    let addr : SockAddr := ⟨⟨127, 0, 0, 1⟩, 5000⟩
    (Granting.run [.register 0 7 "TCP" addr 5, .register 1 8 "TCP" addr 6, .eraseTcp 8,
      .register 2 8 "TCP" addr 6]).Agrees .tcp := by
  intro addr
  refine (registry_agrees fun p => ?_).1 .tcp
  refine Nat.lt_of_le_of_lt List.countP_le_length ?_
  decide

end LogisticService
