import LogisticService.Text
import Mathlib.Tactic.Common

/-!
# Registered clients

The two client maps with their id counters, and the operations of the server
on them. A map is keyed by the PID a client announced; the id under which
other clients address it is stored in the entry and found by a search in key
order. The counters are C `int`s: past `INT_MAX` the increment is undefined in
C++, and is taken here to wrap.
-/

namespace LogisticService

/-- `in_addr`, byte by byte in network order. -/
structure InAddr where
  b0 : UInt8
  b1 : UInt8
  b2 : UInt8
  b3 : UInt8
deriving DecidableEq

/-- `sockaddr_in` of an internet address. -/
structure SockAddr where
  sinAddr : InAddr
  sinPort : UInt16
deriving DecidableEq

/-- `inet_ntoa`. -/
def inetNtoa (a : InAddr) : String :=
  toString a.b0.toNat ++ "." ++ toString a.b1.toNat ++ "." ++ toString a.b2.toNat ++ "." ++
    toString a.b3.toNat

structure ClientInfo where
  clientId : Int
  socketFd : Int
  addr : SockAddr
  ipAddress : String
  protocol : String
  lastSeen : Int
deriving DecidableEq

/-- `std::map<int, ClientInfo>`, from PID to client. -/
abbrev ClientMap := Std.TreeMap Int ClientInfo

section

variable {m : ClientMap} {pid k : Int} {info x : ClientInfo}

/-- The entries of a map after a registration. -/
theorem ClientMap.insert_get :
    (m.insert pid info)[k]? = some x ↔ (k = pid ∧ x = info) ∨ (k ≠ pid ∧ m[k]? = some x) := by
  rw [Std.TreeMap.getElem?_insert]
  split
  · next h => obtain rfl := Std.compare_eq_iff_eq.1 h; simp [eq_comm]
  · next h =>
    have hne : k ≠ pid := fun heq => h (Std.compare_eq_iff_eq.2 heq.symm)
    simp [hne]

/-- The entries of a map after a disconnect. -/
theorem ClientMap.erase_get :
    (m.erase pid)[k]? = some x ↔ k ≠ pid ∧ m[k]? = some x := by
  rw [Std.TreeMap.getElem?_erase]
  split
  · next h => obtain rfl := Std.compare_eq_iff_eq.1 h; simp
  · next h =>
    have hne : k ≠ pid := fun heq => h (Std.compare_eq_iff_eq.2 heq.symm)
    simp [hne]

/-- The entries of a map after a cleanup. -/
theorem ClientMap.filter_get {keep : Int → ClientInfo → Bool} :
    (m.filter keep)[k]? = some x ↔ m[k]? = some x ∧ keep k x = true := by
  rw [Std.TreeMap.getElem?_filter', Option.filter_eq_some_iff]

end

def MAX_CLIENTS_ID : Int := 10000

structure Registry where
  clientMapUdp : ClientMap
  clientMapTcp : ClientMap
  nextClientIdUdp : Int
  nextClientIdTcp : Int

namespace Registry

/-- The state when the server starts. -/
def start : Registry := ⟨∅, ∅, 1, 1⟩

/-- The search of `findClientById` through one map. -/
def findIn (clientId : Int) (m : ClientMap) : Option ClientInfo :=
  (m.toList.find? fun pair => pair.2.clientId == clientId).map (·.2)

/-- `Server::findClientById`. -/
def findClientById (reg : Registry) (clientId : Int) (protocol : String) : Option ClientInfo :=
  let protoUpper := toUpper protocol
  if protoUpper = "UDP" then findIn clientId reg.clientMapUdp
  else if protoUpper = "TCP" then findIn clientId reg.clientMapTcp
  else none

/-- `Server::registerClient`, at time `now`. -/
def registerClient (reg : Registry) (now : Int) (pid : Int) (protocol : String) (addr : SockAddr)
    (socketFd : Int) : Int × Registry :=
  if protocol ≠ "UDP" ∧ protocol ≠ "TCP" then (-1, reg)
  else if (protocol = "UDP" ∧ reg.clientMapUdp.contains pid) ∨
      (protocol = "TCP" ∧ reg.clientMapTcp.contains pid) then (-1, reg)
  else
    let clientId := if protocol = "UDP" then reg.nextClientIdUdp else reg.nextClientIdTcp
    let reg :=
      if protocol = "UDP" then { reg with nextClientIdUdp := toInt32 (reg.nextClientIdUdp + 1) }
      else { reg with nextClientIdTcp := toInt32 (reg.nextClientIdTcp + 1) }
    if clientId > MAX_CLIENTS_ID then (-1, reg)
    else
      let info : ClientInfo :=
        { clientId, socketFd, addr, ipAddress := inetNtoa addr.sinAddr, protocol, lastSeen := now }
      (clientId,
        if protocol = "UDP" then { reg with clientMapUdp := reg.clientMapUdp.insert pid info }
        else { reg with clientMapTcp := reg.clientMapTcp.insert pid info })

/-- `Server::cleanupInactiveUdpClients`, at time `now`. -/
def cleanupInactiveUdpClients (reg : Registry) (now timeout : Int) : Registry :=
  { reg with
    clientMapUdp := reg.clientMapUdp.filter fun _ info => !(now - info.lastSeen > timeout) }

/-- `clientMapTcp.erase`, on the disconnect path of `Server::handleTcpClient`. -/
def eraseTcp (reg : Registry) (pid : Int) : Registry :=
  { reg with clientMapTcp := reg.clientMapTcp.erase pid }

end Registry

/-! ## The two protocols alike -/

inductive Protocol
  | udp
  | tcp
deriving DecidableEq

def Protocol.name : Protocol → String
  | .udp => "UDP"
  | .tcp => "TCP"

namespace Registry

def clientMap (reg : Registry) : Protocol → ClientMap
  | .udp => reg.clientMapUdp
  | .tcp => reg.clientMapTcp

def nextClientId (reg : Registry) : Protocol → Int
  | .udp => reg.nextClientIdUdp
  | .tcp => reg.nextClientIdTcp

/-- An id is taken from the counter. -/
def advance (reg : Registry) : Protocol → Registry
  | .udp => { reg with nextClientIdUdp := toInt32 (reg.nextClientIdUdp + 1) }
  | .tcp => { reg with nextClientIdTcp := toInt32 (reg.nextClientIdTcp + 1) }

/-- An entry is put in the map. -/
def store (reg : Registry) (pid : Int) (info : ClientInfo) : Protocol → Registry
  | .udp => { reg with clientMapUdp := reg.clientMapUdp.insert pid info }
  | .tcp => { reg with clientMapTcp := reg.clientMapTcp.insert pid info }

section

variable (reg : Registry) (p q : Protocol)

@[simp] theorem advance_clientMap : (reg.advance p).clientMap q = reg.clientMap q := by
  cases p <;> cases q <;> rfl

theorem advance_nextClientId : (reg.advance p).nextClientId q =
    if q = p then toInt32 (reg.nextClientId p + 1) else reg.nextClientId q := by
  cases p <;> cases q <;> rfl

theorem store_clientMap (pid : Int) (info : ClientInfo) : (reg.store pid info p).clientMap q =
    if q = p then (reg.clientMap p).insert pid info else reg.clientMap q := by
  cases p <;> cases q <;> rfl

@[simp] theorem store_nextClientId (pid : Int) (info : ClientInfo) :
    (reg.store pid info p).nextClientId q = reg.nextClientId q := by
  cases p <;> cases q <;> rfl

/-- A registration: the id is taken before it is held against the limit. -/
theorem registerClient_eq (now pid : Int) (addr : SockAddr) (socketFd : Int) :
    reg.registerClient now pid p.name addr socketFd =
      if (reg.clientMap p).contains pid then (-1, reg)
      else if reg.nextClientId p > MAX_CLIENTS_ID then (-1, reg.advance p)
      else (reg.nextClientId p, (reg.advance p).store pid
        { clientId := reg.nextClientId p, socketFd, addr, ipAddress := inetNtoa addr.sinAddr,
          protocol := p.name, lastSeen := now } p) := by
  cases p <;> simp [registerClient, Protocol.name, clientMap, nextClientId, advance, store]

/-- A name that is neither protocol's registers nothing. -/
theorem registerClient_unknown (now pid : Int) {protocol : String} (addr : SockAddr)
    (socketFd : Int) (h : ∀ p : Protocol, protocol ≠ p.name) :
    reg.registerClient now pid protocol addr socketFd = (-1, reg) := by
  unfold registerClient
  exact if_pos ⟨h .udp, h .tcp⟩

end

/-! ## Searching a map by id -/

theorem findIn_some {clientId : Int} {m : ClientMap} {info : ClientInfo}
    (h : findIn clientId m = some info) :
    info.clientId = clientId ∧ ∃ pid : Int, m[pid]? = some info := by
  unfold findIn at h
  obtain ⟨⟨pid, info'⟩, hfind, rfl⟩ := Option.map_eq_some_iff.1 h
  have hid := List.find?_some hfind
  have hmem := List.mem_of_find?_eq_some hfind
  exact ⟨by simpa using hid, pid, Std.TreeMap.mem_toList_iff_getElem?_eq_some.1 hmem⟩

/-- When only one entry carries the id, the search finds it. -/
theorem findIn_of_unique {clientId pid : Int} {m : ClientMap} {info : ClientInfo}
    (hget : m[pid]? = some info) (hid : info.clientId = clientId)
    (huniq : ∀ (pid' : Int) info', m[pid']? = some info' → info'.clientId = clientId →
      info' = info) : findIn clientId m = some info := by
  unfold findIn
  cases hfind : m.toList.find? fun pair => pair.2.clientId == clientId with
  | none =>
    have hnone := List.find?_eq_none.1 hfind (pid, info)
      (Std.TreeMap.mem_toList_iff_getElem?_eq_some.2 hget)
    exact absurd hid (by simpa using hnone)
  | some pair =>
    obtain ⟨pid', info'⟩ := pair
    have hid' := List.find?_some hfind
    have hmem := List.mem_of_find?_eq_some hfind
    have := huniq pid' info' (Std.TreeMap.mem_toList_iff_getElem?_eq_some.1 hmem)
      (by simpa using hid')
    simp only [Option.map_some, this]

end Registry

end LogisticService
