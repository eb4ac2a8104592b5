import LogisticService.Client.Handshake
import LogisticService.Order.Sample
import LogisticService.Server.Grants
import LogisticService.Server.Steps

/-!
# The PID a client announces

A client prints its PID into an array of six characters and sends it; the
server reads the number back and registers the client under it. The round trip
holds for every PID of at most five digits, while client ids are left; a PID
of more digits is written past the end of the array.
-/

namespace LogisticService

open Effects Program

def Transport.protocol : Transport → Protocol
  | .udp => .udp
  | .tcp => .tcp

/-- The operation that sends the first bytes. -/
def Transport.firstSend : Transport → String → HandshakeOperation
  | .udp => .sendto
  | .tcp => .send

/-- The bytes of the array that are sent. -/
def Transport.firstBytes (array : PidArray) : Transport → String
  | .udp => String.ofList array.1
  | .tcp => String.ofList (array.1.takeWhile (· ≠ '\x00'))

/-- The system assigned the PID. -/
def AnswersPid (pid : Int) : (o : HandshakeOperation) → o.Reply → Prop
  | .getpid, clientPid => clientPid = pid
  | _, _ => True

/-- A client with the PID may come to send the bytes. -/
def Announces (transport : Transport) (host : String) (clPidStr : PidArray) (pid : Int)
    (payload : String) : Prop :=
  ∃ h k, Leads (initializeClient transport host clPidStr) h
      (.call (transport.firstSend payload) k) ∧ ∀ e ∈ h, AnswersPid pid e.1 e.2

/-- The clients after the server took in the first bytes of a client, in one
read and with nothing else happening meanwhile. -/
def Sys.clientsAfter {env : Env} (s : Sys env) (cliAddr : SockAddr) (fd : Int) (payload : String) :
    Transport → Registry
  | .udp => (runAlone env (handleUdpClients env cliAddr (receivedText payload) s.udp.loop)
      (s.shared, [])).2.1.clients
  | .tcp => (s.readPid s.conns.length ⟨fd, cliAddr, .awaitPid⟩
      (receivedText payload)).shared.clients

/-- The text fits the array, the bytes sent read back as the PID, and a client
that is not in the map is put there under it. -/
structure RoundTrips {env : Env} (transport : Transport) (host : String) (clPidStr : PidArray)
    (pid : Int) (s : Sys env) (cliAddr : SockAddr) (fd : Int) : Prop where
  fits : printPid clPidStr pid ≠ none
  read : ∀ payload, Announces transport host clPidStr pid payload →
    atoi (receivedText payload) = pid
  registered : ∀ payload, Announces transport host clPidStr pid payload →
    pid ∉ s.shared.clients.clientMap transport.protocol →
      pid ∈ (s.clientsAfter cliAddr fd payload transport).clientMap transport.protocol

/-! ## The text in the array -/

theorem length_toString {pid : Int} (hpos : 0 < pid) :
    (toString pid).toList.length ≤ 5 ↔ pid ≤ 99999 := by
  obtain ⟨n, rfl⟩ := Int.eq_ofNat_of_zero_le (Int.le_of_lt hpos)
  have htext : toString (n : Int) = toString n := rfl
  rw [htext, Nat.toString_eq_ofList_toDigits, String.toList_ofList,
    Nat.length_toDigits_le_iff (by decide) (by decide)]
  omega

/-- The text and its terminator fit just when the PID has at most five digits. -/
theorem printPid_fits {pid : Int} (hpos : 0 < pid) (array : PidArray) :
    printPid array pid ≠ none ↔ pid ≤ 99999 := by
  rw [← length_toString hpos]
  unfold printPid
  dsimp only
  split
  · next h =>
    rw [List.length_append, List.length_singleton, CL_PID_STR_SIZE] at h
    exact iff_of_true nofun (by omega)
  · next h =>
    rw [List.length_append, List.length_singleton, CL_PID_STR_SIZE] at h
    exact iff_of_false (fun hne => hne rfl) (by omega)

theorem printPid_bytes {array array' : PidArray} {pid : Int}
    (h : printPid array pid = some array') :
    ∃ rest, array'.1 = (toString pid).toList ++ '\x00' :: rest := by
  unfold printPid at h
  dsimp only at h
  split at h
  · cases h
    exact ⟨_, List.append_assoc _ _ _⟩
  · cases h

theorem receivedText_ofList {cs : List Char} (h : cs.length ≤ BUFFER_SIZE_SERVER - 1) :
    receivedText (String.ofList cs) = String.ofList (cs.takeWhile (· ≠ '\x00')) := by
  rw [receivedText, String.toList_ofList, List.take_of_length_le h]

/-- Over both transports the text in the array is received. -/
theorem receivedText_firstBytes {array array' : PidArray} {pid : Int}
    (h : printPid array pid = some array') (transport : Transport) :
    receivedText (transport.firstBytes array') = toString pid := by
  have htext : String.ofList (array'.1.takeWhile (· ≠ '\x00')) = toString pid := by
    obtain ⟨rest, hrest⟩ := printPid_bytes h
    rw [hrest, List.takeWhile_append_of_pos, List.takeWhile_cons_of_neg (by simp),
      List.append_nil, String.ofList_toList]
    intro c hc
    have hne : c ≠ '\x00' := fun hnul => nul_not_in_decimal pid (hnul ▸ hc)
    simpa using hne
  have hlength : array'.1.length ≤ BUFFER_SIZE_SERVER - 1 := by
    rw [array'.2]
    decide
  cases transport with
  | udp => exact (receivedText_ofList hlength).trans htext
  | tcp =>
    have hcut := (array'.1.takeWhile_sublist (· ≠ '\x00')).length_le.trans hlength
    refine (receivedText_ofList hcut).trans ?_
    rw [List.takeWhile_takeWhile]
    simpa using htext

/-! ## What is sent -/

/-- The bytes an operation sends. -/
def HandshakeOperation.payload? : HandshakeOperation → Option String
  | .sendto payload => some payload
  | .send payload => some payload
  | _ => none

/-- Everything that is sent satisfies `P`. -/
def SendsFirst (P : String → Prop) (_ : List (Answered Handshake))
    (o : HandshakeOperation) : Prop :=
  ∀ payload, o.payload? = some payload → P payload

section

variable {P : String → Prop} {pid : Int} {h : List (Answered Handshake)}

theorem sendsFirst_of_none {o : HandshakeOperation} (ho : o.payload? = none) : SendsFirst P h o :=
  fun _ hp => by cases ho.symm.trans hp

theorem sendsFirst_of_some {o : HandshakeOperation} {payload : String}
    (ho : o.payload? = some payload) (hP : P payload) : SendsFirst P h o := by
  intro payload' hp
  rwa [Option.some.inj (hp.symm.trans ho)]

theorem failWith_sends {message : String} :
    (failWith message).Meets (AnswersPid pid) (SendsFirst P) (fun _ _ => True) h :=
  ⟨sendsFirst_of_none rfl, fun _ _ => trivial⟩

theorem closeWith_sends {message : String} :
    (closeWith message).Meets (AnswersPid pid) (SendsFirst P) (fun _ _ => True) h :=
  ⟨sendsFirst_of_none rfl, fun _ _ => ⟨sendsFirst_of_none rfl, fun _ _ => trivial⟩⟩

theorem announce_sends {send : Connecting Bool} {clientPid : Int} {protocol : String}
    (hsend : send.Meets (AnswersPid pid) (SendsFirst P) (fun _ _ => True) h) :
    (announce send clientPid protocol).Meets (AnswersPid pid) (SendsFirst P)
      (fun _ _ => True) h := by
  refine hsend.bind fun h' sent _ => ?_
  cases sent with
  | false => exact closeWith_sends
  | true =>
    refine ⟨sendsFirst_of_none rfl, fun _ _ => ⟨sendsFirst_of_none rfl, fun _ _ => ?_⟩⟩
    refine ⟨sendsFirst_of_none rfl, fun started _ => ?_⟩
    cases started with
    | false => exact closeWith_sends
    | true => trivial

end

section

variable {host : String} {clPidStr : PidArray} {pid : Int}

/-- The first bytes are the PID as it stands in the array. -/
def IsFirst (transport : Transport) (clPidStr : PidArray) (pid : Int) (payload : String) : Prop :=
  ∃ array, printPid clPidStr pid = some array ∧ payload = transport.firstBytes array

theorem announceUdp_sends {h : List (Answered Handshake)} :
    (announceUdp clPidStr pid).Meets (AnswersPid pid) (SendsFirst (IsFirst .udp clPidStr pid))
      (fun _ _ => True) h := by
  unfold announceUdp
  split
  · trivial
  · next array hprint =>
    exact announce_sends ⟨sendsFirst_of_some rfl ⟨array, hprint, rfl⟩, fun _ _ => trivial⟩

theorem announceTcp_sends {h : List (Answered Handshake)} :
    (announceTcp clPidStr pid).Meets (AnswersPid pid) (SendsFirst (IsFirst .tcp clPidStr pid))
      (fun _ _ => True) h := by
  unfold announceTcp
  split
  · trivial
  · next array hprint =>
    exact announce_sends ⟨sendsFirst_of_some rfl ⟨array, hprint, rfl⟩, fun _ _ => trivial⟩

theorem initializeClient_sends (transport : Transport) :
    (initializeClient transport host clPidStr).Meets (AnswersPid pid)
      (SendsFirst (IsFirst transport clPidStr pid)) (fun _ _ => True) [] := by
  cases transport with
  | udp =>
    refine ⟨sendsFirst_of_none rfl, fun found _ => ?_⟩
    cases found with
    | false => exact failWith_sends
    | true =>
    refine ⟨sendsFirst_of_none rfl, fun opened _ => ?_⟩
    cases opened with
    | false => exact failWith_sends
    | true =>
    refine ⟨sendsFirst_of_none rfl, fun clientPid hpid => ?_⟩
    obtain rfl : clientPid = pid := hpid
    exact announceUdp_sends
  | tcp =>
    refine ⟨sendsFirst_of_none rfl, fun found _ => ?_⟩
    cases found with
    | false => exact failWith_sends
    | true =>
    refine ⟨sendsFirst_of_none rfl, fun opened _ => ?_⟩
    cases opened with
    | false => exact failWith_sends
    | true =>
    refine ⟨sendsFirst_of_none rfl, fun connected _ => ?_⟩
    cases connected with
    | false => exact closeWith_sends
    | true =>
    refine ⟨sendsFirst_of_none rfl, fun clientPid hpid => ?_⟩
    obtain rfl : clientPid = pid := hpid
    exact announceTcp_sends

theorem announces_iff {transport : Transport} {payload : String} :
    Announces transport host clPidStr pid payload ↔ IsFirst transport clPidStr pid payload := by
  constructor
  · rintro ⟨h, k, hasks, hanswers⟩
    refine (initializeClient_sends transport).issued hasks hanswers payload ?_
    cases transport <;> rfl
  · rintro ⟨array, hprint, rfl⟩
    cases transport with
    | udp =>
      obtain ⟨k, hk⟩ : ∃ k, announceUdp clPidStr pid =
          .call (.sendto (Transport.firstBytes array .udp)) k := by
        rw [announceUdp, hprint]
        exact ⟨_, rfl⟩
      have hlast : Leads (announceUdp clPidStr pid) [] (.call _ k) := hk ▸ .refl _
      refine ⟨[⟨.gethostbyname host, true⟩, ⟨.socket, true⟩, ⟨.getpid, pid⟩], k,
        @Leads.call Handshake Stop Int (.gethostbyname host) _ _ _ true
          (@Leads.call Handshake Stop Int .socket _ _ _ true
            (@Leads.call Handshake Stop Int .getpid _ _ _ pid hlast)), ?_⟩
      simp [AnswersPid]
    | tcp =>
      obtain ⟨k, hk⟩ : ∃ k, announceTcp clPidStr pid =
          .call (.send (Transport.firstBytes array .tcp)) k := by
        rw [announceTcp, hprint]
        exact ⟨_, rfl⟩
      have hlast : Leads (announceTcp clPidStr pid) [] (.call _ k) := hk ▸ .refl _
      refine ⟨[⟨.gethostbyname host, true⟩, ⟨.socket, true⟩, ⟨.connect, true⟩, ⟨.getpid, pid⟩], k,
        @Leads.call Handshake Stop Int (.gethostbyname host) _ _ _ true
          (@Leads.call Handshake Stop Int .socket _ _ _ true
            (@Leads.call Handshake Stop Int .connect _ _ _ true
              (@Leads.call Handshake Stop Int .getpid _ _ _ pid hlast))), ?_⟩
      simp [AnswersPid]

end

/-! ## What the server does with it -/

theorem not_contains {m : ClientMap} {pid : Int} (h : pid ∉ m) : m.contains pid = false :=
  Bool.eq_false_iff.2 fun hin => h (Std.TreeMap.mem_iff_contains.2 hin)

/-- A registration puts a new client in the map just while ids are left. -/
theorem registerClient_mem_iff {reg : Registry} {now pid fd : Int} {p : Protocol}
    {addr : SockAddr} (hnew : pid ∉ reg.clientMap p) :
    pid ∈ (reg.registerClient now pid p.name addr fd).2.clientMap p ↔
      reg.nextClientId p ≤ MAX_CLIENTS_ID := by
  rw [Registry.registerClient_eq, if_neg (by simp [not_contains hnew])]
  by_cases hmax : reg.nextClientId p > MAX_CLIENTS_ID
  · rw [if_pos hmax, Registry.advance_clientMap]
    exact iff_of_false hnew (Int.not_le.2 hmax)
  · rw [if_neg hmax, Registry.store_clientMap, if_pos rfl]
    exact iff_of_true Std.TreeMap.mem_insert_self (Int.not_lt.1 hmax)

/-- The first bytes of a client that is not in the map are a registration. -/
theorem clientsAfter_eq {env : Env} {s : Sys env} (cliAddr : SockAddr) (fd : Int) {pid : Int}
    {payload : String} {transport : Transport} (hread : atoi (receivedText payload) = pid)
    (hpid : pid ≠ 0) (hnew : pid ∉ s.shared.clients.clientMap transport.protocol) :
    ∃ fd', s.clientsAfter cliAddr fd payload transport = (s.shared.clients.registerClient
      s.shared.clock pid transport.protocol.name cliAddr fd').2 := by
  cases transport with
  | udp =>
    have hcontains : s.shared.clients.clientMapUdp.contains pid = false := not_contains hnew
    refine ⟨0, ?_⟩
    show (runAlone env (handleUdpClients env cliAddr (receivedText payload) s.udp.loop)
      (s.shared, [])).2.1.clients = _
    unfold handleUdpClients
    dsimp only
    rw [hread, runAlone_bind_of_ok (runAlone_ask env _ _)]
    have hnewcomer : (!(answer env true s.shared (.udpRegistered pid)).1 &&
        decide (pid ≠ 0)) = true := by
      show (!s.shared.clients.clientMapUdp.contains pid && decide (pid ≠ 0)) = true
      rw [hcontains, decide_eq_true hpid]
      rfl
    split
    · rfl
    · next h => exact absurd hnewcomer h
  | tcp =>
    refine ⟨fd, ?_⟩
    show (s.readPid _ _ _).shared.clients = _
    rw [Sys.readPid_eq, hread, Sys.registration, if_pos hpid]
    rfl

/-- **The round trip of a PID holds just when it has at most five digits**, and
the client is in the map already or an id is left for it. -/
theorem handshake_roundTrips_iff {env : Env} (transport : Transport) (host : String)
    (clPidStr : PidArray) {pid : Int} (hpos : 0 < pid) (hint : IsInt pid) (s : Sys env)
    (cliAddr : SockAddr) (fd : Int) :
    RoundTrips transport host clPidStr pid s cliAddr fd ↔ pid ≤ 99999 ∧
      (pid ∈ s.shared.clients.clientMap transport.protocol ∨
        s.shared.clients.nextClientId transport.protocol ≤ MAX_CLIENTS_ID) := by
  have hread {payload : String} (h : Announces transport host clPidStr pid payload) :
      atoi (receivedText payload) = pid := by
    obtain ⟨array, hprint, rfl⟩ := announces_iff.1 h
    rw [receivedText_firstBytes hprint, atoi_toString hint]
  have hmem {payload : String} (h : Announces transport host clPidStr pid payload)
      (hnew : pid ∉ s.shared.clients.clientMap transport.protocol) :
      pid ∈ (s.clientsAfter cliAddr fd payload transport).clientMap transport.protocol ↔
        s.shared.clients.nextClientId transport.protocol ≤ MAX_CLIENTS_ID := by
    obtain ⟨fd', hafter⟩ := clientsAfter_eq cliAddr fd (hread h)
      (Int.ne_of_gt hpos) hnew
    rw [hafter, registerClient_mem_iff hnew]
  constructor
  · rintro ⟨hfits, _, hregistered⟩
    refine ⟨(printPid_fits hpos clPidStr).1 hfits, ?_⟩
    obtain ⟨array, hprint⟩ := Option.ne_none_iff_exists'.1 hfits
    have hsent : Announces transport host clPidStr pid (transport.firstBytes array) :=
      announces_iff.2 ⟨array, hprint, rfl⟩
    exact or_iff_not_imp_left.2 fun hnew => (hmem hsent hnew).1 (hregistered _ hsent hnew)
  · rintro ⟨hdigits, hroom⟩
    refine ⟨(printPid_fits hpos clPidStr).2 hdigits, fun _ h => hread h, fun _ h hnew => ?_⟩
    exact (hmem h hnew).2 (hroom.resolve_left hnew)

/-! ## Five digits and six -/

/-- An array that holds nothing in particular. -/
def blankArray : PidArray := ⟨List.replicate 6 'x', rfl⟩

/-- A server that just started registers the last PID of five digits. -/
theorem fiveDigits_roundTrip :
    let s : Sys externalEnv := .start (waterTables 50)
    RoundTrips .udp "localhost" blankArray 99999 s ⟨⟨127, 0, 0, 1⟩, 5000⟩ 0 ∧
      RoundTrips .tcp "localhost" blankArray 99999 s ⟨⟨127, 0, 0, 1⟩, 5001⟩ 4 := by
  constructor
  · exact (handshake_roundTrips_iff .udp "localhost" blankArray (by decide) (by decide) _ _ _).2
      ⟨by decide, .inr (by decide)⟩
  · exact (handshake_roundTrips_iff .tcp "localhost" blankArray (by decide) (by decide) _ _ _).2
      ⟨by decide, .inr (by decide)⟩

/-- The text of the first PID of six digits does not fit. -/
theorem sixDigits_overflow : ¬ ∀ (env : Env) (transport : Transport) (host : String)
    (clPidStr : PidArray) (pid : Int) (s : Sys env) (cliAddr : SockAddr) (fd : Int),
    0 < pid → IsInt pid → RoundTrips transport host clPidStr pid s cliAddr fd := by
  intro h
  have hfits := (h externalEnv .tcp "localhost" blankArray 100000 (.start (waterTables 50))
    ⟨⟨127, 0, 0, 1⟩, 5000⟩ 4 (by decide) (by decide)).fits
  exact absurd ((printPid_fits (by decide) blankArray).1 hfits) (by decide)

end LogisticService
