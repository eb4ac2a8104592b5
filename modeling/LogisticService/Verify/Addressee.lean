import LogisticService.Server.Grants
import LogisticService.Verify.Forwarding

/-!
# Whom an order is forwarded to

`processMessage` forwards an order to the client whose id is the source
location of the order, on the protocol its metadata names. The lookup compares
the upper-case name and the send the lower-case one; in every registry where no
two entries of a map share an id, both agree on one client, and nothing is sent
when there is none (`processMessage_reaches`).
-/

namespace LogisticService

open Effects Program

/-- No two entries of a map carry one id. -/
def Registry.DistinctIds (reg : Registry) : Prop :=
  ∀ p (pid pid' : Int) info info', (reg.clientMap p)[pid]? = some info →
    (reg.clientMap p)[pid']? = some info' → info.clientId = info'.clientId → pid = pid'

/-- A registry that was only called through its operations is one. -/
theorem Granting.run_distinctIds {es : List RegistryEvent}
    (hfew : ∀ p, es.countP (RegistryEvent.attempts p) < 2147483647) :
    (Granting.run es).reg.DistinctIds :=
  fun p _ _ _ _ hget hget' hid => (run_good hfew p).entry_unique hget hget' hid

/-- The client an order is addressed to: the protocol is named in any letter
case, and its map has the client under the order's source location. -/
structure Addressee (reg : Registry) (order : Value) (p : Protocol) (info : ClientInfo) :
    Prop where
  protocol : toLower (order.member ["general_info", "metadata", "protocol"]).text = toLower p.name
  id : (order.member ["general_info", "source", "location"]).integer? = some info.clientId
  stored : ∃ pid : Int, (reg.clientMap p)[pid]? = some info

theorem Protocol.eq_of_lower {p p' : Protocol} (h : toLower p'.name = toLower p.name) :
    p' = p := by
  revert h
  cases p <;> cases p' <;> decide +kernel

/-- A send to a client: to its address or to its socket. -/
def Protocol.sendTo : Protocol → ClientInfo → String → Operation
  | .udp, info, message => .sendto info.addr message
  | .tcp, info, message => .write info.socketFd message

/-- The text holds the action type, the quantity and the product name of the order. -/
def Carries (order : Value) (message : String) : Prop :=
  ∃ quantity, (order.member ["general_info", "action", "product", "quantity"]).integer? =
      some quantity ∧
    message = forwardText (order.member ["general_info", "action", "type"]).text quantity
      (order.member ["general_info", "action", "product", "name"]).text

/-- The sends among the operations of a trace, failed ones included. -/
def sendsOf (t : List (Answered Server)) : List Operation :=
  (t.map Sigma.fst).filter fun o => o.text?.isSome

/-- What the conversions of `processMessage` make of a `general_info`. -/
theorem Forward.ofGeneralInfo_fields {info : Value} {f : Forward}
    (h : Forward.ofGeneralInfo info = .ok f) :
    (info.member ["source", "location"]).integer? = some f.targetClientId ∧
      f.protocol = toLower (info.member ["metadata", "protocol"]).text ∧
      ∃ quantity, (info.member ["action", "product", "quantity"]).integer? = some quantity ∧
        f.message = forwardText (info.member ["action", "type"]).text quantity
          (info.member ["action", "product", "name"]).text := by
  unfold Forward.ofGeneralInfo at h
  simp only [Except.seq_ok_iff, Value.path_ok_iff, Value.asString_ok_iff, Value.asInt_ok_iff] at h
  -- The id and the source.
  obtain ⟨_, _, _, _, _, _, _, _, _, ⟨_, rfl⟩, _, ⟨hlocation, _⟩, h⟩ := h
  -- The destination, and the action with its product.
  obtain ⟨_, _, _, _, _, _, _, _, _, ⟨_, rfl⟩, _, ⟨_, rfl⟩, h⟩ := h
  obtain ⟨_, _, _, _, _, ⟨_, rfl⟩, _, ⟨_, rfl⟩, _, ⟨_, rfl⟩, _, ⟨hquantity, _⟩, h⟩ := h
  -- The metadata.
  obtain ⟨_, _, _, _, _, _, _, _, _, _, _, _, _, ⟨_, rfl⟩, _, ⟨_, rfl⟩, h⟩ := h
  cases h
  exact ⟨hlocation, rfl, _, hquantity, rfl⟩

/-! ## The lookup and the send -/

/-- The lookup under a lower-case name searches the map of that protocol. -/
theorem Registry.findClientById_lower (reg : Registry) (clientId : Int) (p : Protocol) :
    reg.findClientById clientId (toLower p.name) = findIn clientId (reg.clientMap p) := by
  unfold findClientById
  cases p with
  | udp =>
    rw [show toUpper (toLower Protocol.udp.name) = "UDP" by decide +kernel]
    rfl
  | tcp =>
    rw [show toUpper (toLower Protocol.tcp.name) = "TCP" by decide +kernel]
    rfl

/-- The one client that is stored under an id is found by it. -/
theorem Registry.DistinctIds.findIn {reg : Registry} (h : reg.DistinctIds) {p : Protocol}
    {pid : Int} {info : ClientInfo} (hget : (reg.clientMap p)[pid]? = some info) :
    Registry.findIn info.clientId (reg.clientMap p) = some info := by
  refine Registry.findIn_of_unique hget rfl fun pid' info' hget' hid => ?_
  obtain rfl := h p pid' pid info' info hget' hget hid
  exact Option.some.inj (hget'.symm.trans hget)

section

variable {env : Env} {s : Alone} {message protocol : String} {clientId : Int}

/-- What is sent to the client that was found. -/
def sendsVia (protocol message : String) (info : ClientInfo) : List Operation :=
  if protocol = "udp" then [Protocol.udp.sendTo info message]
  else if protocol = "tcp" then [Protocol.tcp.sendTo info message]
  else []

theorem trace_ask {α : Type} {o : Operation} {f : o.Reply → Handling α} :
    (ask o >>= f).trace (answerAlone env) s =
      ⟨o, (answerAlone env s o).1⟩ ::
        (f (answerAlone env s o).1).trace (answerAlone env) (answerAlone env s o).2 := rfl

theorem forward_sends :
    sendsOf ((forwardMessageToClient message clientId protocol).trace (answerAlone env) s) =
      ((s.1.clients.findClientById clientId protocol).map (sendsVia protocol message)).getD [] := by
  have hanswer : (answerAlone env s (.findClientById clientId protocol)).1 =
      s.1.clients.findClientById clientId protocol := rfl
  unfold forwardMessageToClient
  rw [trace_ask, hanswer]
  cases s.1.clients.findClientById clientId protocol with
  | none => rfl
  | some info =>
    show _ = sendsVia protocol message info
    unfold sendsVia
    dsimp only
    by_cases hudp : protocol = "udp"
    · rw [if_pos hudp, if_pos hudp]
      rfl
    · rw [if_neg hudp, if_neg hudp]
      by_cases htcp : protocol = "tcp"
      · rw [if_pos htcp, if_pos htcp]
        rfl
      · rw [if_neg htcp, if_neg htcp]
        rfl

theorem sendsVia_lower (p : Protocol) (info : ClientInfo) :
    sendsVia (toLower p.name) message info = [p.sendTo info message] := by
  unfold sendsVia
  cases p with
  | udp => exact if_pos (by decide +kernel)
  | tcp => exact (if_neg (by decide +kernel)).trans (if_pos (by decide +kernel))

theorem sendsVia_other (h : ∀ p : Protocol, protocol ≠ toLower p.name) (info : ClientInfo) :
    sendsVia protocol message info = [] := by
  have hudp : toLower Protocol.udp.name = "udp" := by decide +kernel
  have htcp : toLower Protocol.tcp.name = "tcp" := by decide +kernel
  exact (if_neg (hudp ▸ h .udp)).trans (if_neg (htcp ▸ h .tcp))

end

/-! ## What an order is forwarded as -/

/-- The message, the id and the protocol are those of the order. -/
structure Forward.Of (order : Value) (f : Forward) : Prop where
  carries : Carries order f.message
  id : (order.member ["general_info", "source", "location"]).integer? = some f.targetClientId
  protocol : f.protocol = toLower (order.member ["general_info", "metadata", "protocol"]).text

theorem Forward.ofText_object {json : JsonCpp} {msg : String} {members : List (String × Value)}
    (hparse : json.parse msg = .ok (some (.object members)))
    (hinfo : ((Value.object members).child "general_info").Forwardable) :
    (Forward.ofText json msg = .ok none ∧ (Value.object members).child "general_info" = .null) ∨
      ∃ f, Forward.ofText json msg = .ok (some f) ∧ f.Of (.object members) := by
  cases hmember : members.any (·.1 == "general_info") with
  | false =>
    left
    have hfind : members.find? (·.1 == "general_info") = none := by
      simpa using hmember
    refine ⟨?_, by rw [Value.child, hfind]; rfl⟩
    refine Except.seq_ok_iff.2 ⟨_, hparse, Except.seq_ok_iff.2 ⟨false, ?_, rfl⟩⟩
    exact congrArg Except.ok hmember
  | true =>
    right
    obtain ⟨f, hf⟩ := forward_passes.2 hinfo
    obtain ⟨hid, hprotocol, hcarries⟩ := Forward.ofGeneralInfo_fields hf
    refine ⟨f, ?_, hcarries, hid, hprotocol⟩
    refine Except.seq_ok_iff.2 ⟨_, hparse, Except.seq_ok_iff.2 ⟨true, ?_, ?_⟩⟩
    · exact congrArg Except.ok hmember
    · exact Except.seq_ok_iff.2 ⟨_, rfl, Except.seq_ok_iff.2 ⟨f, hf, rfl⟩⟩

/-! ## What an order reaches -/

/-- At most one send, one just when the order has an addressee, and then to
the addressee with the fields of the order. -/
structure ReachesAddressee (reg : Registry) (order : Value) (sends : List Operation) : Prop where
  once : sends.length ≤ 1
  sent : sends ≠ [] ↔ ∃ p info, Addressee reg order p info
  addressed : ∀ p info, Addressee reg order p info →
    ∃ message, Carries order message ∧ sends = [p.sendTo info message]

namespace ReachesAddressee

variable {reg : Registry} {order : Value} {f : Forward} {message : String}

theorem nobody (h : ∀ p info, ¬ Addressee reg order p info) : ReachesAddressee reg order [] where
  once := Nat.zero_le _
  sent := ⟨fun hsent => absurd rfl hsent, fun ⟨p, info, haddressee⟩ => absurd haddressee (h p info)⟩
  addressed p info haddressee := absurd haddressee (h p info)

/-- An order has at most one addressee. -/
theorem unique (hids : reg.DistinctIds) {p p' : Protocol} {info info' : ClientInfo}
    (h : Addressee reg order p info) (h' : Addressee reg order p' info') :
    p' = p ∧ info' = info := by
  obtain rfl := Protocol.eq_of_lower (h'.protocol.symm.trans h.protocol)
  obtain ⟨pid, hget⟩ := h.stored
  obtain ⟨pid', hget'⟩ := h'.stored
  have hid : info'.clientId = info.clientId := Option.some.inj (h'.id.symm.trans h.id)
  obtain rfl := hids p' pid' pid info' info hget' hget hid
  exact ⟨rfl, Option.some.inj (hget'.symm.trans hget)⟩

theorem somebody (hids : reg.DistinctIds) {p : Protocol} {info : ClientInfo}
    (h : Addressee reg order p info) (hcarries : Carries order message) :
    ReachesAddressee reg order [p.sendTo info message] where
  once := Nat.le_refl _
  sent := ⟨fun _ => ⟨p, info, h⟩, fun _ => List.cons_ne_nil _ _⟩
  addressed p' info' h' := by
    obtain ⟨rfl, rfl⟩ := unique hids h h'
    exact ⟨message, hcarries, rfl⟩

/-- What is sent for the fields of an order reaches its addressee. -/
theorem of_forward (hids : reg.DistinctIds) (hof : f.Of order) :
    ReachesAddressee reg order (((reg.findClientById f.targetClientId f.protocol).map
      (sendsVia f.protocol f.message)).getD []) := by
  by_cases hnamed : ∃ p : Protocol, f.protocol = toLower p.name
  · obtain ⟨p, hp⟩ := hnamed
    rw [hp, Registry.findClientById_lower]
    cases hfound : Registry.findIn f.targetClientId (reg.clientMap p) with
    | none =>
      refine nobody fun p' info h => ?_
      obtain ⟨pid, hget⟩ := h.stored
      have hlower := h.protocol.symm.trans (hof.protocol.symm.trans hp)
      obtain rfl := Protocol.eq_of_lower hlower
      have hid : info.clientId = f.targetClientId := Option.some.inj (h.id.symm.trans hof.id)
      rw [← hid, hids.findIn hget] at hfound
      cases hfound
    | some info =>
      obtain ⟨hid, hstored⟩ := Registry.findIn_some hfound
      rw [Option.map_some, Option.getD_some, sendsVia_lower]
      exact somebody hids ⟨hof.protocol.symm.trans hp, hid ▸ hof.id, hstored⟩ hof.carries
  · have hother : ∀ p : Protocol, f.protocol ≠ toLower p.name := fun p hp => hnamed ⟨p, hp⟩
    have hnone : ((reg.findClientById f.targetClientId f.protocol).map
        (sendsVia f.protocol f.message)).getD [] = [] := by
      cases reg.findClientById f.targetClientId f.protocol with
      | none => rfl
      | some info => exact sendsVia_other hother info
    rw [hnone]
    exact nobody fun p info h => hother p (hof.protocol.trans h.protocol)

end ReachesAddressee

/-- **Forwarding reaches exactly the addressed client**: for every registry
without a shared id and every order that converts, whatever becomes of the
send, and nothing that the handlers share changes. -/
theorem processMessage_reaches {env : Env} {members : List (String × Value)} {msg : String}
    (protocol : String) (clientId : Int) (s : Alone)
    (hreader : ∀ text, IsCommand text → env.json.parse text = .ok none)
    (hparse : env.json.parse msg = .ok (some (.object members)))
    (hinfo : ((Value.object members).child "general_info").Forwardable)
    (hids : s.1.clients.DistinctIds) :
    let process := processMessage env.json msg protocol clientId
    ReachesAddressee s.1.clients (.object members)
        (sendsOf (process.trace (answerAlone env) s)) ∧
      ∃ s', runAlone env process s = (.ok (), s') ∧ s'.1 = s.1 := by
  intro process
  have hplain : ¬ IsCommand msg := by
    intro hcommand
    rw [hreader msg hcommand] at hparse
    cases hparse
  have hprocess : process = Program.ofExcept (Forward.ofText env.json msg) >>= fun f? =>
      f?.elim (.pure ()) fun f => forwardMessageToClient f.message f.targetClientId f.protocol := by
    show processMessage env.json msg protocol clientId = _
    unfold processMessage
    rw [if_neg fun h => hplain (.inl h), if_neg fun h => hplain (.inr h)]
    exact congrArg (_ >>= ·) (funext fun f? => by cases f? <;> rfl)
  constructor
  · rw [hprocess]
    rcases Forward.ofText_object hparse hinfo with ⟨hf, hnull⟩ | ⟨f, hf, hof⟩
    · -- Without a `general_info` no protocol is named, and nothing is sent.
      rw [hf]
      refine ReachesAddressee.nobody fun p info h => ?_
      have hempty : toLower "" = toLower p.name := by
        have hprotocol := h.protocol
        rw [Value.member, List.foldl_cons, hnull] at hprotocol
        exact hprotocol
      revert hempty
      cases p <;> decide +kernel
    · rw [hf]
      show ReachesAddressee _ _ (sendsOf ((forwardMessageToClient _ _ _).trace _ _))
      rw [forward_sends]
      exact ReachesAddressee.of_forward hids hof
  · have hread : Readable env.json msg := .inr ⟨_, hparse, trivial, fun _ => hinfo⟩
    obtain ⟨⟨⟩, s', hrun⟩ := processMessage_finishes.2 (.inr hread)
    have hsame := (processMessage_observes env.json msg protocol clientId).run env s
    rw [runAlone, hrun] at hsame
    exact ⟨s', hrun, hsame⟩

/-- Water for whoever is client 2 over UDP, however the protocol is spelled. -/
def postedOrder : Value :=
  .object [("general_info", .object
    [("action", .object
        [("product", .object [("name", .string "Water"), ("quantity", .int 25)]),
        ("type", .string "req")]),
      ("metadata", .object [("protocol", .string "Udp")]),
      ("source", .object [("location", .int 2)])])]

def postedOrderText : String :=
  "\x7b\"general_info\":\x7b\"source\":\x7b\"location\":2\x7d," ++
    "\"action\":\x7b\"type\":\"req\",\"product\":\x7b\"name\":\"Water\",\"quantity\":25\x7d\x7d," ++
    "\"metadata\":\x7b\"protocol\":\"Udp\"\x7d\x7d\x7d"

/-- A server that can read the order. -/
def postedEnv : Env := .reading [(postedOrderText, postedOrder)]

/-- Two clients have registered over UDP. -/
def twoClients : Shared :=
  { Shared.start (waterTables 500) with
    clients := (Granting.run [.register 0 7 "UDP" ⟨⟨127, 0, 0, 1⟩, 5000⟩ 0,
      .register 1 8 "UDP" ⟨⟨127, 0, 0, 1⟩, 5001⟩ 0]).reg }

/-- The second client is sent the order, although it came from elsewhere. -/
theorem processMessage_reaches_second :
    sendsOf ((processMessage postedEnv.json postedOrderText "TCP" 1).trace (answerAlone postedEnv)
      (twoClients, [false])) =
    [.sendto ⟨⟨127, 0, 0, 1⟩, 5001⟩ "FORWARDED_MESSAGE: req 25 Water"] := by
  have hids : twoClients.clients.DistinctIds := Granting.run_distinctIds fun p =>
    Nat.lt_of_le_of_lt List.countP_le_length (by decide)
  have hinfo : (postedOrder.child "general_info").Forwardable :=
    ⟨trivial, trivial, ⟨trivial, trivial, 2, rfl, by decide⟩, ⟨trivial, trivial, 0, rfl, by decide⟩,
      trivial, trivial, ⟨trivial, trivial, trivial, 25, rfl, by decide⟩,
      ⟨trivial, trivial, trivial, trivial, trivial⟩⟩
  have hparse : postedEnv.json.parse postedOrderText = .ok (some postedOrder) := by
    simp [postedEnv, Env.reading, JsonCpp.ofReader, List.lookup_cons]
  have hreader : ∀ text, IsCommand text → postedEnv.json.parse text = .ok none := by
    intro text hcommand
    have hne : (text == postedOrderText) = false := by
      rcases hcommand with rfl | rfl <;> decide +kernel
    simp [postedEnv, Env.reading, JsonCpp.ofReader, List.lookup_cons, hne]
  have hreaches :=
    (processMessage_reaches "TCP" 1 (twoClients, [false]) hreader hparse hinfo hids).1
  obtain ⟨message, ⟨quantity, hquantity, rfl⟩, hsends⟩ := hreaches.addressed .udp
    ⟨2, 0, ⟨⟨127, 0, 0, 1⟩, 5001⟩, "127.0.0.1", "UDP", 1⟩
    ⟨by decide +kernel, rfl, 8, by decide +kernel⟩
  cases hquantity
  rw [hsends]
  decide +kernel

end LogisticService
