import LogisticService.Effects.Runs
import Mathlib.Data.List.Induction

/-!
# The client's exchange of one order

`client_communicate_udp` and `client_communicate_tcp`, from the text of an
order on: the order is sent, and sent again after every wait that ends without
a reply, as long as retries are left. The sockets are the surroundings. A wait
may end in a timeout whatever became of the order: the network lost it or the
reply, or the client's receiver thread read the reply first.
-/

namespace LogisticService

open Effects

def BUFFER_SIZE_CLIENT : Nat := 4096

def MAX_RETRIES : Nat := 3

/-- How a `select` on the socket ends. -/
inductive Selected
  | failed
  | timeout
  | ready

/-- How a `recv` with a timeout ends. -/
inductive Received
  | failed
  | timeout
  | data

inductive ClientOperation
  | sendto (payload : String)
  | select
  | recvfrom
  | send (payload : String)
  | setsockopt
  | recv

namespace ClientOperation

/-- Sends, `recvfrom` and `setsockopt` return whether they succeed. -/
abbrev Reply : ClientOperation → Type
  | .sendto _ | .send _ => Bool
  | .recvfrom | .setsockopt => Bool
  | .select => Selected
  | .recv => Received

/-- The bytes an operation sends. -/
def payload? : ClientOperation → Option String
  | .sendto payload => some payload
  | .send payload => some payload
  | _ => none

end ClientOperation

/-- The client's effect signature. -/
def Client : Signature := ⟨ClientOperation, ClientOperation.Reply⟩

/-- A part of the exchange; its result is the C function's. -/
abbrev Communicating := Program Client Empty Int

/-- Do one socket operation. -/
def socket (o : ClientOperation) : Program Client Empty o.Reply := @Program.perform Client Empty o

/-- The text as it stands in `buffer_send`. -/
def bufferSend (jsonString : String) : String :=
  String.ofList (jsonString.toList.take (BUFFER_SIZE_CLIENT - 1))

/-- The whole of `buffer_send`, which a datagram carries. -/
def wholeBuffer (jsonString : String) : String :=
  let text := (bufferSend jsonString).toList
  String.ofList (text ++ List.replicate (BUFFER_SIZE_CLIENT - text.length) '\x00')

/-- The loop of `client_communicate_udp`, with so many sends left. -/
def attemptsUdp (payload : String) : Nat → Communicating
  | 0 => return 1
  | left + 1 => do
    let sent ← socket (.sendto payload)
    if !sent then return -1
    else match ← socket .select with
      | .failed => return -1
      | .timeout => attemptsUdp payload left
      | .ready => do
        let read ← socket .recvfrom
        return if read then 0 else -1

/-- `client_communicate_udp`, on the order it built. -/
def clientCommunicateUdp (jsonString : String) : Communicating :=
  attemptsUdp (wholeBuffer jsonString) (MAX_RETRIES + 1)

/-- The loop of `client_communicate_tcp`, with so many sends left. -/
def attemptsTcp (payload : String) : Nat → Communicating
  | 0 => return 1
  | left + 1 => do
    let sent ← socket (.send payload)
    if !sent then return -1
    else do
      let set ← socket .setsockopt
      if !set then return -1
      else match ← socket .recv with
        | .timeout => attemptsTcp payload left
        | .failed => return -1
        | .data => return 0

/-- `client_communicate_tcp`, on the order it built. -/
def clientCommunicateTcp (jsonString : String) : Communicating :=
  attemptsTcp (bufferSend jsonString) (MAX_RETRIES + 1)

inductive Transport
  | udp
  | tcp

/-- The exchange of an order over either transport. -/
def clientCommunicate : Transport → String → Communicating
  | .udp => clientCommunicateUdp
  | .tcp => clientCommunicateTcp

/-- The bytes of the order on the wire. -/
def wireBytes : Transport → String → String
  | .udp => wholeBuffer
  | .tcp => bufferSend

/-! ## How often an order is sent -/

/-- A send was tried. -/
def isSend (e : Answered Client) : Bool := (ClientOperation.payload? e.1).isSome

/-- A send put the bytes on the wire. -/
def isSent : Answered Client → Bool
  | ⟨.sendto _, sent⟩ => sent
  | ⟨.send _, sent⟩ => sent
  | _ => false

/-- A wait ended without a reply. -/
def isTimeout : Answered Client → Bool
  | ⟨.select, .timeout⟩ => true
  | ⟨.recv, .timeout⟩ => true
  | _ => false

/-- An order is sent with the same bytes every time, again only after another
timeout, and while retries are left. -/
def SendsAgain (payload : String) (h : List (Answered Client)) (o : ClientOperation) : Prop :=
  ∀ p, o.payload? = some p →
    p = payload ∧ h.countP isSend < MAX_RETRIES + 1 ∧ h.countP isSend ≤ h.countP isTimeout

/-- So many sends are left, and every send so far ended in a timeout. -/
structure Retrying (h : List (Answered Client)) (left : Nat) : Prop where
  sends : h.countP isSend + left ≤ MAX_RETRIES + 1
  timeouts : h.countP isSend ≤ h.countP isTimeout

theorem Retrying.begin : Retrying [] (MAX_RETRIES + 1) :=
  ⟨Nat.le_of_eq (Nat.zero_add _), Nat.le_refl _⟩

section

variable {payload : String} {h : List (Answered Client)} {left : Nat}

/-- The next send is allowed. -/
theorem Retrying.sendsAgain (hr : Retrying h (left + 1)) {o : ClientOperation}
    (ho : o.payload? = some payload) : SendsAgain payload h o := by
  intro p hp
  have := hr.sends
  exact ⟨Option.some.inj (hp.symm.trans ho), by omega, hr.timeouts⟩

/-- One more send and one more timeout. -/
theorem Retrying.again (hr : Retrying h (left + 1)) {es : List (Answered Client)}
    (hsend : es.countP isSend = 1) (htimeout : es.countP isTimeout = 1) :
    Retrying (h ++ es) left := by
  have hsends := hr.sends
  have htimeouts := hr.timeouts
  refine ⟨?_, ?_⟩
  · rw [List.countP_append, hsend]
    omega
  · rw [List.countP_append, List.countP_append, hsend, htimeout]
    omega

/-- An operation that sends nothing is always allowed. -/
theorem sendsAgain_of_none {o : ClientOperation} (ho : o.payload? = none) :
    SendsAgain payload h o := fun p hp => by cases hp.symm.trans ho

theorem attemptsUdp_meets (hr : Retrying h left) :
    (attemptsUdp payload left).Meets (fun _ _ => True) (SendsAgain payload)
      (fun _ _ => True) h := by
  induction left generalizing h with
  | zero => trivial
  | succ left ih =>
    refine ⟨hr.sendsAgain rfl, fun sent _ => ?_⟩
    cases sent with
    | false => trivial
    | true =>
      refine ⟨sendsAgain_of_none rfl, fun selected _ => ?_⟩
      cases selected with
      | failed => trivial
      | timeout =>
        rw [List.append_assoc]
        exact ih (hr.again rfl rfl)
      | ready => exact ⟨sendsAgain_of_none rfl, fun _ _ => trivial⟩

theorem attemptsTcp_meets (hr : Retrying h left) :
    (attemptsTcp payload left).Meets (fun _ _ => True) (SendsAgain payload)
      (fun _ _ => True) h := by
  induction left generalizing h with
  | zero => trivial
  | succ left ih =>
    refine ⟨hr.sendsAgain rfl, fun sent _ => ?_⟩
    cases sent with
    | false => trivial
    | true =>
      refine ⟨sendsAgain_of_none rfl, fun set _ => ?_⟩
      cases set with
      | false => trivial
      | true =>
        refine ⟨sendsAgain_of_none rfl, fun received _ => ?_⟩
        cases received with
        | failed | data => trivial
        | timeout =>
          rw [List.append_assoc, List.append_assoc]
          exact ih (hr.again rfl rfl)

/-- Over either transport the client keeps to `SendsAgain`. -/
theorem clientCommunicate_meets (transport : Transport) (jsonString : String) :
    (clientCommunicate transport jsonString).Meets (fun _ _ => True)
      (SendsAgain (wireBytes transport jsonString)) (fun _ _ => True) [] := by
  cases transport with
  | udp => exact attemptsUdp_meets .begin
  | tcp => exact attemptsTcp_meets .begin

/-- Every history of an exchange has at most one send more than timeouts, and
at most one more than retries. -/
theorem sends_bounded (hk : Program.Kept (SendsAgain payload) h) :
    h.countP isSend ≤ MAX_RETRIES + 1 ∧ h.countP isSend ≤ h.countP isTimeout + 1 := by
  induction h using List.reverseRecOn with
  | nil => simp
  | append_singleton h e ih =>
    obtain ⟨hk, hlast⟩ := hk.of_snoc
    obtain ⟨hmax, htimeout⟩ := ih hk
    rw [List.countP_append, List.countP_append, List.countP_singleton, List.countP_singleton]
    split
    · next hsend =>
      obtain ⟨p, hp⟩ := Option.isSome_iff_exists.1 hsend
      obtain ⟨_, hless, hagain⟩ := hlast p hp
      omega
    · omega

theorem isSend_of_isSent {e : Answered Client} (h : isSent e = true) : isSend e = true := by
  obtain ⟨o, r⟩ := e
  cases o <;> first | rfl | cases h

end

end LogisticService
