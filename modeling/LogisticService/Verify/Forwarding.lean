import LogisticService.Order.Intake
import LogisticService.Server.Observing
import LogisticService.Verify.Commands

/-!
# What can be forwarded

`processMessage` parses a text that is no command and converts thirteen fields
of its `general_info`, whether or not it needs their values. It ends in an
exception just when the reader throws, when the document is neither an object
nor null, or when one of the conversions does (`processMessage_returns`).
-/

namespace LogisticService

open Effects Program

namespace Value

/-- The accessors can follow the path: every value on the way is an object or null. -/
def Reaches (v : Value) : List String → Prop
  | [] => True
  | key :: keys => v.IsRecord ∧ (v.child key).Reaches keys

theorem path_ok_iff {v w : Value} {keys : List String} :
    v.path keys = .ok w ↔ v.Reaches keys ∧ v.member keys = w := by
  induction keys generalizing v with
  | nil => simp [path, Reaches, member]
  | cons key keys ih =>
    unfold path Reaches
    rw [Except.seq_ok_iff]
    simp only [get_ok_iff]
    constructor
    · rintro ⟨_, ⟨hv, rfl⟩, h⟩
      obtain ⟨hreach, hmember⟩ := ih.1 h
      exact ⟨⟨hv, hreach⟩, hmember⟩
    · rintro ⟨⟨hv, hreach⟩, hmember⟩
      exact ⟨_, ⟨hv, rfl⟩, ih.2 ⟨hreach, hmember⟩⟩

/-- The object has a member with the key. -/
def Has (v : Value) (key : String) : Prop :=
  ∃ members, v = .object members ∧ members.any (·.1 == key) = true

theorem isMember_ok_iff {v : Value} {key : String} {b : Bool} :
    v.isMember key = .ok b ↔ v.IsRecord ∧ (b = true ↔ v.Has key) := by
  cases v with
  | null => simp [isMember, IsRecord, Has]
  | object members =>
    simp only [isMember, IsRecord, Has, Except.ok.injEq, Value.object.injEq, true_and,
      exists_eq_left']
    cases members.any (·.1 == key) <;> cases b <;> simp
  | _ => simp [isMember, IsRecord]

/-- A side of an order: a type and an integer location. -/
structure Endpoint (v : Value) : Prop where
  record : v.IsRecord
  type : (v.child "type").Textual
  location : (v.child "location").FitsInt

/-- The date, message, priority and protocol of an order. -/
structure Metadata (v : Value) : Prop where
  record : v.IsRecord
  date : (v.child "date").Textual
  message : (v.child "message").Textual
  priority : (v.child "priority").Textual
  protocol : (v.child "protocol").Textual

/-- The id, name and quantity of a product. -/
structure Product (v : Value) : Prop where
  record : v.IsRecord
  id : (v.child "id").Textual
  name : (v.child "name").Textual
  quantity : (v.child "quantity").FitsInt

/-- The `general_info` of an order that can be forwarded. -/
structure Forwardable (v : Value) : Prop where
  record : v.IsRecord
  id : (v.child "id").Textual
  source : (v.child "source").Endpoint
  destination : (v.child "destination").Endpoint
  action : (v.child "action").IsRecord
  actionType : ((v.child "action").child "type").Textual
  product : ((v.child "action").child "product").Product
  metadata : (v.child "metadata").Metadata

end Value

theorem passes_path {α : Type} {v : Value} {keys : List String} {next : Value → Except Exn α} :
    Passes (v.path keys >>= next) ↔ v.Reaches keys ∧ Passes (next (v.member keys)) := by
  simp only [passes_seq, Value.path_ok_iff]
  constructor
  · rintro ⟨w, ⟨hv, rfl⟩, h⟩
    exact ⟨hv, h⟩
  · intro ⟨hv, h⟩
    exact ⟨_, ⟨hv, rfl⟩, h⟩

/-- The conversions of `processMessage` all succeed just on such a `general_info`. -/
theorem forward_passes {info : Value} :
    Passes (Forward.ofGeneralInfo info) ↔ info.Forwardable := by
  unfold Forward.ofGeneralInfo
  simp only [passes_get, passes_path, passes_asString, passes_asInt, passes_pure, Value.Reaches,
    Value.member, List.foldl_cons, List.foldl_nil, and_true]
  constructor
  · rintro ⟨hinfo, hid, ⟨_, hsource⟩, hsourceType, _, m, hm, hmint, ⟨_, hdestination⟩,
      hdestinationType, _, n, hn, hnint, ⟨_, haction⟩, hactionType, ⟨_, _, hproduct⟩, hproductId,
      _, hname, _, q, hq, hqint, ⟨_, hmetadata⟩, hdate, _, hmessage, _, hpriority, _, hprotocol⟩
    exact ⟨hinfo, hid, ⟨hsource, hsourceType, m, hm, hmint⟩,
      ⟨hdestination, hdestinationType, n, hn, hnint⟩, haction, hactionType,
      ⟨hproduct, hproductId, hname, q, hq, hqint⟩,
      ⟨hmetadata, hdate, hmessage, hpriority, hprotocol⟩⟩
  · rintro ⟨hinfo, hid, ⟨hsource, hsourceType, m, hm, hmint⟩,
      ⟨hdestination, hdestinationType, n, hn, hnint⟩, haction, hactionType,
      ⟨hproduct, hproductId, hname, q, hq, hqint⟩,
      ⟨hmetadata, hdate, hmessage, hpriority, hprotocol⟩⟩
    exact ⟨hinfo, hid, ⟨hinfo, hsource⟩, hsourceType, ⟨hinfo, hsource⟩, m, hm, hmint,
      ⟨hinfo, hdestination⟩, hdestinationType, ⟨hinfo, hdestination⟩, n, hn, hnint,
      ⟨hinfo, haction⟩, hactionType, ⟨hinfo, haction, hproduct⟩, hproductId,
      ⟨hinfo, haction, hproduct⟩, hname, ⟨hinfo, haction, hproduct⟩, q, hq, hqint,
      ⟨hinfo, hmetadata⟩, hdate, ⟨hinfo, hmetadata⟩, hmessage, ⟨hinfo, hmetadata⟩, hpriority,
      ⟨hinfo, hmetadata⟩, hprotocol⟩

/-- What the reader may make of a text that is processed as an order: nothing,
or an object or null whose `general_info`, when it has one, can be forwarded. -/
def Readable (json : JsonCpp) (msg : String) : Prop :=
  json.parse msg = .ok none ∨ ∃ root, json.parse msg = .ok (some root) ∧ root.IsRecord ∧
    (root.Has "general_info" → (root.child "general_info").Forwardable)

theorem ofText_passes {json : JsonCpp} {msg : String} :
    Passes (Forward.ofText json msg) ↔ Readable json msg := by
  unfold Forward.ofText Readable
  rw [passes_seq]
  cases hparse : json.parse msg with
  | error e => simp
  | ok document =>
    cases document with
    | none => exact ⟨fun _ => .inl rfl, fun _ => ⟨none, rfl, passes_pure _⟩⟩
    | some root =>
      have hmember : Passes (root.isMember "general_info" >>= fun present =>
          if present = true then root.get "general_info" >>= fun info =>
            Forward.ofGeneralInfo info >>= fun f => pure (some f)
          else pure none) ↔
          root.IsRecord ∧ (root.Has "general_info" → (root.child "general_info").Forwardable) := by
        simp only [passes_seq, Value.isMember_ok_iff]
        constructor
        · rintro ⟨present, ⟨hrecord, hpresent⟩, h⟩
          refine ⟨hrecord, fun hhas => ?_⟩
          rw [if_pos (hpresent.2 hhas), passes_get, passes_seq] at h
          obtain ⟨_, f, hf, _⟩ := h
          exact forward_passes.1 ⟨f, hf⟩
        · rintro ⟨hrecord, hforward⟩
          by_cases hhas : root.Has "general_info"
          · refine ⟨true, ⟨hrecord, fun _ => hhas, fun _ => rfl⟩, ?_⟩
            obtain ⟨f, hf⟩ := forward_passes.2 (hforward hhas)
            rw [if_pos rfl, passes_get, passes_seq]
            exact ⟨hrecord, f, hf, passes_pure _⟩
          · refine ⟨false, ⟨hrecord, fun h => (by cases h), fun h => absurd h hhas⟩, ?_⟩
            exact passes_pure _
      constructor
      · rintro ⟨document, hdocument, h⟩
        cases hdocument
        exact .inr ⟨root, rfl, hmember.1 h⟩
      · rintro (hnone | ⟨root', hroot', h⟩)
        · cases hnone
        · cases hroot'
          exact ⟨some root, rfl, hmember.2 h⟩

theorem forwardMessageToClient_returns (message protocol : String) (clientId : Int) :
    (forwardMessageToClient message clientId protocol).Returns fun _ => True := by
  intro target
  cases target with
  | none => trivial
  | some info =>
    dsimp only
    split
    · exact fun _ => trivial
    · split
      · exact fun _ => trivial
      · trivial

theorem handleListClientsRequest_returns (protocol : String) (clientId : Int) :
    (handleListClientsRequest protocol clientId).Returns fun _ => True :=
  fun _ _ => forwardMessageToClient_returns _ _ _

theorem handleShowReportRequest_returns (protocol : String) (clientId : Int) :
    (handleShowReportRequest protocol clientId).Returns fun _ => True :=
  fun _ => forwardMessageToClient_returns _ _ _

/-- Run from any state, `processMessage` ends without an exception just on a
command and on a text that can be read. -/
theorem processMessage_finishes {env : Env} {msg protocol : String} {clientId : Int} {s : Alone} :
    (processMessage env.json msg protocol clientId).Finishes (answerAlone env) s ↔
      IsCommand msg ∨ Readable env.json msg := by
  by_cases hcommand : IsCommand msg
  · refine ⟨fun _ => .inl hcommand, fun _ => ?_⟩
    unfold processMessage
    split
    · exact (handleListClientsRequest_returns _ _).finishes _ s
    next hlist =>
    rw [if_pos (hcommand.resolve_left hlist)]
    exact (handleShowReportRequest_returns _ _).finishes _ s
  · unfold processMessage
    rw [if_neg fun h => hcommand (.inl h), if_neg fun h => hcommand (.inr h),
      Finishes.ofExcept_bind_iff]
    constructor
    · rintro ⟨f, hf, _⟩
      exact .inr (ofText_passes.1 ⟨f, hf⟩)
    · intro hread
      obtain ⟨f, hf⟩ := ofText_passes.2 (hread.resolve_left hcommand)
      refine ⟨f, hf, ?_⟩
      cases f with
      | none => exact .pure ()
      | some f => exact (forwardMessageToClient_returns _ _ _).finishes _ s

/-! ## Messages that are no orders -/

/-- The message is processed without an exception, and the client maps, the
stored orders and the product quantities are what they were. -/
def Harmless (env : Env) (msg protocol : String) (clientId : Int) (s : Alone) : Prop :=
  ∃ s', runAlone env (processMessage env.json msg protocol clientId) s = (.ok (), s') ∧
    s'.1.clients = s.1.clients ∧ s'.1.orders = s.1.orders

/-- **A message stops the server just when it cannot be read**: for every text,
whatever it begins with, and every state of the registry and the orders. -/
theorem processMessage_harmless_iff (env : Env) (msg protocol : String) (clientId : Int)
    (s : Alone) : Harmless env msg protocol clientId s ↔
      IsCommand msg ∨ Readable env.json msg := by
  rw [← @processMessage_finishes env msg protocol clientId s]
  constructor
  · rintro ⟨s', hrun, _⟩
    exact ⟨(), s', hrun⟩
  · rintro ⟨⟨⟩, s', hrun⟩
    have hsame := (processMessage_observes env.json msg protocol clientId).run env s
    rw [runAlone, hrun] at hsame
    exact ⟨s', hrun, congrArg Shared.clients hsame, congrArg Shared.orders hsame⟩

/-- The text of an empty array parses, and `isMember` throws on the array. -/
theorem emptyArray_not_harmless : ¬ ∀ (env : Env) (msg protocol : String) (clientId : Int)
    (s : Alone), beginsWithBrace msg = false → msg.utf8ByteSize ≤ 2047 →
      Harmless env msg protocol clientId s := by
  intro h
  obtain ⟨s', hrun, _⟩ := h (.reading [("[]", .array [])]) "[]" "UDP" 0
    (.start (waterTables 500), []) (by decide) (by decide)
  rcases processMessage_finishes.1 ⟨(), s', hrun⟩ with hcommand | hnone | ⟨root, hroot, h⟩
  · exact absurd hcommand (by decide)
  · cases hnone
  · cases hroot
    exact h.1

end LogisticService
