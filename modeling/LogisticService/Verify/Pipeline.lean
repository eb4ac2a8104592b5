import LogisticService.Verify.Forwarding
import LogisticService.Verify.Limits
import LogisticService.Verify.SourceRow

/-!
# What stops an accepted order

Validation, the stock check and the transfer convert most of the fields that
the stages after them need; what they never look at is the id of the order, the
id of the product and the metadata. An accepted order gets to the end of the
pipeline just when these convert as well (`Finishable`): an order without a
product id, from a warehouse, stops the server after its stock was moved.
-/

namespace LogisticService

open Effects Program

def productIdPath : List String := ["general_info", "action", "product", "id"]

/-- The fields that only the later stages read convert. -/
structure Finishable (root : Value) : Prop where
  id : (root.member ["general_info", "id"]).Textual
  productId : (root.member productIdPath).Textual
  /-- The two checks of a warehouse read the product id as a number. -/
  watchedId : root.stringAt sourceTypePath = .ok "warehouse" →
    ∃ n, stoi (root.member productIdPath).text = .ok n
  metadata : (root.member ["general_info", "metadata"]).Metadata

/-- The stages after the transfer, each from whatever state it is run in, end
without an exception. -/
structure StagesFinish (env : Env) (root : Value) (buffer protocol : String) (clientId : Int)
    (alertOut alertOut' : String) (s s' s'' : Alone) : Prop where
  lowStock : (checkLowStockAlert env.json root alertOut).Finishes (answerAlone env) s
  restock : (LogisticService.reStock env.json root alertOut').Finishes (answerAlone env) s'
  forward : (processMessage env.json buffer protocol clientId).Finishes (answerAlone env) s''

namespace Value

variable {v : Value} {keys : List String}

theorem stringAt_ok_iff {s : String} : v.stringAt keys = .ok s ↔
    v.Reaches keys ∧ (v.member keys).Textual ∧ (v.member keys).text = s := by
  unfold stringAt
  rw [Except.seq_ok_iff]
  simp only [path_ok_iff]
  constructor
  · rintro ⟨_, ⟨hreach, rfl⟩, h⟩
    exact ⟨hreach, asString_ok_iff.1 h⟩
  · rintro ⟨hreach, h⟩
    exact ⟨_, ⟨hreach, rfl⟩, asString_ok_iff.2 h⟩

theorem intAt_ok_iff {n : Int} : v.intAt keys = .ok n ↔
    v.Reaches keys ∧ (v.member keys).integer? = some n ∧ IsInt n := by
  unfold intAt
  rw [Except.seq_ok_iff]
  simp only [path_ok_iff]
  constructor
  · rintro ⟨_, ⟨hreach, rfl⟩, h⟩
    exact ⟨hreach, asInt_ok_iff.1 h⟩
  · rintro ⟨hreach, h⟩
    exact ⟨_, ⟨hreach, rfl⟩, asInt_ok_iff.2 h⟩

theorem has_of_child_ne_null {key : String} (h : v.child key ≠ .null) : v.Has key := by
  cases v with
  | object members =>
    refine ⟨members, rfl, ?_⟩
    cases hfind : members.find? (·.1 == key) with
    | none =>
      refine absurd ?_ h
      simp only [child, hfind, Option.map_none, Option.getD_none]
    | some m => exact List.any_eq_true.2 ⟨m, List.mem_of_find?_eq_some hfind, by
        simpa using List.find?_some hfind⟩
  | _ => exact absurd rfl h

end Value

/-! ## What the gates have made sure of -/

/-- The fields that an accepted order has when its transfer returned. -/
structure Gated (root : Value) : Prop where
  has : root.Has "general_info"
  action : ∃ actionType, root.stringAt actionTypePath = .ok actionType
  sourceText : ∃ text location, root.stringAt sourceLocationPath = .ok text ∧
    stoi text = .ok location
  transfer : ∃ t, Transfer.ofJson root = .ok t

theorem Gated.of_gates {env : Env} {root : Value} {error message error' message' : String}
    {s s₁ s₂ : Alone} {v : Int}
    (hvalid : validateOrderLimits env.json root error = .ok (true, message))
    (hstock : runAlone env (checkProductStock env.json root error') s = (.ok (true, message'), s₁))
    (hupdate : runAlone env (realTimeUpdate root) s₁ = (.ok v, s₂)) : Gated root := by
  obtain ⟨_, hlimits⟩ | ⟨hinvalid, _⟩ := validateOrderLimits_ok hvalid
  swap
  · cases hinvalid
  obtain ⟨_, r, _, _, _, _, hr, _⟩ := checkProductStock_compared hstock
  obtain ⟨_, ⟨text, htext, hid⟩, _, _⟩ := StockRequest.ofJson_ok hr
  cases ht : Transfer.ofJson root with
  | error e =>
    rw [realTimeUpdate_of_error ht] at hupdate
    cases hupdate
  | ok t =>
  refine ⟨?_, ?_, ⟨text, _, htext, hid⟩, ⟨t, ht⟩⟩
  · have hcomplete : Justified root none := checkOrder_justified hlimits
    exact Value.has_of_child_ne_null hcomplete.complete.1
  · exact (checkOrder_vets hlimits ht).1.elim (fun h => ⟨_, h⟩) fun h => ⟨_, h⟩

/-- The two checks of a warehouse get to their stock read just when they can
read the product id, where they look at it. -/
theorem Gated.watched_passes {root : Value} (h : Gated root) :
    Passes (WatchedStock.ofJson root) ↔ (root.stringAt sourceTypePath = .ok "warehouse" →
      (root.member productIdPath).Textual ∧
        ∃ n, stoi (root.member productIdPath).text = .ok n) := by
  obtain ⟨_, _, ⟨text, location, htext, hid⟩, t, ht⟩ := h
  obtain ⟨htype, _, _, hname, _⟩ := Transfer.ofJson_ok ht
  obtain ⟨⟨hroot, hinfo, hsource, _⟩, htextual, hvalue⟩ := Value.stringAt_ok_iff.1 htype
  obtain ⟨_, hlocation, rfl⟩ := Value.stringAt_ok_iff.1 htext
  obtain ⟨⟨_, _, haction, hproduct, _⟩, hnameText, _⟩ := Value.stringAt_ok_iff.1 hname
  have hproductReach : root.Reaches productNamePath := ⟨hroot, hinfo, haction, hproduct, trivial⟩
  have hidReach : root.Reaches productIdPath := ⟨hroot, hinfo, haction, hproduct, trivial⟩
  have hread : root.stringAt sourceTypePath = .ok "warehouse" ↔
      ¬ (root.member sourceTypePath).text ≠ "warehouse" := by
    rw [htype, hvalue, Except.ok.injEq, not_not]
  unfold WatchedStock.ofJson
  rw [passes_path, passes_get, passes_asString, hread]
  refine ⟨fun ⟨_, _, _, h⟩ hwarehouse => ?_,
    fun h => ⟨⟨hroot, hinfo, trivial⟩, hsource, htextual, ?_⟩⟩
  · replace h : Passes (if (root.member sourceTypePath).text ≠ "warehouse" then _ else _) := h
    rw [if_neg hwarehouse, passes_get, passes_asString, passes_seq] at h
    obtain ⟨_, _, _, _, h⟩ := h
    rw [passes_path, passes_asString, passes_path, passes_asString, passes_seq] at h
    obtain ⟨_, _, _, hidText, n, hn, _⟩ := h
    exact ⟨hidText, n, hn⟩
  · show Passes (if (root.member sourceTypePath).text ≠ "warehouse" then _ else _)
    split
    · exact passes_pure _
    · next hwarehouse =>
      obtain ⟨hidText, n, hn⟩ := h hwarehouse
      rw [passes_get, passes_asString, passes_seq]
      refine ⟨hsource, hlocation, location, hid, ?_⟩
      rw [passes_path, passes_asString, passes_path, passes_asString, passes_seq]
      exact ⟨hproductReach, hnameText, hidReach, hidText, n, hn, passes_pure _⟩

/-- With what the gates made sure of, the rest of `general_info` is what is
left to convert. -/
theorem Gated.forwardable {root : Value} (h : Gated root) :
    (root.child "general_info").Forwardable ↔
      (root.member ["general_info", "id"]).Textual ∧ (root.member productIdPath).Textual ∧
        (root.member ["general_info", "metadata"]).Metadata := by
  obtain ⟨_, ⟨actionType, haction⟩, _, t, ht⟩ := h
  obtain ⟨hsourceType, hsource, hdestinationType, hname, hquantity⟩ := Transfer.ofJson_ok ht
  have hdestination := Transfer.ofJson_destination ht
  obtain ⟨⟨_, hinfo, hsourceRecord, _⟩, hsourceType, _⟩ := Value.stringAt_ok_iff.1 hsourceType
  obtain ⟨_, hsource⟩ := Value.intAt_ok_iff.1 hsource
  obtain ⟨⟨_, _, hdestinationRecord, _⟩, hdestinationType, _⟩ :=
    Value.stringAt_ok_iff.1 hdestinationType
  obtain ⟨_, hdestination⟩ := Value.intAt_ok_iff.1 hdestination
  obtain ⟨⟨_, _, hactionRecord, _⟩, hactionType, _⟩ := Value.stringAt_ok_iff.1 haction
  obtain ⟨⟨_, _, _, hproductRecord, _⟩, hname, _⟩ := Value.stringAt_ok_iff.1 hname
  obtain ⟨_, hquantity⟩ := Value.intAt_ok_iff.1 hquantity
  constructor
  · intro h
    exact ⟨h.id, h.product.id, h.metadata⟩
  · rintro ⟨hid, hproductId, hmetadata⟩
    exact ⟨hinfo, hid, ⟨hsourceRecord, hsourceType, _, hsource⟩,
      ⟨hdestinationRecord, hdestinationType, _, hdestination⟩, hactionRecord, hactionType,
      ⟨hproductRecord, hproductId, hname, _, hquantity⟩, hmetadata⟩

/-! ## The stages after the transfer -/

theorem WatchedStock.lowStock_returns (json : JsonCpp) (w : WatchedStock) (alertOut : String) :
    (w.lowStock json alertOut).Returns fun _ => True := by
  intro rows
  show Returns _ (if readStock rows = -1 then _ else _)
  split
  · trivial
  · split <;> trivial

theorem WatchedStock.reStock_returns (json : JsonCpp) (w : WatchedStock) (alertOut : String) :
    (w.reStock json alertOut).Returns fun _ => True := by
  intro rows
  show Returns _ (if readStock rows = -1 then _ else _)
  split
  · trivial
  · split
    · intro n
      show Returns _ (if updateResult n = 1 then _ else _)
      split <;> trivial
    · trivial

section

variable {α : Type} {x : Except Exn (Option WatchedStock)} {f : Option WatchedStock → Handling α}

/-- A check of a warehouse that got its fields returns. -/
theorem watched_returns (hnone : (f none).Returns fun _ => True)
    (hsome : ∀ w, (f (some w)).Returns fun _ => True) (hx : Passes x) :
    (Program.ofExcept x >>= f).Returns fun _ => True := by
  obtain ⟨w, rfl⟩ := hx
  cases w with
  | none => exact hnone
  | some w => exact hsome w

/-- A check of a warehouse ends just when it gets its fields. -/
theorem watched_finishes {env : Env} {s : Alone} (hnone : (f none).Returns fun _ => True)
    (hsome : ∀ w, (f (some w)).Returns fun _ => True) :
    (Program.ofExcept x >>= f).Finishes (answerAlone env) s ↔ Passes x := by
  refine ⟨fun h => ?_, fun hx => (watched_returns hnone hsome hx).finishes _ s⟩
  obtain ⟨w, hw, _⟩ := Finishes.ofExcept_bind_iff.1 h
  exact ⟨w, hw⟩

end

theorem checkLowStockAlert_finishes {env : Env} {root : Value} {alertOut : String} {s : Alone} :
    (checkLowStockAlert env.json root alertOut).Finishes (answerAlone env) s ↔
      Passes (WatchedStock.ofJson root) :=
  watched_finishes trivial fun w => w.lowStock_returns _ _

theorem reStock_finishes {env : Env} {root : Value} {alertOut : String} {s : Alone} :
    (reStock env.json root alertOut).Finishes (answerAlone env) s ↔
      Passes (WatchedStock.ofJson root) :=
  watched_finishes trivial fun w => w.reStock_returns _ _

/-- **An accepted order gets to the end of the pipeline just when the fields
that its gates never look at convert**, whatever state each of the later stages
is run in. -/
theorem accepted_finishes_iff {env : Env} {root : Value} {buffer protocol : String}
    {error message error' message' : String} {s s₁ s₂ : Alone} {v : Int}
    (hroot : env.json.parse buffer = .ok (some root)) (hbrace : beginsWithBrace buffer = true)
    (hvalid : validateOrderLimits env.json root error = .ok (true, message))
    (hstock : runAlone env (checkProductStock env.json root error') s = (.ok (true, message'), s₁))
    (hupdate : runAlone env (realTimeUpdate root) s₁ = (.ok v, s₂)) (clientId : Int)
    (alertOut alertOut' : String) (s₃ s₄ s₅ : Alone) :
    StagesFinish env root buffer protocol clientId alertOut alertOut' s₃ s₄ s₅ ↔
      Finishable root := by
  have hgated := Gated.of_gates hvalid hstock hupdate
  have hcommand : ¬ IsCommand buffer := fun h =>
    h.elim (not_command_of_brace hbrace).1 (not_command_of_brace hbrace).2
  have hread : Readable env.json buffer ↔ (root.child "general_info").Forwardable := by
    obtain ⟨members, rfl, _⟩ := hgated.has
    constructor
    · rintro (hnone | ⟨root', hroot', _, h⟩)
      · cases hroot.symm.trans hnone
      · cases hroot.symm.trans hroot'
        exact h hgated.has
    · intro h
      exact .inr ⟨_, hroot, trivial, fun _ => h⟩
  constructor
  · rintro ⟨hlow, _, hforward⟩
    have hwatched := hgated.watched_passes.1 (checkLowStockAlert_finishes.1 hlow)
    obtain ⟨hid, hproductId, hmetadata⟩ := hgated.forwardable.1
      (hread.1 ((processMessage_finishes.1 hforward).resolve_left hcommand))
    exact ⟨hid, hproductId, fun h => (hwatched h).2, hmetadata⟩
  · intro h
    have hwatched := hgated.watched_passes.2 fun hwarehouse => ⟨h.productId, h.watchedId hwarehouse⟩
    have hforward := hread.2 (hgated.forwardable.2 ⟨h.id, h.productId, h.metadata⟩)
    exact ⟨checkLowStockAlert_finishes.2 hwatched, reStock_finishes.2 hwatched,
      processMessage_finishes.2 (.inr hforward)⟩

/-- A transfer whose fields convert returns, from any state. -/
theorem realTimeUpdate_returns {root : Value} {t : Transfer} (ht : Transfer.ofJson root = .ok t)
    (env : Env) (s : Alone) : ∃ v s', runAlone env (realTimeUpdate root) s = (.ok v, s') := by
  rw [realTimeUpdate_of_transfer ht]
  obtain ⟨v, s', hrun, _⟩ := t.perform_alone env s
  exact ⟨v, s', hrun⟩

/-- The order for an external client has a product id, and the later stages
finish on it. -/
theorem externalOrder_finishes : ∃ s : Alone,
    StagesFinish externalEnv externalOrder externalOrderText "UDP" 0 "" "" s s s := by
  obtain ⟨s₁, hstock⟩ : ∃ s₁, runAlone externalEnv (checkProductStock externalEnv.json externalOrder
      "") (.start (waterTables 500), []) = (.ok (true, ""), s₁) :=
    ⟨_, Prod.ext (by decide +kernel) rfl⟩
  have ht : Transfer.ofJson externalOrder = .ok ⟨"warehouse", 1, "external", 0, "Water", 25⟩ := rfl
  obtain ⟨v, s₂, hupdate⟩ := realTimeUpdate_returns ht externalEnv s₁
  have hvalid : validateOrderLimits externalEnv.json externalOrder "" = .ok (true, "") := by decide
  exact ⟨s₂, (accepted_finishes_iff externalEnv_reads (by decide +kernel) hvalid hstock hupdate 0
    "" "" s₂ s₂ s₂).2 ⟨trivial, trivial, fun _ => ⟨2, by decide⟩,
      ⟨trivial, trivial, trivial, trivial, trivial⟩⟩⟩

/-- Twenty-five units of water for an external client, with no product id. -/
def anonymousOrder : Value :=
  .object [("general_info", .object
    [("action", .object
        [("product", .object [("name", .string "Water"), ("quantity", .int 25)]),
        ("type", .string "req")]),
      ("destination", .object [("type", .string "external")]),
      ("source", .object [("location", .int 1), ("type", .string "warehouse")])])]

def anonymousOrderText : String :=
  "\x7b\"general_info\":\x7b\"source\":\x7b\"type\":\"warehouse\",\"location\":1\x7d," ++
    "\"destination\":\x7b\"type\":\"external\"\x7d," ++
    "\"action\":\x7b\"type\":\"req\",\"product\":\x7b" ++
    "\"name\":\"Water\",\"quantity\":25\x7d\x7d\x7d\x7d"

/-- The order passes its gates and its transfer returns; then the text of the
product id, which is empty, is converted. -/
theorem anonymousOrder_stops : ¬ ∀ (env : Env) (root : Value) (buffer protocol : String)
    (error message error' message' : String) (s s₁ s₂ : Alone) (v clientId : Int)
    (alertOut alertOut' : String) (s₃ s₄ s₅ : Alone),
    env.json.parse buffer = .ok (some root) → beginsWithBrace buffer = true →
    validateOrderLimits env.json root error = .ok (true, message) →
    runAlone env (checkProductStock env.json root error') s = (.ok (true, message'), s₁) →
    runAlone env (realTimeUpdate root) s₁ = (.ok v, s₂) →
      StagesFinish env root buffer protocol clientId alertOut alertOut' s₃ s₄ s₅ := by
  intro h
  let env : Env := .reading [(anonymousOrderText, anonymousOrder)]
  have hroot : env.json.parse anonymousOrderText = .ok (some anonymousOrder) := by
    simp [env, Env.reading, JsonCpp.ofReader, List.lookup_cons]
  obtain ⟨s₁, hstock⟩ : ∃ s₁, runAlone env (checkProductStock env.json anonymousOrder "")
      (.start (waterTables 500), []) = (.ok (true, ""), s₁) :=
    ⟨_, Prod.ext (by decide +kernel) rfl⟩
  have ht : Transfer.ofJson anonymousOrder = .ok ⟨"warehouse", 1, "external", 0, "Water", 25⟩ := rfl
  obtain ⟨v, s₂, hupdate⟩ := realTimeUpdate_returns ht env s₁
  have hvalid : validateOrderLimits env.json anonymousOrder "" = .ok (true, "") := by decide
  have hfinish := h env anonymousOrder anonymousOrderText "UDP" "" "" "" "" _ s₁ s₂ v 0 "" ""
    s₂ s₂ s₂ hroot (by decide +kernel) hvalid hstock hupdate
  obtain ⟨w, hw⟩ := checkLowStockAlert_finishes.1 hfinish.lowStock
  have hnone : (WatchedStock.ofJson anonymousOrder).toOption = none := by decide
  rw [hw] at hnone
  cases hnone

end LogisticService
