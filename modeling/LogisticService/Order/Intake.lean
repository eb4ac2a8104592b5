import LogisticService.Order.Totals

/-!
# Which orders the intake gets through

Storing an order, validating it and checking its stock read a dozen fields of a
document that a client wrote. An accessor throws on a field of the wrong type,
and the catalogue throws on a product it does not have. `Value.Sound` lists the
types the intake relies on; no exception leaves it just when they are there.
-/

namespace LogisticService

open Effects Program

namespace Value

/-- A member of an object, and null where there is none. -/
def child (v : Value) (key : String) : Value :=
  match v with
  | .object members => ((members.find? (·.1 == key)).map (·.2)).getD .null
  | _ => .null

def member (v : Value) (keys : List String) : Value := keys.foldl child v

def IsRecord : Value → Prop
  | .null => True
  | .object _ => True
  | _ => False

/-- Neither an array nor an object. -/
def Textual : Value → Prop
  | .array _ => False
  | .object _ => False
  | _ => True

/-- The text of a value that has one. -/
def text : Value → String
  | .int i => toString i
  | .real d => d.text
  | .string s => s
  | .boolean b => if b then "true" else "false"
  | _ => ""

def FitsInt (v : Value) : Prop := ∃ n, v.integer? = some n ∧ IsInt n

theorem get_ok_iff {v w : Value} {key : String} :
    v.get key = .ok w ↔ v.IsRecord ∧ v.child key = w := by
  cases v <;> simp [get, IsRecord, child]

theorem asString_ok_iff {v : Value} {s : String} :
    v.asString = .ok s ↔ v.Textual ∧ v.text = s := by
  cases v <;> simp [asString, Textual, text]

theorem isNull_iff {v : Value} : v.isNull = true ↔ v = .null := by
  cases v <;> simp [isNull]

end Value

/-- A conversion got through. -/
def Passes {α : Type} (x : Except Exn α) : Prop := ∃ a, x = .ok a

theorem passes_seq {α β : Type} {first : Except Exn α} {next : α → Except Exn β} :
    Passes (first >>= next) ↔ ∃ a, first = .ok a ∧ Passes (next a) := by
  unfold Passes
  constructor
  · intro ⟨b, h⟩
    obtain ⟨a, ha, hb⟩ := Except.seq_ok h
    exact ⟨a, ha, b, hb⟩
  · intro ⟨a, ha, b, hb⟩
    exact ⟨b, Except.seq_ok_iff.2 ⟨a, ha, hb⟩⟩

theorem passes_get {α : Type} {v : Value} {key : String} {next : Value → Except Exn α} :
    Passes (v.get key >>= next) ↔ v.IsRecord ∧ Passes (next (v.child key)) := by
  simp only [passes_seq, Value.get_ok_iff]
  constructor
  · rintro ⟨w, ⟨hv, rfl⟩, h⟩
    exact ⟨hv, h⟩
  · intro ⟨hv, h⟩
    exact ⟨_, ⟨hv, rfl⟩, h⟩

theorem passes_asString {α : Type} {v : Value} {next : String → Except Exn α} :
    Passes (v.asString >>= next) ↔ v.Textual ∧ Passes (next v.text) := by
  simp only [passes_seq, Value.asString_ok_iff]
  constructor
  · rintro ⟨w, ⟨hv, rfl⟩, h⟩
    exact ⟨hv, h⟩
  · intro ⟨hv, h⟩
    exact ⟨_, ⟨hv, rfl⟩, h⟩

theorem passes_asInt {α : Type} {v : Value} {next : Int → Except Exn α} :
    Passes (v.asInt >>= next) ↔ ∃ n, v.integer? = some n ∧ IsInt n ∧ Passes (next n) := by
  simp only [passes_seq, Value.asInt_ok_iff, and_assoc]

theorem passes_ok {α : Type} (a : α) : Passes (.ok a : Except Exn α) := ⟨a, rfl⟩

theorem passes_pure {α : Type} (a : α) : Passes (pure a : Except Exn α) := ⟨a, rfl⟩

/-! ## The three functions, one after another -/

theorem readProduct_passes {root : Value} : Passes (OrderStore.readProduct root) ↔
    root.IsRecord ∧ (root.member ["general_info"]).IsRecord ∧
      (root.member ["general_info", "action"]).IsRecord ∧
      (root.member ["general_info", "action", "product"]).IsRecord ∧
      (root.member productNamePath).Textual ∧ (root.member productQuantityPath).FitsInt := by
  unfold OrderStore.readProduct
  simp only [passes_get, passes_asString, passes_asInt, passes_pure, and_true]
  constructor
  · intro ⟨hroot, hinfo, haction, hproduct, hname, _, hquantity⟩
    exact ⟨hroot, hinfo, haction, hproduct, hname, hquantity⟩
  · intro ⟨hroot, hinfo, haction, hproduct, hname, hquantity⟩
    exact ⟨hroot, hinfo, haction, hproduct, hname, hproduct, hquantity⟩

theorem isCriticalProduct_passes {productName : String} :
    Passes (isCriticalProduct productName) ↔ productName ∈ criticalProducts.map Prod.fst := by
  have hsome : (criticalProducts.lookup productName).isSome = true ↔
      productName ∈ criticalProducts.map Prod.fst := by
    rw [List.lookup_isSome_iff, List.mem_map]
    simp only [beq_iff_eq]
    exact ⟨fun ⟨pair, hpair, h⟩ => ⟨pair, hpair, h.symm⟩,
      fun ⟨pair, hpair, h⟩ => ⟨pair, hpair, h.symm⟩⟩
  rw [← hsome]
  unfold isCriticalProduct
  cases criticalProducts.lookup productName with
  | none => exact ⟨fun ⟨_, h⟩ => (by cases h), fun h => (by cases h)⟩
  | some critical => exact ⟨fun _ => rfl, fun _ => passes_ok critical⟩

/-- The rules look a product up only after its order passed the other checks. -/
theorem checkFields_passes {clientType actionType productName : String} {quantity : Int} :
    Passes (checkFields clientType actionType productName quantity) ↔
      (clientType ≠ "" → actionType ≠ "" → productName ≠ "" → 0 < quantity →
        actionType = "request" ∨ actionType = "req" →
          productName ∈ criticalProducts.map Prod.fst) := by
  unfold checkFields
  split
  · next hempty =>
    refine ⟨fun _ hclient haction hname hquantity => ?_, fun _ => passes_ok _⟩
    simp only [hclient, haction, hname, decide_false, Bool.or_false, Bool.false_or,
      decide_eq_true_eq] at hempty
    omega
  · next hvalues =>
    simp only [Bool.or_eq_true, decide_eq_true_eq, not_or, Int.not_le] at hvalues
    obtain ⟨⟨⟨hclient, haction⟩, hname⟩, hquantity⟩ := hvalues
    split
    · next hother =>
      refine ⟨fun _ _ _ _ _ hknown => ?_, fun _ => passes_ok _⟩
      rcases hknown with hknown | hknown
      · simp [hknown] at hother
      · simp [hknown] at hother
    · next hknown =>
      have hrequest : actionType = "request" ∨ actionType = "req" := by
        by_contra hno
        simp only [not_or] at hno
        simp [hno.1, hno.2] at hknown
      have hpasses : Passes (isCriticalProduct productName >>= fun isCritical =>
          (pure (checkLimits clientType isCritical quantity) : Except Exn _)) ↔
          Passes (isCriticalProduct productName) := by
        rw [passes_seq]
        exact ⟨fun ⟨a, ha, _⟩ => ⟨a, ha⟩, fun ⟨a, ha⟩ => ⟨a, ha, passes_pure _⟩⟩
      rw [hpasses, isCriticalProduct_passes]
      exact ⟨fun h _ _ _ _ _ => h, fun h => h hclient haction hname hquantity hrequest⟩

/-- The fields that the limit rules need are all there. -/
def Value.Complete (root : Value) : Prop :=
  root.member ["general_info"] ≠ .null ∧ root.member ["general_info", "destination"] ≠ .null ∧
    root.member ["general_info", "action"] ≠ .null ∧
    root.member ["general_info", "action", "product"] ≠ .null

/-- The order asks for a positive quantity of a named product. -/
def Value.Asks (root : Value) : Prop :=
  (root.member destinationTypePath).text ≠ "" ∧ (root.member productNamePath).text ≠ "" ∧
    (∃ n, (root.member productQuantityPath).integer? = some n ∧ 0 < n) ∧
    ((root.member actionTypePath).text = "request" ∨ (root.member actionTypePath).text = "req")

theorem checkGeneralInfo_passes {info destination action product : Value}
    (hdestination : info.child "destination" = destination) (haction : info.child "action" = action)
    (hproduct : action.child "product" = product) :
    Passes (checkGeneralInfo info) ↔ info.IsRecord ∧ action.IsRecord ∧
      (destination ≠ .null → action ≠ .null → product ≠ .null →
        destination.IsRecord ∧ (destination.child "type").Textual ∧
          (action.child "type").Textual ∧ product.IsRecord ∧ (product.child "name").Textual ∧
          ∃ n, (product.child "quantity").integer? = some n ∧ IsInt n ∧
            Passes (checkFields (destination.child "type").text (action.child "type").text
              (product.child "name").text n)) := by
  unfold checkGeneralInfo
  rw [passes_get, passes_get, passes_get, hdestination, haction, hproduct]
  by_cases hnull : destination = .null ∨ action = .null ∨ product = .null
  · have hreject : (destination.isNull || action.isNull || product.isNull) = true := by
      simpa only [Bool.or_eq_true, Value.isNull_iff, or_assoc] using hnull
    rw [if_pos hreject]
    constructor
    · intro ⟨hinfo, _, haction, _⟩
      exact ⟨hinfo, haction, fun hd ha hp => absurd hnull (by simp [hd, ha, hp])⟩
    · intro ⟨hinfo, haction, _⟩
      exact ⟨hinfo, hinfo, haction, passes_pure _⟩
  · have hkeep : ¬ (destination.isNull || action.isNull || product.isNull) = true := by
      simpa only [Bool.or_eq_true, Value.isNull_iff, or_assoc] using hnull
    rw [if_neg hkeep]
    simp only [passes_get, passes_asString, passes_asInt]
    constructor
    · intro ⟨hinfo, _, haction, hdestination, htype, _, hactionType, hproduct, hname, _, hfields⟩
      exact ⟨hinfo, haction, fun _ _ _ => ⟨hdestination, htype, hactionType, hproduct, hname,
        hfields⟩⟩
    · intro ⟨hinfo, haction, h⟩
      obtain ⟨hd, ha, hp⟩ : destination ≠ .null ∧ action ≠ .null ∧ product ≠ .null := by
        simpa only [not_or] using hnull
      obtain ⟨hdestination, htype, hactionType, hproduct, hname, hfields⟩ := h hd ha hp
      exact ⟨hinfo, hinfo, haction, hdestination, htype, haction, hactionType, hproduct, hname,
        hproduct, hfields⟩

/-- What the limit rules rely on, of an order that could be stored. -/
theorem checkOrder_passes {root : Value} (hread : Passes (OrderStore.readProduct root)) :
    Passes (checkOrder root) ↔ (root.Complete →
      (root.member ["general_info", "destination"]).IsRecord ∧
        (root.member destinationTypePath).Textual ∧ (root.member actionTypePath).Textual ∧
        (root.Asks → (root.member productNamePath).text ∈ criticalProducts.map Prod.fst)) := by
  obtain ⟨hroot, hinfo, haction, hproduct, hname, quantity, hquantity, hint⟩ :=
    readProduct_passes.1 hread
  have hwhole : Passes (checkOrder root) ↔ (root.member ["general_info"] ≠ .null →
      Passes (checkGeneralInfo (root.member ["general_info"]))) := by
    unfold checkOrder
    rw [passes_get]
    by_cases hnull : root.member ["general_info"] = .null
    · have hchild : (root.child "general_info").isNull = true := Value.isNull_iff.2 hnull
      rw [if_pos hchild]
      exact ⟨fun _ h => absurd hnull h, fun _ => ⟨hroot, passes_pure _⟩⟩
    · have hchild : ¬ (root.child "general_info").isNull = true := fun h =>
        hnull (Value.isNull_iff.1 h)
      rw [if_neg hchild]
      exact ⟨fun h _ => h.2, fun h => ⟨hroot, h hnull⟩⟩
  have hgeneral := @checkGeneralInfo_passes (root.member ["general_info"])
    (root.member ["general_info", "destination"]) (root.member ["general_info", "action"])
    (root.member ["general_info", "action", "product"]) rfl rfl rfl
  rw [hwhole, hgeneral]
  simp only [checkFields_passes]
  constructor
  · intro h ⟨hinfo', hdestination', haction', hproduct'⟩
    obtain ⟨_, _, hfields⟩ := h hinfo'
    obtain ⟨hrecord, htype, hactionType, _, _, n, hn, _, hknown⟩ :=
      hfields hdestination' haction' hproduct'
    refine ⟨hrecord, htype, hactionType, fun ⟨hclient, hname', ⟨m, hm, hpos⟩, hrequest⟩ => ?_⟩
    obtain rfl : n = m := Option.some.inj (hn.symm.trans hm)
    refine hknown hclient ?_ hname' hpos hrequest
    rcases hrequest with hrequest | hrequest
    · exact fun hempty => absurd (hempty.symm.trans hrequest) (by decide)
    · exact fun hempty => absurd (hempty.symm.trans hrequest) (by decide)
  · intro h hinfo'
    refine ⟨hinfo, haction, fun hdestination' haction' hproduct' => ?_⟩
    obtain ⟨hrecord, htype, hactionType, hknown⟩ := h ⟨hinfo', hdestination', haction', hproduct'⟩
    exact ⟨hrecord, htype, hactionType, hproduct, hname, quantity, hquantity, hint,
      fun hclient _ hname' hpos hrequest =>
        hknown ⟨hclient, hname', ⟨quantity, hquantity, hpos⟩, hrequest⟩⟩

theorem ofAction_passes {sourceType : String} {sourceId : Int} {info action product : Value}
    (haction : info.child "action" = action) (hproduct : action.child "product" = product)
    (hinfo : info.IsRecord) (hrecord : action.IsRecord) (hrecord' : product.IsRecord)
    (hname : (product.child "name").Textual) (hquantity : (product.child "quantity").FitsInt) :
    Passes (StockRequest.ofAction sourceType sourceId info) := by
  obtain ⟨n, hn, hint⟩ := hquantity
  unfold StockRequest.ofAction
  rw [passes_get]
  refine ⟨hinfo, ?_⟩
  rw [haction, passes_seq]
  obtain ⟨present, hpresent⟩ : Passes (hasProduct action) := by
    unfold hasProduct
    split
    · exact passes_ok false
    · cases action with
      | null => exact passes_ok false
      | object members => exact passes_ok _
      | _ => exact absurd hrecord id
  refine ⟨present, hpresent, ?_⟩
  split
  · exact passes_pure _
  · rw [passes_get, hproduct, passes_get, passes_asString, passes_get, passes_asInt]
    refine ⟨hrecord, hrecord', hname, hrecord', n, hn, hint, ?_⟩
    split
    · exact passes_pure _
    · exact passes_pure _

/-- What the stock check relies on before it reads any stock, of an order that
could be stored. -/
theorem stockRequest_passes {root : Value} (hread : Passes (OrderStore.readProduct root)) :
    Passes (StockRequest.ofJson root) ↔ (root.member ["general_info"] ≠ .null →
      (root.member ["general_info", "source"]).IsRecord ∧
        (root.member sourceTypePath).Textual ∧ (root.member sourceLocationPath).Textual) := by
  obtain ⟨hroot, hinfo, haction, hproduct, hname, hquantity⟩ := readProduct_passes.1 hread
  have hsource : Passes (StockRequest.ofGeneralInfo (root.child "general_info")) ↔
      (root.member ["general_info", "source"]).IsRecord ∧
        (root.member sourceTypePath).Textual ∧ (root.member sourceLocationPath).Textual := by
    unfold StockRequest.ofGeneralInfo
    rw [passes_get, passes_get, passes_asString, passes_get, passes_asString]
    constructor
    · intro ⟨_, hrecord, htype, _, hlocation, _⟩
      exact ⟨hrecord, htype, hlocation⟩
    · intro ⟨hrecord, htype, hlocation⟩
      refine ⟨hinfo, hrecord, htype, hrecord, hlocation, ?_⟩
      split
      · exact passes_pure _
      · split
        · exact passes_pure _
        · exact ofAction_passes rfl rfl hinfo haction hproduct hname hquantity
  unfold StockRequest.ofJson
  rw [passes_get]
  by_cases hnull : root.member ["general_info"] = .null
  · have hchild : (root.child "general_info").isNull = true := Value.isNull_iff.2 hnull
    rw [if_pos hchild]
    exact ⟨fun _ h => absurd hnull h, fun _ => ⟨hroot, passes_pure _⟩⟩
  · have hchild : ¬ (root.child "general_info").isNull = true := fun h =>
      hnull (Value.isNull_iff.1 h)
    rw [if_neg hchild, hsource]
    exact ⟨fun h _ => h.2, fun h => ⟨hroot, h hnull⟩⟩

/-! ## The intake as a whole -/

/-- Every field the intake reads has a type its accessor takes, and an order
that would otherwise be looked up is for a product of the catalogue. -/
structure Value.Sound (root : Value) : Prop where
  generalInfo : (root.member ["general_info"]).IsRecord
  action : (root.member ["general_info", "action"]).IsRecord
  product : (root.member ["general_info", "action", "product"]).IsRecord
  productName : (root.member productNamePath).Textual
  productQuantity : (root.member productQuantityPath).FitsInt
  source : root.member ["general_info"] ≠ .null →
    (root.member ["general_info", "source"]).IsRecord ∧ (root.member sourceTypePath).Textual ∧
      (root.member sourceLocationPath).Textual
  destination : root.Complete → (root.member ["general_info", "destination"]).IsRecord ∧
    (root.member destinationTypePath).Textual
  actionType : root.Complete → (root.member actionTypePath).Textual
  catalogue : root.Complete → root.Asks →
    (root.member productNamePath).text ∈ criticalProducts.map Prod.fst

/-- The three functions return on an order's text and its value, and a checker
that says no leaves an error message. The stock check may get any replies from
the database. -/
structure TakenIn (json : JsonCpp) (text : String) (root : Value) : Prop where
  stored : ∀ store : OrderStore, (store.storeOrder json text).1 = .ok ()
  validated : ∀ error, ∃ valid message, validateOrderLimits json root error = .ok (valid, message) ∧
    (valid = false → IsErrorJson json message)
  checked : ∀ error, (checkProductStock json root error).Returns fun r =>
    r.1 = false → IsErrorJson json r.2

/-- The text is that of the document; the reader may refuse it by an exception. -/
def Spells (json : JsonCpp) (text : String) (root : Value) : Prop :=
  match json.parse text with
  | .ok v => v = some root
  | .error _ => True

section

variable {json : JsonCpp} {text : String} {root : Value}

theorem stored_iff (htext : Spells json text root) :
    (∀ store : OrderStore, (store.storeOrder json text).1 = .ok ()) ↔
      json.parse text = .ok (some root) ∧ Passes (OrderStore.readProduct root) := by
  unfold Spells at htext
  unfold OrderStore.storeOrder
  cases hparse : json.parse text with
  | error e => exact ⟨fun h => (nomatch h .start), fun h => (nomatch h.1)⟩
  | ok v =>
    rw [hparse] at htext
    subst htext
    cases hread : OrderStore.readProduct root with
    | error e =>
      simp only [hread]
      exact ⟨fun h => (nomatch h .start), fun ⟨_, _, h⟩ => (nomatch h)⟩
    | ok order =>
      obtain ⟨productName, qty⟩ := order
      simp only [hread]
      refine ⟨fun _ => ⟨trivial, passes_ok _⟩, fun _ store => ?_⟩
      split
      · rfl
      · rfl

theorem validated_iff : (∀ error, ∃ valid message,
      validateOrderLimits json root error = .ok (valid, message) ∧
        (valid = false → IsErrorJson json message)) ↔ Passes (checkOrder root) := by
  unfold validateOrderLimits
  cases checkOrder root with
  | error e =>
    constructor
    · intro h
      obtain ⟨_, _, hthrown, _⟩ := h ""
      cases hthrown
    · intro ⟨_, h⟩
      cases h
  | ok verdict =>
    refine ⟨fun _ => passes_ok _, fun _ error => ?_⟩
    cases verdict with
    | none => exact ⟨true, error, rfl, fun h => by cases h⟩
    | some r => exact ⟨false, _, rfl, fun _ => ⟨_, _, _, _, rfl⟩⟩

/-- Once its fields are read, the stock check returns. -/
theorem StockRequest.check_returns (r : StockRequest) : r.check.Returns fun _ => True := by
  unfold StockRequest.check
  split
  · exact fun _ => trivial
  · split
    · exact fun _ => trivial
    · trivial

theorem checked_iff : (∀ error, (checkProductStock json root error).Returns fun r =>
      r.1 = false → IsErrorJson json r.2) ↔ Passes (StockRequest.ofJson root) := by
  constructor
  · intro h
    cases hfields : StockRequest.ofJson root with
    | error e =>
      have hthrown := h ""
      unfold checkProductStock stockVerdict at hthrown
      rw [hfields] at hthrown
      exact hthrown.elim
    | ok request => exact passes_ok request
  · intro ⟨request, hrequest⟩ error
    have hverdict : (stockVerdict root).Returns fun _ => True := by
      unfold stockVerdict
      refine Returns.bind (Returns.ofExcept (Q := fun _ => True) hrequest trivial) ?_
      intro a _
      cases a with
      | error rejection => trivial
      | ok r => exact r.check_returns
    unfold checkProductStock
    refine Returns.bind hverdict ?_
    intro verdict _
    cases verdict with
    | none => exact fun h => by cases h
    | some r => exact fun _ => ⟨_, _, _, _, rfl⟩

/-- **The intake throws on no order that is sound, and on every other one.** -/
theorem takenIn_iff_sound {members : List (String × Value)}
    (htext : Spells json text (.object members)) : TakenIn json text (.object members) ↔
      json.parse text = .ok (some (.object members)) ∧ (Value.object members).Sound := by
  have hstored := stored_iff htext
  constructor
  · intro h
    obtain ⟨hparse, hread⟩ := hstored.1 h.stored
    obtain ⟨_, hinfo, haction, hproduct, hname, hquantity⟩ := readProduct_passes.1 hread
    have hlimits := (checkOrder_passes hread).1 (validated_iff.1 h.validated)
    have hstock := (stockRequest_passes hread).1 (checked_iff.1 h.checked)
    exact ⟨hparse, hinfo, haction, hproduct, hname, hquantity, hstock,
      fun hc => ⟨(hlimits hc).1, (hlimits hc).2.1⟩, fun hc => (hlimits hc).2.2.1,
      fun hc => (hlimits hc).2.2.2⟩
  · intro ⟨hparse, hsound⟩
    have hread : Passes (OrderStore.readProduct (.object members)) :=
      readProduct_passes.2 ⟨trivial, hsound.generalInfo, hsound.action, hsound.product,
        hsound.productName, hsound.productQuantity⟩
    have hlimits := (checkOrder_passes hread).2 fun hc => ⟨(hsound.destination hc).1,
      (hsound.destination hc).2, hsound.actionType hc, hsound.catalogue hc⟩
    have hstock := (stockRequest_passes hread).2 hsound.source
    exact ⟨hstored.2 ⟨hparse, hread⟩, validated_iff.2 hlimits, checked_iff.2 hstock⟩

end

/-! ## A product outside the catalogue -/

/-- Fifty units of a product nobody stocks, for a hub. -/
def breadOrder : Value :=
  .object [("general_info", .object
    [("action", .object
        [("product", .object [("name", .string "Bread"), ("quantity", .int 50)]),
          ("type", .string "req")]),
      ("destination", .object [("type", .string "hub")]),
      ("source", .object [("location", .int 1), ("type", .string "warehouse")])])]

def breadOrderText : String :=
  "\x7b\"general_info\":\x7b\"source\":\x7b\"type\":\"warehouse\",\"location\":1\x7d," ++
    "\"destination\":\x7b\"type\":\"hub\"\x7d,\"action\":\x7b\"type\":\"req\"," ++
    "\"product\":\x7b\"name\":\"Bread\",\"quantity\":50\x7d\x7d\x7d\x7d"

theorem breadOrder_thrown (json : JsonCpp) (error : String) :
    validateOrderLimits json breadOrder error = .error .outOfRange := rfl

/-- So the intake does throw on some orders. -/
theorem intake_throws : ¬ ∀ (json : JsonCpp) (text : String) (members : List (String × Value)),
    Spells json text (.object members) → TakenIn json text (.object members) := by
  intro h
  have hspells : Spells (Env.reading [(breadOrderText, breadOrder)]).json breadOrderText
      breadOrder := by
    have hparse : (Env.reading [(breadOrderText, breadOrder)]).json.parse breadOrderText =
        .ok (some breadOrder) := by
      simp [Env.reading, JsonCpp.ofReader, List.lookup_cons]
    unfold Spells
    rw [hparse]
  have htaken : TakenIn _ breadOrderText breadOrder := h _ _ _ hspells
  obtain ⟨valid, message, hreturned, _⟩ := htaken.validated ""
  rw [breadOrder_thrown] at hreturned
  cases hreturned

/-- The sample order is one the intake gets through. -/
theorem takenIn_iff_sound_externalOrder :
    TakenIn externalEnv.json externalOrderText externalOrder ↔
      externalEnv.json.parse externalOrderText = .ok (some externalOrder) ∧
        externalOrder.Sound := by
  have hspells : Spells externalEnv.json externalOrderText externalOrder := by
    unfold Spells
    rw [externalEnv_reads]
  exact takenIn_iff_sound hspells

end LogisticService
