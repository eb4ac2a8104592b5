import LogisticService.Order.Stock

/-!
# What the stages of an order read

Validation, the stock check, the transfer, the two warehouse checks and the
forwarding each read the fields of an order for themselves, along their own
paths and with their own conversions. The lemmas here say, for each of them,
which fields it read when it got through, so that what one stage made sure of
can be used for the next.
-/

namespace LogisticService

open Effects

/-- A sequence of conversions that got through got through its first part. -/
theorem Except.seq_ok {α β : Type} {first : Except Exn α} {next : α → Except Exn β} {b : β}
    (h : (first >>= next) = .ok b) : ∃ a, first = .ok a ∧ next a = .ok b := by
  cases first with
  | ok a => exact ⟨a, rfl, h⟩
  | error e => cases h

theorem Except.seq_ok_iff {α β : Type} {first : Except Exn α} {next : α → Except Exn β} {b : β} :
    (first >>= next) = .ok b ↔ ∃ a, first = .ok a ∧ next a = .ok b :=
  ⟨Except.seq_ok, fun ⟨a, ha, hb⟩ => by rw [ha]; exact hb⟩

namespace Value

/-- A field read as a string. -/
def stringAt (v : Value) (keys : List String) : Except Exn String := do (← v.path keys).asString

/-- A field read as an integer. -/
def intAt (v : Value) (keys : List String) : Except Exn Int := do (← v.path keys).asInt

theorem path_cons {v w : Value} {key : String} {keys : List String} (h : v.get key = .ok w) :
    v.path (key :: keys) = w.path keys := by
  rw [path, h]
  rfl

theorem path_append {v w : Value} {keys : List String} (h : v.path keys = .ok w)
    (keys' : List String) : v.path (keys ++ keys') = w.path keys' := by
  induction keys generalizing v with
  | nil => cases h; rfl
  | cons key keys ih =>
    obtain ⟨x, hx, h⟩ := Except.seq_ok h
    rw [List.cons_append, path_cons hx]
    exact ih h

theorem stringAt_append {v w : Value} {keys : List String} (h : v.path keys = .ok w)
    (keys' : List String) : v.stringAt (keys ++ keys') = w.stringAt keys' := by
  rw [stringAt, path_append h]
  rfl

theorem stringAt_cons {v w : Value} {key : String} {keys : List String} (h : v.get key = .ok w) :
    v.stringAt (key :: keys) = w.stringAt keys := by
  rw [stringAt, path_cons h]
  rfl

theorem intAt_cons {v w : Value} {key : String} {keys : List String} (h : v.get key = .ok w) :
    v.intAt (key :: keys) = w.intAt keys := by
  rw [intAt, path_cons h]
  rfl

end Value

def destinationTypePath : List String := ["general_info", "destination", "type"]
def destinationLocationPath : List String := ["general_info", "destination", "location"]
def sourceTypePath : List String := ["general_info", "source", "type"]
def sourceLocationPath : List String := ["general_info", "source", "location"]
def actionTypePath : List String := ["general_info", "action", "type"]
def productNamePath : List String := ["general_info", "action", "product", "name"]
def productQuantityPath : List String := ["general_info", "action", "product", "quantity"]

/-- What a transfer reads. -/
theorem Transfer.ofJson_ok {root : Value} {t : Transfer} (h : Transfer.ofJson root = .ok t) :
    root.stringAt sourceTypePath = .ok t.sourceType ∧
      root.intAt sourceLocationPath = .ok t.sourceLocation ∧
      root.stringAt destinationTypePath = .ok t.destinationType ∧
      root.stringAt productNamePath = .ok t.productName ∧
      root.intAt productQuantityPath = .ok t.quantity := by
  obtain ⟨v₁, h₁, h⟩ := Except.seq_ok h
  obtain ⟨sourceType, h₁', h⟩ := Except.seq_ok h
  obtain ⟨v₂, h₂, h⟩ := Except.seq_ok h
  obtain ⟨sourceLocation, h₂', h⟩ := Except.seq_ok h
  obtain ⟨v₃, h₃, h⟩ := Except.seq_ok h
  obtain ⟨destinationType, h₃', h⟩ := Except.seq_ok h
  obtain ⟨v₄, h₄, h⟩ := Except.seq_ok h
  obtain ⟨destinationLocation, h₄', h⟩ := Except.seq_ok h
  obtain ⟨v₅, h₅, h⟩ := Except.seq_ok h
  obtain ⟨productName, h₅', h⟩ := Except.seq_ok h
  obtain ⟨v₆, h₆, h⟩ := Except.seq_ok h
  obtain ⟨quantity, h₆', h⟩ := Except.seq_ok h
  cases h
  refine ⟨?_, ?_, ?_, ?_, ?_⟩ <;>
    simp only [Value.stringAt, Value.intAt, sourceTypePath, sourceLocationPath,
      destinationTypePath, productNamePath, productQuantityPath]
  · rw [h₁]; exact h₁'
  · rw [h₂]; exact h₂'
  · rw [h₃]; exact h₃'
  · rw [h₅]; exact h₅'
  · rw [h₆]; exact h₆'

theorem Transfer.ofJson_destination {root : Value} {t : Transfer}
    (h : Transfer.ofJson root = .ok t) :
    root.intAt destinationLocationPath = .ok t.destinationLocation := by
  obtain ⟨_, _, h⟩ := Except.seq_ok h
  obtain ⟨_, _, h⟩ := Except.seq_ok h
  obtain ⟨_, _, h⟩ := Except.seq_ok h
  obtain ⟨_, _, h⟩ := Except.seq_ok h
  obtain ⟨_, _, h⟩ := Except.seq_ok h
  obtain ⟨_, _, h⟩ := Except.seq_ok h
  obtain ⟨v, hv, h⟩ := Except.seq_ok h
  obtain ⟨destinationLocation, hlocation, h⟩ := Except.seq_ok h
  repeat obtain ⟨_, _, h⟩ := Except.seq_ok h
  cases h
  simp only [Value.intAt, destinationLocationPath]
  rw [hv]
  exact hlocation

theorem checkLimits_none {clientType : String} {isCritical : Bool} {quantity : Int}
    (h : checkLimits clientType isCritical quantity = none) :
    clientType = "hub" ∨ clientType = "external" := by
  unfold checkLimits at h
  split at h
  · next hhub => exact .inl hhub
  · split at h
    · next hexternal => exact .inr hexternal
    · cases h

/-- Converted fields that break no rule have a known destination and a
positive quantity. -/
theorem checkFields_none {clientType actionType productName : String} {quantity : Int}
    (h : checkFields clientType actionType productName quantity = .ok none) :
    (clientType = "hub" ∨ clientType = "external") ∧ 0 < quantity := by
  unfold checkFields at h
  split at h
  · cases h
  · next hvalues =>
    split at h
    · cases h
    · obtain ⟨isCritical, _, h⟩ := Except.seq_ok h
      refine ⟨checkLimits_none (Except.ok.inj h), ?_⟩
      simp only [Bool.or_eq_true, decide_eq_true_eq, not_or] at hvalues
      omega

/-- An order that breaks no rule names a known destination and a positive
quantity. -/
theorem checkOrder_none {root : Value} (h : checkOrder root = .ok none) :
    ∃ clientType quantity, root.stringAt destinationTypePath = .ok clientType ∧
      (clientType = "hub" ∨ clientType = "external") ∧
      root.intAt productQuantityPath = .ok quantity ∧ 0 < quantity := by
  obtain ⟨generalInfo, hinfo, h⟩ := Except.seq_ok h
  split at h
  · cases h
  obtain ⟨destination, hdest, h⟩ := Except.seq_ok h
  obtain ⟨action, haction, h⟩ := Except.seq_ok h
  obtain ⟨product, hproduct, h⟩ := Except.seq_ok h
  split at h
  · cases h
  obtain ⟨v₁, h₁, h⟩ := Except.seq_ok h
  obtain ⟨clientType, h₁', h⟩ := Except.seq_ok h
  obtain ⟨v₂, h₂, h⟩ := Except.seq_ok h
  obtain ⟨actionType, h₂', h⟩ := Except.seq_ok h
  obtain ⟨v₃, h₃, h⟩ := Except.seq_ok h
  obtain ⟨productName, h₃', h⟩ := Except.seq_ok h
  obtain ⟨v₄, h₄, h⟩ := Except.seq_ok h
  obtain ⟨quantity, h₄', h⟩ := Except.seq_ok h
  obtain ⟨htype, hpos⟩ := checkFields_none h
  refine ⟨clientType, quantity, ?_, htype, ?_, hpos⟩
  · rw [destinationTypePath, Value.stringAt_cons hinfo, Value.stringAt_cons hdest,
      Value.stringAt_cons h₁]
    exact h₁'
  · rw [productQuantityPath, Value.intAt_cons hinfo, Value.intAt_cons haction,
      Value.intAt_cons hproduct, Value.intAt_cons h₄]
    exact h₄'

/-- What the stock check reads before it reads any stock. -/
theorem StockRequest.ofJson_ok {root : Value} {r : StockRequest}
    (h : StockRequest.ofJson root = .ok (.ok r)) :
    root.stringAt sourceTypePath = .ok r.sourceType ∧
      (∃ text, root.stringAt sourceLocationPath = .ok text ∧ stoi text = .ok r.sourceId) ∧
      root.stringAt productNamePath = .ok r.productName ∧
      root.intAt productQuantityPath = .ok r.requestedQuantity := by
  obtain ⟨generalInfo, hinfo, h⟩ := Except.seq_ok h
  split at h
  · cases h
  obtain ⟨source, hsource, h⟩ := Except.seq_ok h
  obtain ⟨v₁, h₁, h⟩ := Except.seq_ok h
  obtain ⟨sourceType, h₁', h⟩ := Except.seq_ok h
  obtain ⟨v₂, h₂, h⟩ := Except.seq_ok h
  obtain ⟨text, h₂', h⟩ := Except.seq_ok h
  split at h
  · cases h
  split at h
  · cases h
  next sourceId hid =>
  obtain ⟨action, haction, h⟩ := Except.seq_ok h
  obtain ⟨hasProduct, _, h⟩ := Except.seq_ok h
  split at h
  · cases h
  obtain ⟨product, hproduct, h⟩ := Except.seq_ok h
  obtain ⟨v₃, h₃, h⟩ := Except.seq_ok h
  obtain ⟨productName, h₃', h⟩ := Except.seq_ok h
  obtain ⟨v₄, h₄, h⟩ := Except.seq_ok h
  obtain ⟨quantity, h₄', h⟩ := Except.seq_ok h
  split at h
  · cases h
  cases h
  refine ⟨?_, ⟨text, ?_, hid⟩, ?_, ?_⟩
  · rw [sourceTypePath, Value.stringAt_cons hinfo, Value.stringAt_cons hsource,
      Value.stringAt_cons h₁]
    exact h₁'
  · rw [sourceLocationPath, Value.stringAt_cons hinfo, Value.stringAt_cons hsource,
      Value.stringAt_cons h₂]
    exact h₂'
  · rw [productNamePath, Value.stringAt_cons hinfo, Value.stringAt_cons haction,
      Value.stringAt_cons hproduct, Value.stringAt_cons h₃]
    exact h₃'
  · rw [productQuantityPath, Value.intAt_cons hinfo, Value.intAt_cons haction,
      Value.intAt_cons hproduct, Value.intAt_cons h₄]
    exact h₄'

/-- What the two warehouse checks read before they read any stock. -/
theorem WatchedStock.ofJson_some {root : Value} {w : WatchedStock}
    (h : WatchedStock.ofJson root = .ok (some w)) :
    root.stringAt sourceTypePath = .ok "warehouse" ∧
      (∃ text, root.stringAt sourceLocationPath = .ok text ∧ stoi text = .ok w.warehouseId) ∧
      root.stringAt productNamePath = .ok w.productName := by
  obtain ⟨source, hsource, h⟩ := Except.seq_ok h
  obtain ⟨v₁, h₁, h⟩ := Except.seq_ok h
  obtain ⟨sourceType, h₁', h⟩ := Except.seq_ok h
  split at h
  · cases h
  next htype =>
  obtain ⟨v₂, h₂, h⟩ := Except.seq_ok h
  obtain ⟨text, h₂', h⟩ := Except.seq_ok h
  obtain ⟨warehouseId, hid, h⟩ := Except.seq_ok h
  obtain ⟨v₃, h₃, h⟩ := Except.seq_ok h
  obtain ⟨productName, h₃', h⟩ := Except.seq_ok h
  obtain ⟨v₄, h₄, h⟩ := Except.seq_ok h
  obtain ⟨text₄, h₄', h⟩ := Except.seq_ok h
  obtain ⟨productId, _, h⟩ := Except.seq_ok h
  cases h
  refine ⟨?_, ⟨text, ?_, hid⟩, ?_⟩
  · refine (Value.stringAt_append hsource ["type"]).trans ((Value.stringAt_cons h₁).trans ?_)
    exact h₁'.trans (congrArg Except.ok (not_not.1 htype))
  · exact (Value.stringAt_append hsource ["location"]).trans ((Value.stringAt_cons h₂).trans h₂')
  · rw [productNamePath, Value.stringAt, h₃]
    exact h₃'

/-- The two warehouse checks look at nothing only when the source is no warehouse. -/
theorem WatchedStock.ofJson_none {root : Value} (h : WatchedStock.ofJson root = .ok none) :
    root.stringAt sourceTypePath ≠ .ok "warehouse" := by
  obtain ⟨source, hsource, h⟩ := Except.seq_ok h
  obtain ⟨v, hv, h⟩ := Except.seq_ok h
  obtain ⟨sourceType, htype, h⟩ := Except.seq_ok h
  split at h
  · next hother =>
    intro hwarehouse
    have hread : root.stringAt sourceTypePath = v.asString :=
      (Value.stringAt_append hsource ["type"]).trans (Value.stringAt_cons hv)
    exact hother (Except.ok.inj (htype.symm.trans (hread.symm.trans hwarehouse)))
  · repeat obtain ⟨_, _, h⟩ := Except.seq_ok h
    cases h

/-- The location of the order's source is an integer. -/
def IntegerSource (root : Value) : Prop :=
  ∀ v, root.path sourceLocationPath = .ok v → ∃ i, v = .int i

/-- On an integer location, the restock reads the row the transfer drew from. -/
theorem IntegerSource.same {root : Value} (h : IntegerSource root) {location id : Int}
    {text : String}
    (hlocation : root.intAt sourceLocationPath = .ok location)
    (htext : root.stringAt sourceLocationPath = .ok text) (hid : stoi text = .ok id) :
    id = location := by
  obtain ⟨v, hv, hint⟩ := Except.seq_ok hlocation
  obtain ⟨i, rfl⟩ := h v hv
  rw [Value.stringAt, hv] at htext
  cases htext
  exact Except.ok.inj (hid.symm.trans (Value.stoi_asString_of_asInt hint))

end LogisticService
