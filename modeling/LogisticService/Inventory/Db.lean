import LogisticService.Server.Operation

/-!
# Inventory reads, updates and transfers

The functions of `inventoryDb.cpp` over the stored procedures. A read returns
`-1` when there is no row, when the quantity is NULL and when the call ends in
an error; an update returns `1` when it changed a row and `-1` otherwise. A
transfer is two such updates, the second only after the first succeeded.
-/

namespace LogisticService

open Effects

/-- What a read makes of its result set. -/
def readStock : Option (List (Option Int)) → Int
  | some (some n :: _) => n
  | _ => -1

/-- What an update makes of its count of changed rows. -/
def updateResult : Option Nat → Int
  | some n => if n > 0 then 1 else -1
  | none => -1

def getWarehouseInventory (warehouseId : Int) (product : String) : Handling Int := do
  return readStock (← ask (.getWarehouseInventory product warehouseId))

def updateWarehouseInventory (warehouseId : Int) (product : String) (quantity : Int) :
    Handling Int := do
  return updateResult (← ask (.updateWarehouseInventory warehouseId product quantity))

def getHubInventory (hubId : Int) (product : String) : Handling Int := do
  return readStock (← ask (.getHubInventory product hubId))

def updateHubInventory (hubId : Int) (product : String) (quantity : Int) : Handling Int := do
  return updateResult (← ask (.updateHubInventory hubId product quantity))

/-- What `realTimeUpdate` reads from an order before it updates anything. -/
structure Transfer where
  sourceType : String
  sourceLocation : Int
  destinationType : String
  destinationLocation : Int
  productName : String
  quantity : Int
deriving DecidableEq, Repr

def Transfer.ofJson (request : Value) : Except Exn Transfer := do
  let sourceType ← (← request.path ["general_info", "source", "type"]).asString
  let sourceLocation ← (← request.path ["general_info", "source", "location"]).asInt
  let destinationType ← (← request.path ["general_info", "destination", "type"]).asString
  let destinationLocation ← (← request.path ["general_info", "destination", "location"]).asInt
  let productName ← (← request.path ["general_info", "action", "product", "name"]).asString
  let quantity ← (← request.path ["general_info", "action", "product", "quantity"]).asInt
  return { sourceType, sourceLocation, destinationType, destinationLocation, productName, quantity }

/-- One side of a transfer: the update of the table that `type` names, and
`otherwise` when it names none. -/
def updateInventory (type : String) (location : Int) (product : String) (quantity otherwise : Int) :
    Handling Int :=
  if type = "hub" then updateHubInventory location product quantity
  else if type = "warehouse" then updateWarehouseInventory location product quantity
  else return otherwise

/-- The two updates of `realTimeUpdate`. -/
def Transfer.perform (t : Transfer) : Handling Int := do
  let result ← updateInventory t.sourceType t.sourceLocation t.productName (-t.quantity) 0
  if result > 0 then
    updateInventory t.destinationType t.destinationLocation t.productName t.quantity result
  else return result

def realTimeUpdate (request : Value) : Handling Int := do
  let t ← Program.ofExcept (Transfer.ofJson request)
  t.perform

/-! ## The row a read is about -/

/-- The first row of a table that a location and a product name: the one whose
quantity a read returns. -/
structure FirstNamed (c : Collation) (location : Int) (product : String) (rows : List Row)
    (i : Nat) (row : Row) : Prop where
  at_index : rows[i]? = some row
  names : row.names c location product = true
  first : ∀ j r, rows[j]? = some r → r.names c location product = true → i ≤ j

namespace FirstNamed

variable {c : Collation} {location : Int} {product : String} {rows : List Row} {i : Nat} {row : Row}

theorem unique {i' : Nat} {row' : Row} (h : FirstNamed c location product rows i row)
    (h' : FirstNamed c location product rows i' row') : i = i' ∧ row = row' := by
  obtain rfl : i = i' :=
    Nat.le_antisymm (h.first i' row' h'.at_index h'.names) (h'.first i row h.at_index h.names)
  exact ⟨rfl, Option.some.inj (h.at_index.symm.trans h'.at_index)⟩

/-- What the SELECT returns begins with the quantity of that row. -/
theorem of_select {quantity : Option Int} {rest : List (Option Int)}
    (h : selectRows c location product rows = quantity :: rest) :
    ∃ i row, FirstNamed c location product rows i row ∧ row.availableQuantity = quantity := by
  obtain ⟨row, others, hfilter, rfl, _⟩ := List.map_eq_cons_iff.1 h
  obtain ⟨before, after, rfl, hbefore, hnames, _⟩ := List.filter_eq_cons_iff.1 hfilter
  refine ⟨before.length, row, ⟨by simp, hnames, fun j r hj hnames' => ?_⟩, rfl⟩
  by_contra hlt
  rw [List.getElem?_append_left (Nat.not_le.1 hlt)] at hj
  exact hbefore r (List.mem_of_getElem? hj) hnames'

/-- A read that did not fail returned the quantity of that row. -/
theorem of_read (h : readStock (some (selectRows c location product rows)) ≠ -1) :
    ∃ i row, FirstNamed c location product rows i row ∧
      row.availableQuantity = some (readStock (some (selectRows c location product rows))) := by
  cases hselect : selectRows c location product rows with
  | nil =>
    rw [hselect] at h
    exact absurd rfl h
  | cons quantity rest =>
    obtain ⟨i, row, hrow, hq⟩ := of_select hselect
    refine ⟨i, row, hrow, hq.trans ?_⟩
    cases quantity with
    | none =>
      rw [hselect] at h
      exact absurd rfl h
    | some a => rfl

/-- A read that finds a stock has not failed, and finds it in that row. -/
theorem of_answered {ok : Bool}
    (h : readStock (if ok then some (selectRows c location product rows) else none) ≠ -1) :
    ok = true ∧ ∃ i row, FirstNamed c location product rows i row ∧ row.availableQuantity =
      some (readStock (if ok then some (selectRows c location product rows) else none)) := by
  cases ok with
  | false => exact absurd rfl h
  | true => exact ⟨rfl, of_read h⟩

theorem readStock_eq {a : Int} (h : FirstNamed c location product rows i row)
    (hq : row.availableQuantity = some a) :
    readStock (some (selectRows c location product rows)) = a := by
  cases hselect : selectRows c location product rows with
  | nil =>
    have hmem : row.availableQuantity ∈ selectRows c location product rows :=
      List.mem_map_of_mem (List.mem_filter.2 ⟨List.mem_of_getElem? h.at_index, h.names⟩)
    rw [hselect] at hmem
    cases hmem
  | cons quantity rest =>
    obtain ⟨i', row', hrow', rfl⟩ := of_select hselect
    obtain ⟨_, rfl⟩ := h.unique hrow'
    rw [hq]
    rfl

end FirstNamed

end LogisticService
