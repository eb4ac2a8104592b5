import LogisticService.Json

/-!
# Stored orders and product totals

The server keeps the text of every order it receives and, per product name,
the sum of the quantities ordered. Orders are stored before anything about
them is checked.
-/

namespace LogisticService

/-- `storedOrders` and `productQuantities`. The totals stand in the order in
which their keys were first seen; `std::unordered_map` fixes none. -/
structure OrderStore where
  storedOrders : List String
  productQuantities : List (String × Int)
deriving DecidableEq

namespace OrderStore

def start : OrderStore := ⟨[], []⟩

/-- `productQuantities[productName] += qty`, an addition of C `int`s. -/
def addQuantity (productName : String) (qty : Int) : List (String × Int) → List (String × Int)
  | [] => [(productName, toInt32 (0 + qty))]
  | (name, total) :: rest =>
    if name = productName then (name, toInt32 (total + qty)) :: rest
    else (name, total) :: addQuantity productName qty rest

/-- The product name and quantity of an order, as `storeOrder` reads them. -/
def readProduct (root : Value) : Except Exn (String × Int) := do
  let generalInfo ← root.get "general_info"
  let action ← generalInfo.get "action"
  let product ← action.get "product"
  let productName ← (← product.get "name").asString
  let qty ← (← product.get "quantity").asInt
  return (productName, qty)

/-- `storeOrder`. The text is kept also when it does not parse or a field of
it throws. -/
def storeOrder (json : JsonCpp) (store : OrderStore) (jsonStr : String) :
    Except Exn Unit × OrderStore :=
  let store := { store with storedOrders := store.storedOrders ++ [jsonStr] }
  match json.parse jsonStr with
  | .error e => (.error e, store)
  | .ok none => (.ok (), store)
  | .ok (some root) =>
    match readProduct root with
    | .error e => (.error e, store)
    | .ok (productName, qty) =>
      if productName ≠ "" ∧ qty > 0 then
        (.ok (), { store with
          productQuantities := addQuantity productName qty store.productQuantities })
      else (.ok (), store)

/-- `clearStoredOrders`. -/
def clearStoredOrders (_ : OrderStore) : OrderStore := ⟨[], []⟩

end OrderStore

end LogisticService
