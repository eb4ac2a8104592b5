import LogisticService.Inventory.Db
import LogisticService.Order.Validation

/-!
# Stock checks, low stock alerts and restocking

`checkProductStock` compares the quantity of an order with one stock read.
`checkLowStockAlert` and `reStock` look at a warehouse after an order: each
reads the stock of the order's source again, and `reStock` raises it by what
the read was short of the full capacity. The reading of the order's fields
comes first in each and is defined apart from the database calls.
-/

namespace LogisticService

open Effects

def ERROR_INSUFFICIENT_STOCK : Int := 101

def MAX_CAPACITY : Int := 1000
def STOCK_THRESHOLD : Int := 200
def RESTOCK_THRESHOLD : Int := 100

/-- What `checkProductStock` looks up. -/
structure StockRequest where
  sourceType : String
  sourceId : Int
  productName : String
  requestedQuantity : Int
deriving DecidableEq

/-- An order `checkProductStock` refuses before it reads any stock. -/
def stockRejection (message description : String) : Rejection :=
  ⟨ERROR_INSUFFICIENT_STOCK, message, description⟩

/-- `!action.isNull() && action.isMember("product")` -/
def hasProduct (action : Value) : Except Exn Bool :=
  if action.isNull then .ok false else action.isMember "product"

/-- The product fields of an order with a source. -/
def StockRequest.ofAction (sourceType : String) (sourceId : Int) (generalInfo : Value) :
    Except Exn (Except Rejection StockRequest) := do
  let action ← generalInfo.get "action"
  if !(← hasProduct action) then
    return .error (stockRejection "Missing 'action' or 'product' field"
      "The 'action' object and its 'product' field must exist in the request.")
  else do
    let product ← action.get "product"
    let productName ← (← product.get "name").asString
    let requestedQuantity ← (← product.get "quantity").asInt
    if productName = "" || requestedQuantity ≤ 0 then
      return .error (stockRejection "Invalid product data"
        "Product name must not be empty and quantity must be greater than 0.")
    else return .ok { sourceType, sourceId, productName, requestedQuantity }

/-- The source fields of an order whose `general_info` is there. -/
def StockRequest.ofGeneralInfo (generalInfo : Value) :
    Except Exn (Except Rejection StockRequest) := do
  let source ← generalInfo.get "source"
  let sourceType ← (← source.get "type").asString
  let sourceLocationStr ← (← source.get "location").asString
  if sourceType = "" || sourceLocationStr = "" then
    return .error (stockRejection "Missing source type or location"
      "The 'source' object must include both 'type' and 'location' fields.")
  else
    match stoi sourceLocationStr with
    | .error _ => return .error (stockRejection "Invalid source location format"
        "The source location must be a valid integer string.")
    | .ok sourceId => StockRequest.ofAction sourceType sourceId generalInfo

/-- The fields of `checkProductStock`, up to its first stock read. -/
def StockRequest.ofJson (orderJson : Value) : Except Exn (Except Rejection StockRequest) := do
  let generalInfo ← orderJson.get "general_info"
  if generalInfo.isNull then
    return .error (stockRejection "Missing 'general_info' field"
      "The 'general_info' object is required but was not found.")
  else StockRequest.ofGeneralInfo generalInfo

/-- The verdict on the stock that was read. -/
def StockRequest.judge (r : StockRequest) (availableStock : Int) : Option Rejection :=
  if availableStock < 0 then
    some (stockRejection "Inventory fetch failure"
      "Could not retrieve current stock from the database.")
  else if availableStock ≥ r.requestedQuantity then none
  else some (stockRejection "Insufficient stock"
    ("Requested " ++ toString r.requestedQuantity ++ ", available " ++ toString availableStock))

/-- The stock read of `checkProductStock` and its verdict. -/
def StockRequest.check (r : StockRequest) : Handling (Option Rejection) :=
  if r.sourceType = "hub" then do
    return r.judge (← getHubInventory r.sourceId r.productName)
  else if r.sourceType = "warehouse" then do
    return r.judge (← getWarehouseInventory r.sourceId r.productName)
  else return some (stockRejection "Unknown source type"
    "Source type must be either 'hub' or 'warehouse'.")

/-- The rejection of `checkProductStock`, if there is one. -/
def stockVerdict (orderJson : Value) : Handling (Option Rejection) := do
  match ← Program.ofExcept (StockRequest.ofJson orderJson) with
  | .error rejection => return some rejection
  | .ok r => r.check

/-- `checkProductStock`: the verdict, and the error string, which only a
rejection overwrites. -/
def checkProductStock (json : JsonCpp) (orderJson : Value) (errorMessage : String) :
    Handling (Bool × String) := do
  match ← stockVerdict orderJson with
  | some r => return (false, generateError json r.code r.message r.description .error)
  | none => return (true, errorMessage)

/-- The warehouse and product whose stock an order draws on. -/
structure WatchedStock where
  warehouseId : Int
  productName : String
  productId : Int
deriving DecidableEq

/-- The fields `checkLowStockAlert` and `reStock` start from; `none` when the
source is not a warehouse. -/
def WatchedStock.ofJson (pedidoJson : Value) : Except Exn (Option WatchedStock) := do
  let source ← pedidoJson.path ["general_info", "source"]
  let sourceType ← (← source.get "type").asString
  if sourceType ≠ "warehouse" then return none
  else do
    let warehouseId ← stoi (← (← source.get "location").asString)
    let productName ← (← pedidoJson.path ["general_info", "action", "product", "name"]).asString
    let productId ←
      stoi (← (← pedidoJson.path ["general_info", "action", "product", "id"]).asString)
    return some { warehouseId, productName, productId }

/-- The result of a low stock check, and the alert string it leaves. -/
def WatchedStock.lowStock (json : JsonCpp) (w : WatchedStock) (alertOut : String) :
    Handling (Bool × String) := do
  let currentStock ← getWarehouseInventory w.warehouseId w.productName
  if currentStock = -1 then return (false, alertOut)
  else if currentStock ≤ STOCK_THRESHOLD then
    return (true, generateAlert json "Low Stock Alert: "
      "Stock levels are <= 20 per cent of max capacity" w.productId w.productName)
  else return (false, alertOut)

def checkLowStockAlert (json : JsonCpp) (pedidoJson : Value) (alertOut : String) :
    Handling (Bool × String) := do
  match ← Program.ofExcept (WatchedStock.ofJson pedidoJson) with
  | none => return (false, alertOut)
  | some w => w.lowStock json alertOut

/-- The result of a restock, and the alert string it leaves. A stock above the
threshold also counts as a success, with the string as it was. -/
def WatchedStock.reStock (json : JsonCpp) (w : WatchedStock) (alertOut : String) :
    Handling (Bool × String) := do
  let currentStock ← getWarehouseInventory w.warehouseId w.productName
  if currentStock = -1 then return (false, alertOut)
  else if currentStock ≤ RESTOCK_THRESHOLD then do
    let updateResult ←
      updateWarehouseInventory w.warehouseId w.productName (MAX_CAPACITY - currentStock)
    if updateResult = 1 then
      return (true, generateAlert json "Re-stock Alert: "
        "Stock replenished to full capacity (1000 units)" w.productId w.productName)
    else return (false, alertOut)
  else return (true, alertOut)

def reStock (json : JsonCpp) (pedidoJson : Value) (alertOut : String) :
    Handling (Bool × String) := do
  match ← Program.ofExcept (WatchedStock.ofJson pedidoJson) with
  | none => return (false, alertOut)
  | some w => w.reStock json alertOut

end LogisticService
