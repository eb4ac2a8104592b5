import LogisticService.Order.Messages

/-!
# Order limits

`validateOrderLimits` rejects an order with the first rule it breaks: required
fields, then their values, then the action, then the quantity limits of the
destination type and the product.
-/

namespace LogisticService

def MIN_CRITICAL_HUB_QUANTITY : Int := 20
def MAX_CRITICAL_HUB_QUANTITY : Int := 100
def MIN_NONCRITICAL_HUB_QUANTITY : Int := 50
def MAX_CRITICAL_EXTERNAL_QUANTITY : Int := 25
def MIN_EXTERNAL_QUANTITY : Int := 5

def ERR_MISSING_GENERAL_INFO : Int := 1001
def ERR_MISSING_REQUIRED_FIELDS : Int := 1002
def ERR_INVALID_VALUES : Int := 1003
def ERR_INVALID_ACTION_TYPE : Int := 1004
def ERR_INVALID_QTY_HUB_CRIT : Int := 1005
def ERR_INVALID_QTY_HUB_NONCRIT : Int := 1006
def ERR_INVALID_QTY_EXT_CRIT : Int := 1007
def ERR_INVALID_QTY_EXT_ANY : Int := 1008
def ERR_UNKNOWN_CLIENT_TYPE : Int := 1009

/-- The catalogue, with the criticality of each product. -/
def criticalProducts : List (String × Bool) :=
  [("Water", true), ("Medicines", true), ("Meat", false), ("Weapons", false), ("Clothes", false)]

/-- `criticalProducts.at`. -/
def isCriticalProduct (productName : String) : Except Exn Bool :=
  match criticalProducts.lookup productName with
  | some critical => .ok critical
  | none => .error .outOfRange

/-- A rejection: the code, the message and the description of its error. -/
structure Rejection where
  code : Int
  message : String
  description : String
deriving DecidableEq

/-- The limit rules of a destination type, in the order they are tried. -/
def checkLimits (clientType : String) (isCritical : Bool) (quantity : Int) : Option Rejection :=
  if clientType = "hub" then
    if isCritical && (quantity < MIN_CRITICAL_HUB_QUANTITY || quantity > MAX_CRITICAL_HUB_QUANTITY)
    then some ⟨ERR_INVALID_QTY_HUB_CRIT, "Invalid quantity",
      "Hubs must order between 20 and 100 units of critical products."⟩
    else if !isCritical && quantity < MIN_NONCRITICAL_HUB_QUANTITY
    then some ⟨ERR_INVALID_QTY_HUB_NONCRIT, "Invalid quantity",
      "Hubs must order at least 50 units of non-critical products."⟩
    else none
  else if clientType = "external" then
    if isCritical && quantity > MAX_CRITICAL_EXTERNAL_QUANTITY
    then some ⟨ERR_INVALID_QTY_EXT_CRIT, "Invalid quantity",
      "External clients can order up to 25 units of critical products."⟩
    else if quantity < MIN_EXTERNAL_QUANTITY
    then some ⟨ERR_INVALID_QTY_EXT_ANY, "Invalid quantity",
      "External clients must order at least 5 units of any product."⟩
    else none
  else some ⟨ERR_UNKNOWN_CLIENT_TYPE, "Unknown client type",
    "Client type must be 'hub' or 'external'."⟩

/-- The rules on the converted fields. -/
def checkFields (clientType actionType productName : String) (quantity : Int) :
    Except Exn (Option Rejection) :=
  if clientType = "" || actionType = "" || productName = "" || quantity ≤ 0 then
    .ok (some ⟨ERR_INVALID_VALUES, "Invalid or missing values",
      "Client type, action type, product name and quantity must be valid."⟩)
  else if actionType ≠ "request" && actionType ≠ "req" then
    .ok (some ⟨ERR_INVALID_ACTION_TYPE, "Invalid action type", "Action type must be 'request'."⟩)
  else do
    let isCritical ← isCriticalProduct productName
    return checkLimits clientType isCritical quantity

/-- The rules on an order whose `general_info` is there. -/
def checkGeneralInfo (generalInfo : Value) : Except Exn (Option Rejection) := do
  let destination ← generalInfo.get "destination"
  let action ← generalInfo.get "action"
  let product ← action.get "product"
  if destination.isNull || action.isNull || product.isNull then
    return some ⟨ERR_MISSING_REQUIRED_FIELDS, "Missing required fields",
      "Fields 'destination', 'action', and 'product' are required."⟩
  else do
    let clientType ← (← destination.get "type").asString
    let actionType ← (← action.get "type").asString
    let productName ← (← product.get "name").asString
    let quantity ← (← product.get "quantity").asInt
    checkFields clientType actionType productName quantity

/-- The first rule an order breaks. -/
def checkOrder (root : Value) : Except Exn (Option Rejection) := do
  let generalInfo ← root.get "general_info"
  if generalInfo.isNull then
    return some ⟨ERR_MISSING_GENERAL_INFO, "Missing general_info",
      "The 'general_info' field is required."⟩
  else checkGeneralInfo generalInfo

/-- `validateOrderLimits`: the verdict, and the error string, which only a
rejection overwrites. -/
def validateOrderLimits (json : JsonCpp) (root : Value) (error : String) :
    Except Exn (Bool × String) := do
  match ← checkOrder root with
  | some r => return (false, generateError json r.code r.message r.description .error)
  | none => return (true, error)

end LogisticService
