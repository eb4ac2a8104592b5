import LogisticService.Json

/-!
# Error and alert messages

The JSON texts that go back to a client when an order is rejected
(`ErrorHandler::generateError`) or a stock runs low
(`AlertHandler::generateAlert`).
-/

namespace LogisticService

inductive ErrorLevel
  | error
  | warning
deriving DecidableEq

/-- `ErrorHandler::generateError`. -/
def generateError (json : JsonCpp) (code : Int) (message description : String)
    (level : ErrorLevel) : String :=
  json.writeCompact (.object
    [("description", .string description),
      ("error_code", .int code),
      ("level", .string (if level = .error then "error" else "warning")),
      ("message", .string message)])

/-- `AlertHandler::generateAlert`. -/
def generateAlert (json : JsonCpp) (name message : String) (productId : Int)
    (productName : String) : String :=
  json.writeStyled (.object
    [("alert", .object
      [("message", .string message),
        ("name", .string name),
        ("product_id", .int productId),
        ("product_name", .string productName)])])

/-- The text is an error JSON. -/
def IsErrorJson (json : JsonCpp) (text : String) : Prop :=
  ∃ code message description level, text = generateError json code message description level

/-- The text is an alert. -/
def IsAlert (json : JsonCpp) (text : String) : Prop :=
  ∃ name message productId productName, text = generateAlert json name message productId productName

theorem IsErrorJson.head {json : JsonCpp} {text : String} (h : IsErrorJson json text) :
    ∃ rest, text.toList = '{' :: '"' :: rest := by
  obtain ⟨code, message, description, level, rfl⟩ := h
  obtain ⟨rest, hrest⟩ := json.compact_object ("description", .string description)
    [("error_code", .int code), ("level", .string (if level = .error then "error" else "warning")),
      ("message", .string message)]
  exact ⟨rest.toList, by rw [generateError, hrest, String.toList_append]; rfl⟩

theorem IsAlert.head {json : JsonCpp} {text : String} (h : IsAlert json text) :
    ∃ rest, text.toList = '{' :: '\n' :: rest := by
  obtain ⟨name, message, productId, productName, rfl⟩ := h
  obtain ⟨rest, hrest⟩ := json.styled_object ("alert", .object
    [("message", .string message), ("name", .string name), ("product_id", .int productId),
      ("product_name", .string productName)]) []
  exact ⟨rest.toList, by rw [generateAlert, hrest, String.toList_append]; rfl⟩

/-- No text is both an error JSON and an alert. -/
theorem IsErrorJson.not_alert {json : JsonCpp} {text : String} (he : IsErrorJson json text) :
    ¬ IsAlert json text := by
  intro ha
  obtain ⟨r₁, h₁⟩ := he.head
  obtain ⟨r₂, h₂⟩ := ha.head
  rw [h₁] at h₂
  exact absurd h₂ (by simp)

end LogisticService
