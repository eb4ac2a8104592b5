import LogisticService.Client.CJson
import LogisticService.Client.Menu

/-!
# The order form

`utils.c`: the fields of an order are asked for one after another, each with a
prompt that is repeated until a line is not empty, and put into the tree that
was read from `request_format.json`. Standard input and the prompts printed are
passed from one question to the next.
-/

namespace LogisticService

open CLib

def BUFFER_LIMIT : Nat := 100

structure Terminal where
  stdin : List Byte
  stdout : List String

/-- The loop of `get_non_empty_input`, with so many turns left. -/
def askAgain (prompt : String) (size : Nat) : Nat → Terminal → CString × Terminal
  | 0, t => (.empty, t)
  | turns + 1, t =>
    let t := { t with stdout := t.stdout ++ [prompt] }
    match fgets size t.stdin with
    -- `buffer[BUFFER_ERROR] = '\0'`
    | none => (.empty, t)
    | some (line, stdin) =>
      let buffer := lineOf line
      if buffer = .empty then askAgain prompt size turns { t with stdin }
      else (buffer, { t with stdin })

/-- `get_non_empty_input`. Every turn takes a byte at least. -/
def getNonEmptyInput (prompt : String) (size : Nat) (t : Terminal) : CString × Terminal :=
  askAgain prompt size (t.stdin.length + 1) t

/-- A field of the form: its prompt, where its answer goes, and as what. -/
structure FormField where
  prompt : String
  path : List String
  item : CString → CJson

/-- `cJSON_CreateNumber(atoi(buffer))` -/
def createNumber (buffer : CString) : CJson :=
  .number (atoi (String.ofList (buffer.bytes.map fun b => Char.ofNat b.toNat)))

/-- The questions of `update_json_with_user_input`, in order. -/
def formFields : List FormField :=
  [⟨"Enter source type: ", ["general_info", "source", "type"], .string⟩,
    ⟨"Enter source location: ", ["general_info", "source", "location"], createNumber⟩,
    ⟨"Enter destination type: ", ["general_info", "destination", "type"], .string⟩,
    ⟨"Enter destination location: ", ["general_info", "destination", "location"], createNumber⟩,
    ⟨"Enter action type: ", ["general_info", "action", "type"], .string⟩,
    ⟨"Enter product id: ", ["general_info", "action", "product", "id"], .string⟩,
    ⟨"Enter product name: ", ["general_info", "action", "product", "name"], .string⟩,
    ⟨"Enter product quantity: ", ["general_info", "action", "product", "quantity"], createNumber⟩,
    ⟨"Enter message: ", ["general_info", "metadata", "message"], .string⟩,
    ⟨"Enter priority: ", ["general_info", "metadata", "priority"], .string⟩,
    ⟨"Enter protocol: ", ["general_info", "metadata", "protocol"], .string⟩]

/-- One question after another. -/
def fillForm : List FormField → CJson → Terminal → CJson × Terminal
  | [], json, t => (json, t)
  | field :: fields, json, t =>
    let (buffer, t) := getNonEmptyInput field.prompt BUFFER_LIMIT t
    fillForm fields (CJson.replaceItemInObject (field.item buffer) field.path json) t

def idPath : List String := ["general_info", "id"]

def datePath : List String := ["general_info", "metadata", "date"]

/-- `update_json_with_user_input`, with the UUID and the date that the system
gives. -/
def updateJsonWithUserInput (json : CJson) (uuid date : CString) (t : Terminal) :
    CJson × Terminal :=
  let json := CJson.replaceItemInObject (.string uuid) idPath json
  let (json, t) := fillForm formFields json t
  (CJson.replaceItemInObject (.string date) datePath json, t)

/-- `config/request_format.json`. -/
def requestFormat : CJson :=
  .object [("general_info", .object
    [("id", .string .empty),
      ("source", .object [("type", .string .empty), ("location", .number 1)]),
      ("destination", .object [("type", .string .empty), ("location", .number 1)]),
      ("action", .object
        [("type", .string .empty),
          ("product", .object
            [("id", .string .empty), ("name", .string .empty), ("quantity", .number 1)])]),
      ("metadata", .object
        [("date", .string .empty), ("message", .string .empty), ("priority", .string .empty),
          ("protocol", .string .empty)])])]

end LogisticService
