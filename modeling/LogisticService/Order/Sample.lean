import LogisticService.Server.Operation

/-!
# An order for water

A small order, its text, a reader that understands the text, and tables that
hold the product, for the concrete runs of the modules that follow.
-/

namespace LogisticService

/-- An order of water from the first warehouse, as the parser holds it. -/
def waterOrder (destination : List (String × Value)) (quantity : Int) : Value :=
  .object [("general_info", .object
    [("action", .object
        [("product", .object
          [("id", .int 2), ("name", .string "Water"), ("quantity", .int quantity)]),
        ("type", .string "req")]),
      ("destination", .object destination),
      ("source", .object [("location", .int 1), ("type", .string "warehouse")])])]

/-- Twenty-five units for an external client. -/
def externalOrder : Value := waterOrder [("type", .string "external")] 25

def externalOrderText : String :=
  "\x7b\"general_info\":\x7b\"source\":\x7b\"type\":\"warehouse\",\"location\":1\x7d," ++
    "\"destination\":\x7b\"type\":\"external\"\x7d," ++
    "\"action\":\x7b\"type\":\"req\",\"product\":\x7b\"id\":2," ++
    "\"name\":\"Water\",\"quantity\":25\x7d\x7d\x7d\x7d"

/-- Fifty units for a hub that no table has. -/
def unknownHubOrder : Value := waterOrder [("location", .int 9), ("type", .string "hub")] 50

def unknownHubOrderText : String :=
  "\x7b\"general_info\":\x7b\"source\":\x7b\"type\":\"warehouse\",\"location\":1\x7d," ++
    "\"destination\":\x7b\"type\":\"hub\",\"location\":9\x7d," ++
    "\"action\":\x7b\"type\":\"req\",\"product\":\x7b\"id\":2," ++
    "\"name\":\"Water\",\"quantity\":50\x7d\x7d\x7d\x7d"

/-- A server that can read the given texts, over a database that tells letters
apart but for their case. -/
def Env.reading (texts : List (String × Value)) : Env :=
  ⟨.ofReader fun text => .ok (texts.lookup text), .caseless⟩

/-- A server that can read the order for an external client. -/
def externalEnv : Env := .reading [(externalOrderText, externalOrder)]

theorem externalEnv_reads :
    externalEnv.json.parse externalOrderText = .ok (some externalOrder) := by
  simp [externalEnv, Env.reading, JsonCpp.ofReader, List.lookup_cons]

/-- Tables with one hub and one warehouse, and water in the warehouse. -/
def waterTables (quantity : Int) : Tables where
  hubs := [⟨some 1, some "Water", some 0⟩]
  warehouses := [⟨some 1, some "Water", some quantity⟩]

end LogisticService
