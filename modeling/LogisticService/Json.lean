import LogisticService.Text

/-!
# JSON values as jsoncpp holds them

`Value` is `Json::Value`, with the accessors the server uses and the cases in
which they throw. The reader and the writer are jsoncpp's own and are taken as
a parameter (`JsonCpp`), with the layout of written objects that the program's
messages depend on.
-/

namespace LogisticService

/-- A double inside a JSON value, by what the accessors show of it: the integer
that `asInt` gives, and the text that `asString` gives. Where `asInt` throws there
is no integer; it compares the double itself with the bounds, so one between the
last `int` and the next has none. -/
structure Double where
  trunc : Option Int
  text : String

/-- `Json::Value`. Signed and unsigned integers are one case, as every accessor
used here treats them alike. An object keeps its members in key order. -/
inductive Value
  | null
  | int (i : Int)
  | real (d : Double)
  | string (s : String)
  | boolean (b : Bool)
  | array (elems : List Value)
  | object (members : List (String × Value))

namespace Value

/-- `isNull`. -/
def isNull : Value → Bool
  | .null => true
  | _ => false

/-- `operator[]` with a key on a constant value: null stands for a missing
member, and a value that is neither object nor null throws. -/
def get : Value → String → Except Exn Value
  | .null, _ => .ok .null
  | .object members, key => .ok (((members.find? (·.1 == key)).map (·.2)).getD .null)
  | _, _ => .error .json

/-- `isMember`. -/
def isMember : Value → String → Except Exn Bool
  | .null, _ => .ok false
  | .object members, key => .ok (members.any (·.1 == key))
  | _, _ => .error .json

/-- `asString`: arrays and objects throw. -/
def asString : Value → Except Exn String
  | .null => .ok ""
  | .int i => .ok (toString i)
  | .real d => .ok d.text
  | .string s => .ok s
  | .boolean b => .ok (if b then "true" else "false")
  | .array _ => .error .json
  | .object _ => .error .json

/-- `asInt`: strings, arrays, objects and numbers that do not fit throw. -/
def asInt : Value → Except Exn Int
  | .null => .ok 0
  | .int i => if IsInt i then .ok i else .error .json
  | .real d => match d.trunc with
    | some n => if IsInt n then .ok n else .error .json
    | none => .error .json
  | .string _ => .error .json
  | .boolean b => .ok (if b then 1 else 0)
  | .array _ => .error .json
  | .object _ => .error .json

/-- A chain of `operator[]`. -/
def path (v : Value) : List String → Except Exn Value
  | [] => .ok v
  | key :: keys => do (← v.get key).path keys

/-- On an integer, reading the text `asString` gives agrees with `asInt`. -/
theorem stoi_asString_of_asInt {i n : Int} (h : (Value.int i).asInt = .ok n) :
    stoi (toString i) = .ok n := by
  simp only [asInt] at h
  split at h
  · next hi => cases h; exact stoi_toString hi
  · cases h

end Value

/-- jsoncpp's default reader and its writers. The reader may throw (a document
nested too deep), fail, or return a value. The writer's texts are fixed by
jsoncpp; the two facts kept of them are how the text of a non-empty object
begins, with an empty indentation and with the default one. -/
structure JsonCpp where
  parse : String → Except Exn (Option Value)
  writeCompact : Value → String
  writeStyled : Value → String
  compact_object : ∀ m ms, ∃ rest, writeCompact (.object (m :: ms)) = "\x7b\"" ++ rest
  styled_object : ∀ m ms, ∃ rest, writeStyled (.object (m :: ms)) = "\x7b\n" ++ rest

/-! ## The writers on the texts the server sends

The two layouts on objects of at most two levels, which is all the server
writes, for strings without characters that need an escape. -/

namespace Value

/-- A string between quotes. -/
def quoted (s : String) : String := "\"" ++ s ++ "\""

/-- The text of a value that is neither an array nor an object. -/
def scalarText : Value → String
  | .null => "null"
  | .int i => toString i
  | .real d => d.text
  | .string s => quoted s
  | .boolean b => if b then "true" else "false"
  | .array _ => "[]"
  | .object _ => "{}"

/-- An object's text from those of its members, in the given layout. -/
def objectText (opening separator colon closing : String) (text : Value → String) :
    List (String × Value) → String
  | [] => "{}"
  | (key, v) :: rest =>
    "\x7b" ++ (opening ++ quoted key ++ colon ++ text v ++
      String.join (rest.map fun m => "," ++ separator ++ quoted m.1 ++ colon ++ text m.2) ++
      closing ++ "\x7d")

/-- The layout with an empty indentation. -/
def compactText : Value → String
  | .object members => objectText "" "" ":" "" (fun v =>
      match v with
      | .object members => objectText "" "" ":" "" scalarText members
      | v => scalarText v) members
  | v => scalarText v

/-- The layout with the default indentation, a tab. -/
def styledText : Value → String
  | .object members => objectText "\n\t" "\n\t" " : " "\n" (fun v =>
      match v with
      | .object members => "\n\t" ++ objectText "\n\t\t" "\n\t\t" " : " "\n\t" scalarText members
      | v => scalarText v) members
  | v => scalarText v

end Value

/-- jsoncpp with a given reader and the layouts above. -/
def JsonCpp.ofReader (parse : String → Except Exn (Option Value)) : JsonCpp where
  parse := parse
  writeCompact := Value.compactText
  writeStyled := Value.styledText
  compact_object m ms := by
    simp only [Value.compactText, Value.objectText, Value.quoted, String.empty_append,
      String.append_assoc]
    exact ⟨_, by rw [← String.append_assoc]; rfl⟩
  styled_object m ms := by
    simp only [Value.styledText, Value.objectText, String.append_assoc]
    rw [show "\n\t" = "\n" ++ "\t" from rfl]
    simp only [String.append_assoc]
    exact ⟨_, by rw [← String.append_assoc]; rfl⟩

end LogisticService
