/-
JSON data, read from a document.

Data has to mean something all the way down: every string needs a text, every number a
value, and arrays and objects may stand at most 127 levels deep.  Records pass on how
many of those levels they leave to the data inside them.  A name that an object repeats
keeps its last value.
-/
import FeedPoller.Json.Document

namespace FeedPoller.Json

/-- How deep arrays and objects may be nested. -/
def depthLimit : Nat := 127

namespace Value

mutual

/-- The data of a document whose arrays and objects have `depth` levels to use. -/
def ofDocument (depth : Nat) : Document → Option Value
  | .null => some .null
  | .bool b => some (.bool b)
  | .number l => (Number.ofLiteral l).map .number
  | .string s => s.map .string
  | .array items =>
    match depth with
    | 0 => none
    | depth + 1 => (ofItems depth items).map .array
  | .object fields =>
    match depth with
    | 0 => none
    | depth + 1 => (ofDocumentFields depth fields).map fun fs => .object (Fields.ofList fs)

/-- The data of an array's items. -/
def ofItems (depth : Nat) : List Document → Option (List Value)
  | [] => some []
  | d :: ds => do
    let v ← ofDocument depth d
    let vs ← ofItems depth ds
    some (v :: vs)

/-- The data of an object's fields, in the order in which they stand. -/
def ofDocumentFields (depth : Nat) :
    List (Option String × Document) → Option (List (String × Value))
  | [] => some []
  | (name, d) :: rest => do
    let name ← name
    let v ← ofDocument depth d
    let fs ← ofDocumentFields depth rest
    some ((name, v) :: fs)

end

/-- The data that a text holds. -/
def read (s : String) : Option Value := do
  ofDocument depthLimit (← Document.ofText s)

end Value

end FeedPoller.Json
