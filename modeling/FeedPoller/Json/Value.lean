/-
JSON data.

An object is a list of fields.  Records write theirs in an order of their own; data
that was read has each name once, and the names sorted.
-/
import FeedPoller.Fields
import FeedPoller.Json.Number

namespace FeedPoller.Json

/-- JSON data. -/
inductive Value where
  | null
  | bool (b : Bool)
  | number (n : Number)
  | string (s : String)
  | array (items : List Value)
  | object (fields : List (String × Value))
deriving Repr, Inhabited, BEq

namespace Value

/-- A natural number as data. -/
def nat (n : Nat) : Value := .number (.integer n)

/-- A whole number as data. -/
def int (n : Int) : Value := .number (.integer n)

/-- A value that may be missing; a missing one is written `null`. -/
def ofOption {α : Type} (f : α → Value) : Option α → Value
  | none => .null
  | some a => f a

/-- An object with the fields given, in whatever order they come. -/
def ofFields (fields : List (String × Value)) : Value := .object (Fields.ofList fields)

/-- The value of a field, if the value is an object that has it. -/
def field? (v : Value) (name : String) : Option Value :=
  match v with
  | .object fields => Fields.find? name fields
  | _ => none

end Value

end FeedPoller.Json
