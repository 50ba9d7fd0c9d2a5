/-
Values by name.

A list of named values, sorted by name with each name once, serves for the fields of
data and for the store of feeds.  Names are compared by code points, which is also the
order of their UTF-8 bytes.
-/
namespace FeedPoller.Fields

variable {α : Type}

/-- The value of a name. -/
def find? (name : String) (fields : List (String × α)) : Option α := fields.lookup name

/-- Give a name a value; a value it had before is lost. -/
def insert (name : String) (value : α) : List (String × α) → List (String × α)
  | [] => [(name, value)]
  | (other, old) :: rest =>
    if name < other then (name, value) :: (other, old) :: rest
    else if other < name then (other, old) :: insert name value rest
    else (name, value) :: rest

/-- Take a name away. -/
def erase (name : String) (fields : List (String × α)) : List (String × α) :=
  fields.filter fun field => field.1 != name

/-- Sort by name; of several values for one name the last one stays. -/
def ofList (fields : List (String × α)) : List (String × α) :=
  fields.foldl (fun sorted field => insert field.1 field.2 sorted) []

end FeedPoller.Fields
