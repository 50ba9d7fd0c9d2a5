/-
Records in data.

A record comes in one of two forms: as fields with names, in any order, or as a list of
the fields' values in their proper order.  Named fields that the record does not have are
passed over; one that it has must not come twice.  A list may end early, and whether
it may go on too long depends on the format it was written in.

What a missing field means is the business of each field, and it may differ between the
two forms: a field that may be left out by name need not be one that a list may end
before.
-/
namespace FeedPoller

/-- What a record is read from. -/
inductive RecordSource (α : Type) where
  /-- Fields by name; a name that has no text spoils the record. -/
  | named (fields : List (Option String × α))
  | listed (items : List α)

/-- What there is for one field. -/
inductive Slot (α : Type) where
  | given (a : α)
  /-- No field has this name. -/
  | unnamed
  /-- The list has ended before. -/
  | cut

namespace Slot

variable {α β : Type}

/-- A field that has to be there. -/
def required (read : α → Option β) : Slot α → Option β
  | .given a => read a
  | _ => none

/-- A field that has a value when it is missing, in either form. -/
def defaulting (value : β) (read : α → Option β) : Slot α → Option β
  | .given a => read a
  | _ => some value

/-- A field that may be left out by name, but not cut off. -/
def optional (read : α → Option (Option β)) : Slot α → Option (Option β)
  | .given a => read a
  | .unnamed => some none
  | .cut => none

end Slot

namespace RecordSource

variable {α : Type}

/-- What there is for a name among named fields; nothing if it is there twice. -/
def slot? (fields : List (Option String × α)) (name : String) : Option (Slot α) :=
  match fields.filter fun f => f.1 == some name with
  | [] => some .unnamed
  | [f] => some (.given f.2)
  | _ => none

/-- What there is for each name of a record, in the order of the names. -/
def slots (source : RecordSource α) (names : List String) (mayGoOn : Bool) :
    Option (List (Slot α)) :=
  match source with
  | .named fields =>
    if fields.any fun f => f.1.isNone then none else names.mapM (slot? fields)
  | .listed items =>
    if !mayGoOn && names.length < items.length then none
    else
      some (names.zipIdx.map fun (_, i) =>
        match items[i]? with
        | some a => .given a
        | none => .cut)

end RecordSource

end FeedPoller
