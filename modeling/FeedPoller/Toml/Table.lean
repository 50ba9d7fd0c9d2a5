/-
Tables under construction.

A TOML document builds its tables piece by piece.  A header opens a table and gives it all
the assignments up to the next header; a dotted name reaches into tables below.  Tables
that are needed on the way to a name are made as they are needed, and it is remembered how:
a table that was only made on the way to a header may still be opened by a header of its
own, once; a table made by a dotted name may be filled by more dotted names of the same kind
and by nothing else.  No name is ever assigned twice.
-/
import FeedPoller.Toml.Value

namespace FeedPoller.Toml

mutual

/-- What a name stands for while a document is being built. -/
inductive Node where
  | value (v : Value)
  | table (t : Table)
  /-- Tables that headers with double brackets have opened, latest first. -/
  | tables (ts : List Table)

/-- A table being built. -/
inductive Table where
  /-- `implicit`: made on the way to another name; `dotted`: made by a dotted name. -/
  | mk (implicit dotted : Bool) (entries : List (String × Node))

end

instance : Inhabited Table := ⟨.mk false false []⟩

namespace Table

def implicit : Table → Bool
  | mk i _ _ => i

def dotted : Table → Bool
  | mk _ d _ => d

def entries : Table → List (String × Node)
  | mk _ _ es => es

/-- An open table with nothing in it. -/
def empty : Table := .mk false false []

def find? (t : Table) (name : String) : Option Node := t.entries.lookup name

/-- Give a name another meaning, or a first one. -/
def set (t : Table) (name : String) (n : Node) : Table :=
  let entries :=
    if t.entries.any (·.1 == name) then
      t.entries.map fun e => if e.1 == name then (name, n) else e
    else t.entries ++ [(name, n)]
  .mk t.implicit t.dotted entries

/-- Take a name away. -/
def erase (t : Table) (name : String) : Table :=
  .mk t.implicit t.dotted (t.entries.filter fun e => e.1 != name)

/--
Change the table that a path leads to, making the tables on the way.  A dotted path must
not lead through a table that a header has opened.
-/
def update (isDotted : Bool) (f : Table → Option Table) : List String → Table → Option Table
  | [], t => f t
  | name :: path, t =>
    match t.find? name with
    | none => do
      let u ← update isDotted f path (.mk true isDotted [])
      some (t.set name (.table u))
    | some (.table u) =>
      if isDotted && !u.implicit then none
      else do
        let u ← update isDotted f path u
        some (t.set name (.table u))
    | some (.tables (u :: us)) => do
      let u ← update isDotted f path u
      some (t.set name (.tables (u :: us)))
    | some (.tables []) => none
    | some (.value _) => none

/-- Assign a value to a name, dotted or not. -/
def assign (path : List String) (v : Value) (t : Table) : Option Table :=
  match path.getLast? with
  | none => none
  | some name =>
    let way := path.dropLast
    update true (fun u =>
      if u.dotted == way.isEmpty then none
      else if (u.find? name).isSome then none
      else some (u.set name (.value v))) way t

mutual

/-- The finished value that a name stands for. -/
def Node.finish : Node → Value
  | .value v => v
  | .table t => t.finish
  | .tables ts => .array (finishAll ts).reverse

/-- The finished table. -/
def finish : Table → Value
  | .mk _ _ entries => .table (finishEntries entries)

/-- Finished tables. -/
def finishAll : List Table → List Value
  | [] => []
  | t :: ts => t.finish :: finishAll ts

/-- Finished entries. -/
def finishEntries : List (String × Node) → List (String × Value)
  | [] => []
  | (name, n) :: es => (name, Node.finish n) :: finishEntries es

end

end Table

/-- A line of a document that has something to say. -/
inductive Line where
  /-- A header: the table that the assignments up to the next one belong to. -/
  | header (path : List String)
  /-- A header with double brackets: one more table of a list of tables. -/
  | listHeader (path : List String)
  | assignment (path : List String) (v : Value)

/-- A document under construction: the tables closed so far, and the open one. -/
structure Construction where
  root : Table := .empty
  /-- Where the open table belongs, and whether to a list; nowhere before any header. -/
  place : Option (List String × Bool) := none
  current : Table := .empty

namespace Construction

/-- Close the open table and put it in its place. -/
def close (b : Construction) : Option Table :=
  match b.place with
  | none => some b.current
  | some (path, isList) =>
    match path.getLast? with
    | none => none
    | some name =>
      Table.update false (fun parent =>
        if isList then
          match parent.find? name with
          | some (.tables ts) => some (parent.set name (.tables (b.current :: ts)))
          | none => some (parent.set name (.tables [b.current]))
          | _ => none
        else some (parent.set name (.table b.current))) path.dropLast b.root

/-- Open the table of a header.  Only a table made on the way to others may be there. -/
def openTable (root : Table) (path : List String) : Option Construction := do
  let name ← path.getLast?
  let parent ← parentOf root path.dropLast
  let current ← match parent.find? name with
    | none => some Table.empty
    | some (.table (.mk true false entries)) => some (.mk false false entries)
    | some _ => none
  let root ← Table.update false (fun parent => some (parent.erase name)) path.dropLast root
  some { root, place := some (path, false), current }
where
  /-- The table that a path leads to, empty if there is none yet. -/
  parentOf : Table → List String → Option Table
    | t, [] => some t
    | t, name :: path =>
      match t.find? name with
      | none => some .empty
      | some (.table u) => parentOf u path
      | some (.tables (u :: _)) => parentOf u path
      | some _ => none

/-- Open one more table of a list of tables. -/
def openListed (root : Table) (path : List String) : Option Construction := do
  let name ← path.getLast?
  let root ← Table.update false (fun parent =>
    match parent.find? name with
    | none => some (parent.set name (.tables []))
    | some (.tables _) => some parent
    | some _ => none) path.dropLast root
  some { root, place := some (path, true) }

/-- Take in a line. -/
def add (b : Construction) : Line → Option Construction
  | .header path => do openTable (← b.close) path
  | .listHeader path => do openListed (← b.close) path
  | .assignment path v => do
    let current ← b.current.assign path v
    some { b with current }

end Construction

/-- The table that lines build. -/
def buildTable (lines : List Line) : Option Value := do
  let b ← lines.foldlM Construction.add {}
  some (← b.close).finish

end FeedPoller.Toml
