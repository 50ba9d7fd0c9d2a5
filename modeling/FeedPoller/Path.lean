/-
Paths.

A path is read as the names between its slashes.  A slash too many says nothing, and
neither does a dot, unless it stands first in a path that does not begin at the root.
What a path leads to has a name only if the path does not end by going up.
-/
namespace FeedPoller.Path

/-- Whether a path begins at the root. -/
def isAbsolute (path : List Char) : Bool := path.head? == some '/'

/-- A path in reverse without the slashes and dots at its end that say nothing. -/
def dropIdle : List Char → List Char
  | '/' :: rest => dropIdle rest
  | '.' :: '/' :: rest => dropIdle rest
  | path => path

/-- A path in reverse, ending in its last name; empty for the root and for no path. -/
def reversed (path : String) : List Char := dropIdle path.toList.reverse

/-- The last of a path's names, which may be one or two dots. -/
def lastName? (path : String) : Option String :=
  match reversed path with
  | [] => none
  | end_ => some (String.ofList (end_.takeWhile (· != '/')).reverse)

/-- The directory that a path leads into, which the root and an empty path do not have. -/
def parent? (path : String) : Option String :=
  match reversed path with
  | [] => none
  | end_ =>
    let rest := dropIdle (end_.dropWhile (· != '/'))
    if rest.isEmpty && isAbsolute path.toList then some "/" else some (String.ofList rest.reverse)

/-- The name of what a path leads to. -/
def fileName? (path : String) : Option String :=
  match lastName? path with
  | some ".." => none
  | some "." => none
  | name => name

end FeedPoller.Path
