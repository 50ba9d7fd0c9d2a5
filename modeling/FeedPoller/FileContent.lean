/-
What is found where a file should be.

There may be nothing, or a directory, or a file.  A file is replaced as a whole, so nobody
sees half of it, and a directory is never replaced by a file.
-/
namespace FeedPoller

/-- What is found where a file should be. -/
inductive FileContent where
  | missing
  | directory
  | bytes (b : ByteArray)

/-- Why there is no text to be read. -/
inductive FileFault where
  | missing
  | directory
  | notText
deriving DecidableEq, Repr

/-- The text of a fault. -/
def FileFault.message : FileFault → String
  | .missing => "No such file or directory (os error 2)"
  | .directory => "Is a directory (os error 21)"
  | .notText => "stream did not contain valid UTF-8"

/-- The text of a file; one that is not UTF-8 cannot be read as text. -/
def FileContent.read : FileContent → Except FileFault String
  | .missing => .error .missing
  | .directory => .error .directory
  | .bytes b =>
    match String.fromUTF8? b with
    | none => .error .notText
    | some s => .ok s

/-- What may happen to a file. -/
inductive FileChange where
  | write (b : ByteArray)
  | remove
  | makeDirectory

/-- What is found after a change; only an empty place takes a new directory. -/
def FileContent.change (f : FileContent) (c : FileChange) : FileContent :=
  match c, f with
  | .write _, .directory => .directory
  | .write b, _ => .bytes b
  | .remove, _ => .missing
  | .makeDirectory, .missing => .directory
  | .makeDirectory, f => f

end FeedPoller
