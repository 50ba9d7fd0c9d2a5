/-
The session token.

The token is the text of a file without the white space at its ends.  Whether somebody is
signed in is a cheaper question than what the token is: it only asks whether there is a
file that is not empty.  So a file that holds no text, or nothing but white space, counts
as a sign-in and yet gives no token.
-/
import FeedPoller.FileContent
import FeedPoller.Text.Blank

namespace FeedPoller

/-- Whether somebody is signed in. -/
def FileContent.holdsToken : FileContent → Bool
  | .bytes b => b.size != 0
  | _ => false

/-- Why there is no token in a file. -/
inductive TokenError where
  | unreadable (path : String) (fault : FileFault)
  | empty (path : String)
deriving DecidableEq, Repr

/-- The text of a failure to read the token. -/
def TokenError.message : TokenError → String
  | .unreadable path _ => "Failed to read session token from " ++ path
  | .empty path => "Session token at " ++ path ++ " is empty"

/-- The text of a failure to read the token, and behind it the cause that is known. -/
def TokenError.causes (e : TokenError) : List String :=
  match e with
  | .unreadable _ fault => [e.message, fault.message]
  | .empty _ => [e.message]

/-- The token in the file at a path. -/
def readToken (path : String) (file : FileContent) : Except TokenError String :=
  match file.read with
  | .error fault => .error (.unreadable path fault)
  | .ok text =>
    let token := Text.trim text
    if token.isEmpty then .error (.empty path) else .ok token

end FeedPoller
