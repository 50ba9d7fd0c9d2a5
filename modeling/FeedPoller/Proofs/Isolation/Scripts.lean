/-
Scripts that differ in nothing but how the runs of one key go.

A script says how each run goes: how long it takes and how it ends.  Two scripts are compared
here that register the same polls at the same steps and do the same otherwise, but may let
the runs of one key go as they like.  Runs perform no operations, and nobody forces the gates.

Whose run a note is about is told by its tag, which ends in the key after a colon.
-/
import FeedPoller.Proofs.Text.Digits
import FeedPoller.Simulation.Play

namespace FeedPoller.Simulation

/-! ### Tags -/

/-- The key in a tag; the tag of a monitor has none. -/
def keyOf? (tag : String) : Option String :=
  match tag.toList.dropWhile (· != ':') with
  | [] => none
  | _ :: key => some (String.ofList key)

/-- Digits hide no colon. -/
theorem dropWhile_digits {digits rest : List Char} (h : ∀ c ∈ digits, c.isDigit = true) :
    (digits ++ rest).dropWhile (· != ':') = rest.dropWhile (· != ':') := by
  refine List.dropWhile_append_of_pos fun c hc => ?_
  rw [bne_iff_ne]
  rintro rfl
  exact absurd (h ':' hc) (by decide)

theorem keyOf?_tag (n : Nat) (key : String) :
    keyOf? (Text.zeroPadded 3 n ++ ":" ++ key) = some key := by
  have hlist : (Text.zeroPadded 3 n ++ ":" ++ key).toList
      = (Text.zeroPadded 3 n).toList ++ ':' :: key.toList := by
    simp [String.toList_append]
  unfold keyOf?
  rw [hlist, dropWhile_digits fun c hc => Text.isDigit_of_mem_zeroPadded hc]
  simp

/-- Whether a note is about a run of a key. -/
def Note.isOf (key : String) (n : Note) : Bool := keyOf? n.tag == some key

/-! ### Runs that perform no operations -/

/-- Whether an act performs nothing. -/
def Act.isIdle : Act → Bool
  | .mk _ none => true
  | .mk _ (some _) => false

/-- Whether a run performs no operations. -/
def Call.isQuiet (c : Call) : Bool := (c.acts ++ c.actsEnd).all Act.isIdle

def Script.isQuiet : Script → Bool
  | .calls cs => cs.all Call.isQuiet
  | .fetches _ => true

def Progress.isQuiet : Progress → Bool
  | .call c => c.isQuiet
  | .fetch _ => true

theorem isQuiet_scripted {cs : List Call} (h : cs.all Call.isQuiet = true) (n : Nat) :
    (scripted cs n).isQuiet = true := by
  unfold scripted
  rw [List.getD_eq_getElem?_getD]
  cases hget : cs[min n (cs.length - 1)]? with
  | none => rfl
  | some c => exact List.all_eq_true.mp h c (List.mem_of_getElem? hget)

/-! ### Steps and scripts -/

/-- Whether a step neither forces the gates nor registers a poll whose runs perform operations. -/
def Step.isPlain : Step → Bool
  | .operation (.forceGates _) => false
  | .operation (.register _ cs) => cs.all Call.isQuiet
  | _ => true

/-- The same step, but for how the runs of a key go. -/
inductive Step.SameBut (hidden : String) : Step → Step → Prop where
  | same {s : Step} (h : s.isPlain = true) : SameBut hidden s s
  | calls {o : PollOptions} {cs cs' : List Call} (hkey : o.key = hidden)
      (hquiet : cs.all Call.isQuiet = true) (hquiet' : cs'.all Call.isQuiet = true) :
      SameBut hidden (.operation (.register o cs)) (.operation (.register o cs'))
  | fetches {o : PollOptions} {fs fs' : List Fetch} (hkey : o.key = hidden) :
      SameBut hidden (.operation (.registerFeed o fs)) (.operation (.registerFeed o fs'))

end FeedPoller.Simulation
