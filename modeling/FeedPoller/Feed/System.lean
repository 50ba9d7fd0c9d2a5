/-
A system whose runs fetch feeds.

A poll that is made for a feed has a fetch for its runs.  Such a run is heard of four times.  The
coordinator begins it; the store is told that the fetch begins, and then how it ends, unless it
ends in a panic; and last the coordinator learns that the run is over.  Nobody holds the coordinator
and the store at once, so each of these is an event of its own, and anything may come between
them.  A feed system is a system, the store, the list of the registrations that were made for
feeds, and the runs of these that have begun and not ended, each with the stage that it has come
to.  Other polls may run in the same system and never touch the store.

The store can also be written to by others, which is an event of its own.
-/
import FeedPoller.Feed.Fetch
import FeedPoller.Poll.System

namespace FeedPoller

/-- A call that writes to the store, whoever makes it. -/
inductive StoreWrite where
  | begin (key : String)
  | complete (key : String) (data : Json.Value)
  | fail (key : String) (error : String)
  | remove (key : String)

/-- The store after a call at some time. -/
def FeedStore.write (s : FeedStore) (time : DateTime) : StoreWrite → FeedStore
  | .begin key => s.beginFetch key
  | .complete key data => s.completeFetch key data time
  | .fail key error => s.failFetch key error
  | .remove key => s.remove key

/-- How far a run has come that fetches a feed. -/
inductive FetchStage where
  /-- The run has begun, and the store has not heard of it. -/
  | pending
  /-- The store has heard that the fetch begins. -/
  | going
  /-- The fetch has ended, and the coordinator has not heard of it. -/
  | ended (failed : Bool)
deriving DecidableEq, Repr

/-- A run that fetches a feed. -/
structure Fetch where
  run : Run
  stage : FetchStage
deriving DecidableEq, Repr

/-- The fetches after that of a run has come to a stage. -/
def Fetch.move (fetches : List Fetch) (run : Run) (stage : FetchStage) : List Fetch :=
  fetches.map fun f => if f.run = run then { f with stage } else f

/-- A system and the store that its fetches write to. -/
structure FeedSystem where
  system : System
  store : FeedStore := {}
  /-- The registrations that were made for feeds: their runs are fetches. -/
  feeds : List Nat := []
  /-- The fetches that have begun as runs and not ended as such, in the order of their beginning. -/
  fetches : List Fetch := []
deriving Repr

/-- Something that happens to a feed system. -/
inductive FeedEvent where
  /-- An event of the system; the end of a run is one of these only if the run is no fetch. -/
  | poll (e : Event)
  /-- A poll is registered for a feed. -/
  | registerFeed (options : PollOptions)
  /-- The run begun for this registration tells the store that its fetch begins. -/
  | beginFetch (id : Nat)
  /-- The fetch ends that the run begun for this registration makes, and the store is told. -/
  | endFetch (id : Nat) (outcome : FetchOutcome)
  /-- The coordinator learns that the run begun for this registration is over. -/
  | finishFetch (id : Nat)
  /-- Somebody else writes to the store. -/
  | write (call : StoreWrite)

namespace FeedSystem

/-- A feed system whose coordinator has just been made. -/
def initial (config : CoordinatorConfig) (clock : Clock) (draws : Draws) : FeedSystem :=
  { system := .initial config clock draws }

/-- The time on the wall clock. -/
def wall (s : FeedSystem) : DateTime := s.system.coordinator.clock.wall

/-- The fetch that the run begun for a registration makes. -/
def fetch? (s : FeedSystem) (id : Nat) : Option Fetch := s.fetches.find? (·.run.id == id)

/-- What the system notices of an event. -/
def noticed (s : FeedSystem) : FeedEvent → Option Event
  | .poll (.finish id failed) => if s.feeds.contains id then none else some (.finish id failed)
  | .poll e => some e
  | .registerFeed o => some (.register o)
  | .finishFetch id =>
    match s.fetch? id with
    | some ⟨_, .ended failed⟩ => some (.finish id failed)
    | _ => none
  | .beginFetch _ | .endFetch _ _ | .write _ => none

/-- The store after an event. -/
def storeAfter (s : FeedSystem) : FeedEvent → FeedStore
  | .beginFetch id =>
    match s.fetch? id with
    | some ⟨run, .pending⟩ => s.store.beginFetch run.key
    | _ => s.store
  | .endFetch id o =>
    match s.fetch? id with
    | some ⟨run, .going⟩ => s.store.endFetch run.key o s.wall
    | _ => s.store
  | .write call => s.store.write s.wall call
  | .poll _ | .registerFeed _ | .finishFetch _ => s.store

/-- The fetches after an event. -/
def fetchesAfter (s : FeedSystem) : FeedEvent → List Fetch
  | .poll (.fire n) =>
    match (s.system.fire n).2 with
    | none => s.fetches
    | some run => if s.feeds.contains run.id then s.fetches ++ [⟨run, .pending⟩] else s.fetches
  | .beginFetch id =>
    match s.fetch? id with
    | some ⟨run, .pending⟩ => Fetch.move s.fetches run .going
    | _ => s.fetches
  | .endFetch id o =>
    match s.fetch? id with
    | some ⟨run, .going⟩ => Fetch.move s.fetches run (.ended o.isFailure)
    | _ => s.fetches
  | .finishFetch id =>
    match s.fetch? id with
    | some ⟨run, .ended _⟩ => s.fetches.filter (·.run ≠ run)
    | _ => s.fetches
  | .poll _ | .registerFeed _ | .write _ => s.fetches

/-- The registrations made for feeds after an event. -/
def feedsAfter (s : FeedSystem) : FeedEvent → List Nat
  | .registerFeed o =>
    if s.system.alive then
      match (s.system.coordinator.register o).2 with
      | .ok handle => s.feeds ++ [handle.id]
      | .error _ => s.feeds
    else s.feeds
  | _ => s.feeds

/-- The feed system after an event. -/
def step (s : FeedSystem) (e : FeedEvent) : FeedSystem where
  system := match s.noticed e with
    | none => s.system
    | some e => s.system.step e
  store := s.storeAfter e
  feeds := s.feedsAfter e
  fetches := s.fetchesAfter e

/-- The feed system after a history. -/
def run (s : FeedSystem) (events : List FeedEvent) : FeedSystem := events.foldl step s

end FeedSystem

end FeedPoller
