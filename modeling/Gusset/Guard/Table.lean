import Gusset.Foundation.Reach

/-! The panic locations of guard.rs: `intern_file_string`, the table behind `PANIC_LOCATIONS`, the
hook that records in it and `take_panic_location`, with any number of threads. Each of the two
locks is one step of the thread that takes it. -/
namespace Gusset.Guard
open Foundation

/-- Rust does not reuse a `ThreadId`. -/
abbrev ThreadId := Nat

structure PanicLocation where
  file : String
  line : UInt32
  deriving DecidableEq, Repr

def maxInternedFiles : Nat := 1024

def maxPanicLocations : Nat := 256

/-- The name to use for a file, and the cache after the call. -/
def internFileString (cache : List String) (file : String) : String × List String :=
  if file ∈ cache then (file, cache)
  else if maxInternedFiles ≤ cache.length then ("unknown_file", cache)
  else (file, cache ++ [file])

abbrev Table := List (ThreadId × PanicLocation)

def position (list : Table) (id : ThreadId) : Option Nat :=
  list.findIdx? fun entry => entry.1 == id

/-- `Vec::swap_remove`: the last element takes the place of the one that goes. -/
def swapRemove {α : Type u} (list : List α) (pos : Nat) : List α :=
  match list.getLast? with
  | some last => (list.set pos last).dropLast
  | none => []

def takePanicLocation (list : Table) (id : ThreadId) : Option PanicLocation × Table :=
  match position list id with
  | some pos => ((list[pos]?).map Prod.snd, swapRemove list pos)
  | none => (none, list)

/-- The part of the panic hook that holds the lock of the table. -/
def recordLocation (list : Table) (id : ThreadId) (loc : PanicLocation) : Table :=
  match position list id with
  | some pos => list.modify pos fun entry => (entry.1, loc)
  | none => (if maxPanicLocations ≤ list.length then list.eraseIdx 0 else list) ++ [(id, loc)]

/-- What a thread did to the table. `added` says that its location went into a new entry. -/
inductive Event
  | recorded (thread : ThreadId) (loc : PanicLocation) (added : Bool)
  | took (thread : ThreadId)
  deriving DecidableEq, Repr

namespace Event

def thread : Event → ThreadId
  | .recorded thread _ _ | .took thread => thread

def location : Event → Option PanicLocation
  | .recorded _ loc _ => some loc
  | .took _ => none

def newcomer : Event → Option ThreadId
  | .recorded thread _ true => some thread
  | _ => none

end Event

/-- The two statics and the threads that are in the hook, with the location each has interned.
No line of the program reads `past`: it is what was done to the table, the last first. -/
structure State where
  files : List String
  locations : Table
  hooks : Table
  past : List Event
  deriving DecidableEq, Repr

def State.new : State := ⟨[], [], [], []⟩

/-- A thread panics, its hook records, or it asks for its location. A panic may come without a
location. -/
inductive Act
  | panic (id : ThreadId) (site : Option (String × UInt32))
  | record (id : ThreadId)
  | take (id : ThreadId)
  deriving DecidableEq, Repr

namespace State

def intern (g : State) (id : ThreadId) (file : String) (line : UInt32) : State :=
  { g with
    files := (internFileString g.files file).2
    hooks := (id, ⟨(internFileString g.files file).1, line⟩) :: g.hooks }

def record (g : State) (id : ThreadId) (loc : PanicLocation) : State :=
  { g with
    locations := recordLocation g.locations id loc
    hooks := g.hooks.filter fun entry => entry.1 != id
    past := .recorded id loc (position g.locations id).isNone :: g.past }

def take (g : State) (id : ThreadId) : State :=
  { g with
    locations := (takePanicLocation g.locations id).2
    past := .took id :: g.past }

end State

def step (g : State) : Act → Option State
  | .panic id site =>
    match position g.hooks id, site with
    | none, some (file, line) => some (g.intern id file line)
    | none, none => some g
    | some _, _ => none
  | .record id =>
    (position g.hooks id).bind fun pos => (g.hooks[pos]?).map fun entry => g.record id entry.2
  | .take id => if (position g.hooks id).isNone then some (g.take id) else none

def Steps (g g' : State) : Prop := ∃ a, step g a = some g'

/-- What any threads can do to the table. -/
def Reaches (g : State) : Prop := Reachable (· = State.new) Steps g

end Gusset.Guard
