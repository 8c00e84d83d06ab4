import Gusset.Foundation.Reach
import Gusset.Foundation.Census

/-! The worker threads of a handle: `spawn_workers`, `await_ready`, `ensure_workers` and the part of
`close_within` that takes them, one access to the memory the callers share a step. -/
namespace Gusset.Workers
open Foundation

/-- A thread the handle started. `report` is what it sent about its startup protections; `halted`
says that its exit mark has fired. -/
structure Worker where
  report : Option Bool
  halted : Bool
  deriving DecidableEq, Repr

/-- The fields of `Handle` that keep the pool whole. A worker is known by its place in `started`,
which stands for its thread id; `workers` has those with a `JoinHandle` in the vector. `subtracted`
has the workers taken off `exited`. -/
structure Pool where
  poolSize : Nat
  started : List Worker
  workers : List Nat
  exited : Nat
  respawnPending : Bool
  respawnLock : Bool
  workersLock : Bool
  opened : Bool
  closed : Bool
  subtracted : List Nat
  deriving DecidableEq, Repr

namespace Pool

def new (poolSize : Nat) : Pool := ⟨poolSize, [], [], 0, false, false, false, false, false, []⟩

def halted (s : Pool) (w : Nat) : Bool := (s.started[w]?.map Worker.halted).getD false

def report (s : Pool) (w : Nat) : Option Bool := s.started[w]?.bind Worker.report

-- `builder.spawn` and `workers.push`.
def spawn (s : Pool) : Pool :=
  { s with
    started := s.started ++ [⟨none, false⟩]
    workers := s.workers ++ [s.started.length] }

-- `exited.fetch_sub` for workers that are out of the vector.
def uncount (s : Pool) (done : List Nat) : Pool :=
  { s with exited := s.exited - done.length, subtracted := s.subtracted ++ done }

end Pool

/-- Who awaits the reports: `open`, or a submit that repairs the pool. -/
@[grind cases] inductive Stage
  | opening | respawn
  deriving DecidableEq, Repr

/-- Where a call of `open`, `ensure_workers` or `close` stands. `skipped` is an `ensure_workers`
that returned by its fast path. -/
inductive Thread
  | idle
  | opening
  | fast
  | fastPending
  | waiting
  | recheck
  | recheckPending
  | entering
  | checking
  | raising
  | reaping
  | uncounting (done : List Nat)
  | spawning (stage : Stage) (needed : Nat) (starting : List Nat)
  | awaiting (stage : Stage) (starting : List Nat) (failed : Bool)
  | removing (stage : Stage) (w : Nat) (rest : List Nat)
  | joining (stage : Stage) (w : Nat) (rest : List Nat)
  | flagging (stage : Stage) (rest : List Nat)
  | clearing
  | leaving (ok : Bool)
  | skipped
  | returned (ok : Bool)
  | closing
  | draining
  deriving DecidableEq, Repr

/-- What the machine decides for a step: which workers `is_finished` reports, whether the OS refuses
a thread, whether the deadline for the reports has passed. -/
structure Choice where
  finished : List Nat
  refused : Bool
  late : Bool

/-- `recv_timeout`: whether the worker counts as started, if the call returns at all. A worker that
exits without a report disconnects its channel. -/
def Pool.recv (s : Pool) (w : Nat) (late : Bool) : Option Bool :=
  match s.report w with
  | some ok => some ok
  | none => if late then some true else if s.halted w then some false else none

namespace Thread

/-- Ends `spawn_workers` or `ensure_workers` once the reports are in. -/
def finish (s : Pool) (failed : Bool) : Stage → Pool × Thread
  | .opening => ({ s with opened := !failed }, .returned !failed)
  | .respawn => (s, if failed then .leaving false else .clearing)

/-- Ends `spawn_workers_locked` where the OS refused a thread. -/
def refuse (s : Pool) : Stage → Pool × Thread
  | .opening => ({ s with workersLock := false }, .returned false)
  | .respawn => ({ s with workersLock := false }, .leaving false)

/-- A caller's next access; `none` where it waits. -/
def step (s : Pool) (c : Choice) : Thread → Option (Pool × Thread)
  | .opening =>
    if s.workersLock then none
    else some ({ s with workersLock := true }, .spawning .opening s.poolSize [])
  | .fast => some (s, if s.exited = 0 then .fastPending else .waiting)
  | .fastPending => some (s, if s.respawnPending then .waiting else .skipped)
  | .waiting => if s.respawnLock then none else some ({ s with respawnLock := true }, .recheck)
  | .recheck => some (s, if s.exited = 0 then .recheckPending else .entering)
  | .recheckPending => some (s, if s.respawnPending then .entering else .leaving true)
  | .entering => if s.workersLock then none else some ({ s with workersLock := true }, .checking)
  | .checking =>
    if s.closed then some ({ s with workersLock := false }, .leaving true) else some (s, .raising)
  | .raising => some ({ s with respawnPending := true }, .reaping)
  | .reaping =>
    let done := s.workers.filter fun w => w ∈ c.finished ∧ s.halted w
    some ({ s with workers := s.workers.filter fun w => w ∉ done }, .uncounting done)
  | .uncounting done =>
    some (s.uncount done, .spawning .respawn (s.poolSize - s.workers.length) [])
  | .spawning stage 0 starting =>
    some ({ s with workersLock := false }, .awaiting stage starting false)
  | .spawning stage (n + 1) starting =>
    if c.refused then some (refuse s stage)
    else some (s.spawn, .spawning stage n (starting ++ [s.started.length]))
  | .awaiting stage [] failed => some (finish s failed stage)
  | .awaiting stage (w :: rest) failed =>
    (s.recv w c.late).map fun ok =>
      (s, if ok then .awaiting stage rest failed else .removing stage w rest)
  | .removing stage w rest =>
    if s.workersLock then none
    else if w ∈ s.workers then some ({ s with workers := s.workers.erase w }, .joining stage w rest)
    else some (s, .flagging stage rest)
  | .joining stage w rest =>
    if s.halted w then some (s.uncount [w], .flagging stage rest) else none
  | .flagging stage rest => some ({ s with respawnPending := true }, .awaiting stage rest true)
  | .clearing => some ({ s with respawnPending := false }, .leaving true)
  | .leaving ok => some ({ s with respawnLock := false }, .returned ok)
  | .closing =>
    if s.closed then some (s, .returned true) else some ({ s with closed := true }, .draining)
  | .draining => if s.workersLock then none else some ({ s with workers := [] }, .returned true)
  | .idle | .skipped | .returned _ => none

-- Outside every call.
def outside : Thread → Bool
  | .idle | .skipped | .returned _ => true
  | _ => false

end Thread

/-- The pool and the threads that call into the handle, of which the first one opens it. -/
structure State where
  pool : Pool
  threads : List Thread

inductive Act
  | spawn
  | ensure (i : Nat)
  | close (i : Nat)
  | thread (i : Nat) (c : Choice)
  | report (w : Nat) (ok : Bool)
  | exit (w : Nat)

namespace State

def new (poolSize : Nat) : State := ⟨.new poolSize, [.opening]⟩

def call (s : State) (i : Nat) (p : Thread) : Option State :=
  match s.threads[i]? with
  | some q => if q.outside then some { s with threads := s.threads.set i p } else none
  | none => none

def threadStep (s : State) (i : Nat) (c : Choice) : Option State :=
  (s.threads[i]?).bind fun p =>
    (p.step s.pool c).map fun r => ⟨r.1, s.threads.set i r.2⟩

-- The worker's side: its startup report, and the exit mark of any way out.
def reportStep (s : State) (w : Nat) (ok : Bool) : Option State :=
  match s.pool.started[w]? with
  | some ⟨none, false⟩ =>
    some { s with pool := { s.pool with started := s.pool.started.set w ⟨some ok, false⟩ } }
  | _ => none

def exitStep (s : State) (w : Nat) : Option State :=
  match s.pool.started[w]? with
  | some ⟨report, false⟩ =>
    some { s with pool := { s.pool with
      started := s.pool.started.set w ⟨report, true⟩, exited := s.pool.exited + 1 } }
  | _ => none

/-- A handle takes calls once `open` returned it. The `Drop` of one that failed to open closes it
too. -/
def step (s : State) : Act → Option State
  | .spawn => some { s with threads := s.threads ++ [.idle] }
  | .ensure i => if s.pool.opened then s.call i .fast else none
  | .close i => s.call i .closing
  | .thread i c => s.threadStep i c
  | .report w ok => s.reportStep w ok
  | .exit w => s.exitStep w

end State

def Reaches (poolSize : Nat) : State → Prop :=
  Reachable (· = .new poolSize) fun s t => ∃ a, s.step a = some t

/-- A run given by its actions. -/
def follows (s : State) (acts : List Act) : Option State := follow State.step s acts

theorem follows_reaches {poolSize : Nat} {s t : State} {acts : List Act}
    (reach : Reaches poolSize s) (run : follows s acts = some t) : Reaches poolSize t :=
  reach.follow (fun _ a _ went => ⟨a, went⟩) run

end Gusset.Workers
