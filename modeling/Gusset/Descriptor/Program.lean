import Gusset.Foundation.Census
import Gusset.Foundation.Reach

/-! The write end of the completion pipe: `open_classified`, `write_completion`, `close_within`,
`join_workers`, `release_pipe` and `Drop`, over the references and the threads that can reach a
handle, one access to what they share a step. -/
namespace Gusset.Descriptor
open Foundation

/-- The number of a file descriptor. -/
abbrev Fd := Nat

/-- Who runs `close_within` or its end: an explicit close, `Drop`, or the thread `gusset-close`. -/
inductive Who | caller | dropper | joiner
  deriving DecidableEq, Repr

/-- Where a thread stands. -/
inductive Pc
  | outside | exited
  | checking | spawning (needed : Nat) | awaiting | nonblocking | publishing | registering
  | locking | attempting (raw : Option Fd) | blocked | sleeping
  | swapping (who : Who) | signalling (who : Who) | draining (who : Who)
  | sorting (who : Who) (handles : List Nat) | upgrading (who : Who) (foreign : List Nat)
  | spawningJoiner (who : Who) (foreign : List Nat) | joining (who : Who) (rest : List Nat)
  | releasing (who : Who) | swappingFd (who : Who) | closingFd (who : Who) (raw : Option Fd)
  | waiting (joiner : Nat) | joiningJoiner (joiner : Nat) | sending | dropping
  deriving DecidableEq, Repr

/-- A thread: whether the pool started it, the references it holds, where it stands, whether it has
sent on its channel. `late` is what no line of the program reads: the attempts of its last
`write_completion` that came after `closed` was set. -/
structure Thread where
  worker : Bool
  arcs : Nat
  pc : Pc
  sent : Bool
  late : Nat
  deriving DecidableEq, Repr

/-- The fields of `Handle` that matter here; -1 in `pipe_write_fd` is `none`. What follows `workers`
is read by no line: what `open` returned, whether the descriptor was stored and swapped out again,
how often it was closed, and the attempts to write on it after that. -/
structure Handle where
  pipeWriteFd : Option Fd
  pipeWriteLock : Bool
  closed : Bool
  workers : List Nat
  result : Option Bool
  published : Bool
  released : Bool
  closes : Nat
  stray : Nat
  deriving DecidableEq, Repr

structure Config where
  poolSize : Nat
  pipeWriteFd : Fd
  deriving DecidableEq, Repr

structure State where
  handle : Handle
  threads : List Thread
  deriving DecidableEq, Repr

namespace State

def new : State := ⟨⟨none, false, false, [], none, false, false, 0, 0⟩,
    [⟨false, 0, .checking, false, 0⟩]⟩

def strong (s : State) : Nat := census Thread.arcs s.threads

def exited (s : State) (i : Nat) : Bool := (s.threads[i]?.map fun th => th.pc == .exited).getD false

def sent (s : State) (i : Nat) : Bool := (s.threads[i]?.map Thread.sent).getD false

end State

def Thread.goto (th : Thread) (pc : Pc) : Thread := { th with pc := pc }

/-- Drops a reference; the last one runs `Drop`. -/
def Thread.letGo (th : Thread) (strong : Nat) : Thread :=
  { th with arcs := th.arcs - 1, pc := if strong = 1 then .swapping .dropper else .outside }

/-- What decides a step: that a call fails, what a write returns, or that a wait times out. -/
inductive Choice | go | fail | ok | wouldBlock | error
  deriving DecidableEq, Repr

/-- What a step makes of the handle and of the thread, and the threads it starts. -/
structure Effect where
  handle : Handle
  thread : Thread
  started : List Thread

def worker : Thread := ⟨true, 0, .outside, false, 0⟩

-- An error in `open_classified`, once there is a handle to drop.
def failOpen (s : State) (th : Thread) : Effect :=
  ⟨{ s.handle with result := some false }, th.letGo s.strong, []⟩

/-- `open_classified`. -/
def openStep (cfg : Config) (s : State) (th : Thread) : Pc → Choice → Option Effect
  | .checking, .fail => some ⟨{ s.handle with result := some false }, th.goto .outside, []⟩
  | .checking, .go => some ⟨s.handle, { th with arcs := 1, pc := .spawning cfg.poolSize }, []⟩
  | .spawning 0, .go => some ⟨s.handle, th.goto .awaiting, []⟩
  | .spawning (_ + 1), .fail => some (failOpen s th)
  | .spawning (n + 1), .go =>
    some ⟨{ s.handle with workers := s.handle.workers ++ [s.threads.length] },
      th.goto (.spawning n), [worker]⟩
  | .awaiting, .fail => some (failOpen s th)
  | .awaiting, .go => some ⟨s.handle, th.goto .nonblocking, []⟩
  | .nonblocking, .fail => some (failOpen s th)
  | .nonblocking, .go => some ⟨s.handle, th.goto .publishing, []⟩
  | .publishing, .go =>
    some ⟨{ s.handle with pipeWriteFd := some cfg.pipeWriteFd, published := true },
      th.goto .registering, []⟩
  | .registering, .go => some ⟨{ s.handle with result := some true }, th.goto .outside, []⟩
  | _, _ => none

-- An attempt on a descriptor, and the end of the section under the lock.
def attempt (h : Handle) (th : Thread) (pc : Pc) : Effect :=
  ⟨{ h with pipeWriteLock := false, stray := h.stray + min h.closes 1 },
    { th with pc := pc, late := th.late + h.closed.toNat }, []⟩

/-- `write_completion`. -/
def writeStep (s : State) (th : Thread) : Pc → Choice → Option Effect
  | .locking, .go =>
    if s.handle.pipeWriteLock then none
    else some ⟨{ s.handle with pipeWriteLock := true }, th.goto (.attempting s.handle.pipeWriteFd), []⟩
  | .attempting none, .go => some ⟨{ s.handle with pipeWriteLock := false }, th.goto .outside, []⟩
  | .attempting (some _), .ok | .attempting (some _), .error => some (attempt s.handle th .outside)
  | .attempting (some _), .wouldBlock => some (attempt s.handle th .blocked)
  | .blocked, .go => some ⟨s.handle, th.goto (if s.handle.closed then .outside else .sleeping), []⟩
  | .sleeping, .go => some ⟨s.handle, th.goto .locking, []⟩
  | _, _ => none

-- Where `release_pipe` returns to.
def Who.after : Who → Pc
  | .caller | .dropper => .outside
  | .joiner => .sending

/-- `close_within`, `join_workers` and `release_pipe`, of thread `me`. -/
def closeStep (s : State) (me : Nat) (th : Thread) : Pc → Choice → Option Effect
  | .swapping who, .go =>
    if s.handle.closed then some ⟨s.handle, th.goto .outside, []⟩
    else some ⟨{ s.handle with closed := true }, th.goto (.signalling who), []⟩
  | .signalling who, .go => some ⟨s.handle, th.goto (.draining who), []⟩
  | .draining who, .go =>
    some ⟨{ s.handle with workers := [] }, th.goto (.sorting who s.handle.workers), []⟩
  | .sorting who handles, .go =>
    let foreign := handles.filter fun w => w ≠ me
    some ⟨s.handle, th.goto (if foreign = [] then .releasing who else .upgrading who foreign), []⟩
  | .upgrading who foreign, .go =>
    some ⟨s.handle, if s.strong = 0 then th.goto (.joining who foreign)
      else { th with arcs := th.arcs + 1, pc := .spawningJoiner who foreign }, []⟩
  | .spawningJoiner who foreign, .fail =>
    some ⟨s.handle, { th with arcs := th.arcs - 1, pc := .joining who foreign }, []⟩
  | .spawningJoiner _ foreign, .go =>
    some ⟨s.handle, { th with arcs := th.arcs - 1, pc := .waiting s.threads.length },
      [⟨false, 1, .joining .joiner foreign, false, 0⟩]⟩
  | .joining who [], .go => some ⟨s.handle, th.goto (.releasing who), []⟩
  | .joining who (w :: rest), .go =>
    if s.exited w then some ⟨s.handle, th.goto (.joining who rest), []⟩ else none
  | .releasing who, .go =>
    if s.handle.pipeWriteLock then none
    else some ⟨{ s.handle with pipeWriteLock := true }, th.goto (.swappingFd who), []⟩
  | .swappingFd who, .go =>
    some ⟨{ s.handle with pipeWriteFd := none, released := true },
      th.goto (.closingFd who s.handle.pipeWriteFd), []⟩
  | .closingFd who raw, .go =>
    some ⟨{ s.handle with pipeWriteLock := false, closes := s.handle.closes + raw.isSome.toNat },
      th.goto who.after, []⟩
  | .waiting joiner, .go =>
    if s.sent joiner then some ⟨s.handle, th.goto (.joiningJoiner joiner), []⟩ else none
  | .waiting _, .fail => some ⟨s.handle, th.goto .outside, []⟩
  | .joiningJoiner joiner, .go =>
    if s.exited joiner then some ⟨s.handle, th.goto .outside, []⟩ else none
  | .sending, .go => some ⟨s.handle, { th with sent := true, pc := .dropping }, []⟩
  | .dropping, .go => some ⟨s.handle, th.letGo s.strong, []⟩
  | _, _ => none

/-- What a thread outside of all this can do next. -/
inductive Move
  | upgrade | complete | close | drop | respawn | exit
  deriving DecidableEq, Repr

/-- `Weak::upgrade` of a worker with a result, or of `gusset_shutdown`; the start of
`write_completion`, of an explicit close and of a drop; `ensure_workers`, which looks at `closed`
under the lock of `workers`; and the end of a thread. -/
def moveStep (s : State) (th : Thread) : Move → Option Effect
  | .upgrade =>
    if s.handle.result = some true ∧ 0 < s.strong then
      some ⟨s.handle, { th with arcs := th.arcs + 1 }, []⟩
    else none
  | .complete =>
    if th.worker ∧ 0 < th.arcs then some ⟨s.handle, { th with pc := .locking, late := 0 }, []⟩
    else none
  | .close => if 0 < th.arcs then some ⟨s.handle, th.goto (.swapping .caller), []⟩ else none
  | .drop => if 0 < th.arcs then some ⟨s.handle, th.letGo s.strong, []⟩ else none
  | .respawn =>
    if 0 < th.arcs ∧ ¬ s.handle.closed then
      some ⟨{ s.handle with workers := s.handle.workers ++ [s.threads.length] }, th, [worker]⟩
    else none
  | .exit => if th.arcs = 0 then some ⟨s.handle, th.goto .exited, []⟩ else none

inductive Act
  | thread (i : Nat) (c : Choice) | move (i : Nat) (m : Move) | clone (i k : Nat) | reap (w : Nat)
  | spawn
  deriving DecidableEq, Repr

namespace State

def threadStep (cfg : Config) (s : State) (i : Nat) (th : Thread) (c : Choice) : Option Effect :=
  (openStep cfg s th th.pc c).or <| (writeStep s th th.pc c).or <| closeStep s i th th.pc c

def apply (s : State) (i : Nat) (e : Effect) : State :=
  ⟨e.handle, s.threads.set i e.thread ++ e.started⟩

-- A reference is cloned for another thread.
def cloneStep (s : State) (i k : Nat) : Option State :=
  match s.threads[i]?, s.threads[k]? with
  | some giver, some taker =>
    if giver.pc = .outside ∧ 0 < giver.arcs ∧ taker.pc = .outside then
      some { s with threads := s.threads.set k { taker with arcs := taker.arcs + 1 } }
    else none
  | _, _ => none

def step (cfg : Config) (s : State) : Act → Option State
  | .thread i c => (s.threads[i]?).bind fun th => (s.threadStep cfg i th c).map (s.apply i)
  | .move i m =>
    (s.threads[i]?).bind fun th =>
      if th.pc = .outside then (moveStep s th m).map (s.apply i) else none
  | .clone i k => s.cloneStep i k
  | .reap w =>
    if s.exited w then
      some { s with handle := { s.handle with workers := s.handle.workers.erase w } }
    else none
  | .spawn => some { s with threads := s.threads ++ [⟨false, 0, .outside, false, 0⟩] }

end State

def Reaches (cfg : Config) : State → Prop :=
  Reachable (· = .new) fun s t => ∃ a, s.step cfg a = some t

end Gusset.Descriptor
