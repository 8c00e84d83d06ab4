import Gusset.Completion.Conservation
import Gusset.Handle.Guarantees

/-! One handle on both sides of the boundary: the Go callers and their reader, `Handle::submit`
with its job queue, the pool's workers, and the completions on their way back. -/
namespace Gusset.System
open Foundation Wire Gusset.Ring

-- `MAX_POOL_SIZE`, which Go's `MaxPoolSize` mirrors.
def maxPoolSize : Nat := 1024

-- `ID_CEILING`.
def idCeiling : Nat := 2 ^ 63

/-- An id `reserve_id` issues. -/
abbrev Id := { n : Nat // 0 < n ∧ n < idCeiling }

/-- The id as the record of a completion has it. -/
def Id.word (t : Id) : Word := .ofNat 64 t.val

theorem Id.word_toNat (t : Id) : t.word.toNat = t.val := by
  have low := t.property.2
  unfold idCeiling at low
  rw [Id.word, BitVec.toNat_ofNat, Nat.mod_eq_of_lt (by omega)]

-- `FFI_ERR`.
def ffiErr : Nat := 1

-- `usize::saturating_mul`.
def saturatingMul (n m : Nat) : Nat := min (n * m) (2 ^ 64 - 1)

/-- `size_completion_pipe`: whether inline records fit, or none where the pool is refused. `grow` is
what `ensure_pipe_capacity` answers. -/
def sizeCompletionPipe (poolSize : Nat) (canGrow : Bool) (grow : Nat → Bool) : Option Bool :=
  let records := saturatingMul poolSize inlineRecordMax
  let tickets := saturatingMul poolSize 8
  if canGrow = false then
    if grow tickets then some (records ≤ 16 * 1024) else none
  else if grow records then some true
  else if grow tickets then some false
  else none

/-- How many bytes `ensure_pipe_capacity` accepted while `size_completion_pipe` ran. -/
def grantedBytes (poolSize : Nat) (canGrow : Bool) (grow : Nat → Bool) : Nat :=
  let records := saturatingMul poolSize inlineRecordMax
  if canGrow = true ∧ grow records = true then records else saturatingMul poolSize 8

/-- An open that succeeded: the pool size both sides were given, what sizing the pipe decided, how
many bytes the kernel's pipe really holds, and whether Go attached a ring. -/
structure Config where
  poolSize : Nat
  least : 1 ≤ poolSize
  most : poolSize ≤ maxPoolSize
  maxUncollected : Nat
  endian : Endian
  canGrow : Bool
  grow : Nat → Bool
  inlineOk : Bool
  sized : sizeCompletionPipe poolSize canGrow grow = some inlineOk
  pipeBytes : Nat
  attached : Bool

namespace Config

def handle (cfg : Config) : Handle.Config := ⟨cfg.poolSize, cfg.maxUncollected⟩

-- `attach_ring`.
def ring (cfg : Config) : Option Capacity := if cfg.attached then Capacity.new cfg.poolSize else none

def completion (cfg : Config) : Completion.Config :=
  ⟨cfg.endian, cfg.ring, cfg.inlineOk, cfg.pipeBytes⟩

/-- What one record takes of the room the pipe was sized for. -/
def recordBytes (cfg : Config) : Nat := if cfg.inlineOk then inlineRecordMax else 8

end Config

structure WorkUnit where
  ticket : Id
  wantsInline : Bool
  deriving DecidableEq, Repr

inductive PushError | full | closed
  deriving DecidableEq, Repr

/-- The job queue between its lock sections. -/
structure JobQueue where
  items : List WorkUnit
  closed : Bool
  cap : Nat

namespace JobQueue

def new (cap : Nat) : JobQueue := ⟨[], false, max cap 1⟩

def push (q : JobQueue) (u : WorkUnit) : Except PushError JobQueue :=
  if q.closed then .error .closed
  else if q.cap ≤ q.items.length then .error .full
  else .ok { q with items := q.items ++ [u] }

def pop (q : JobQueue) : Option (WorkUnit × JobQueue) :=
  match q.items with
  | u :: rest => some (u, { q with items := rest })
  | [] => none

end JobQueue

/-- `complete` as a worker calls it for its unit. -/
def WorkUnit.job (u : WorkUnit) (result : Completion.JobResult) : Completion.Job where
  ticket := u.ticket.word
  result := result
  wantsInline := u.wantsInline
  low := by
    rw [u.ticket.word_toNat]
    exact u.ticket.property.2
  issued := by
    intro zero
    have value := congrArg BitVec.toNat zero
    rw [u.ticket.word_toNat] at value
    exact Nat.ne_of_gt u.ticket.property.1 value

/-- Both sides of a handle. `reserved` has the id a call of `submit` took from `NEXT_TICKET` and has
not queued yet, by its caller; `jobs` what each worker thread runs; `lost` the tickets whose worker
ended without a completion. -/
structure State where
  go : Handle.State
  rust : Completion.State
  nextTicket : Nat
  reserved : Nat → Option Id
  queue : JobQueue
  jobs : List (Option WorkUnit)
  lost : List Id

inductive Act
  -- everything the Go side does by itself
  | go (a : Handle.Act)
  -- `submit` takes an id, on this handle or on another
  | reserve (i : Nat)
  | elsewhere
  | send (i : Nat) (wantsInline poisoned : Bool)
  | close
  | spawn
  | pop (i : Nat)
  | complete (i : Nat) (result : Completion.JobResult)
  | abandon (i : Nat)
  | worker (i : Nat) (weak : Bool)
  | read (n : Nat) (spent : Bool)
  | take (answer : Handle.ReadChoice)

/-- The steps of the Go side that are not exchanges with Rust. A refusal is, once the id is taken.
-/
def goAlone (reserved : Nat → Option Id) : Handle.Act → Bool
  | .thread _ (.ticket _) => false
  | .thread i (.refuse _) => (reserved i).isNone
  | .reader (.consume _ _) | .reader (.took _ _) | .reader (.takeFailed _) => false
  | _ => true

namespace State

def opened (cfg : Config) : State where
  go := .opened
  rust := .opened cfg.completion
  nextTicket := 1
  reserved := fun _ => none
  queue := .new (cfg.poolSize * 2)
  jobs := []
  lost := []

/-- `reserve_id` on `NEXT_TICKET`; none is its refusal. -/
def reserveId (s : State) : Option (Id × State) :=
  if free : 0 < s.nextTicket ∧ s.nextTicket < idCeiling then
    some (⟨s.nextTicket, free⟩, { s with nextTicket := s.nextTicket + 1 })
  else none

/-- `try_send`, and what `gusset_submit` returns to its Go caller: a refusal is `FFI_ERR`, or
`FFI_POISONED` where the latch is set by then. -/
def send (cfg : Config) (s : State) (i : Nat) (t : Id) (wantsInline poisoned : Bool) :
    Option State :=
  let answered := { s with reserved := Function.update s.reserved i none }
  match s.queue.push ⟨t, wantsInline⟩ with
  | .ok q =>
    (s.go.step cfg.handle (.thread i (.ticket t.val))).map fun go =>
      { answered with go := go, queue := q }
  | .error _ =>
    (s.go.step cfg.handle (.thread i (.refuse (if poisoned then .poisoned else .engine ffiErr)))).map
      fun go => { answered with go := go }

/-- `tr.next` runs, and if it returns a completion `drainPipe` has it. -/
def read (cfg : Config) (s : State) (n : Nat) (spent : Bool) : Option State :=
  if s.go.reader = .next then
    (s.rust.step cfg.completion (.reader n spent)).bind fun rust =>
      match rust.returned[s.rust.returned.length]? with
      | none => some { s with rust := rust }
      | some p =>
        (s.go.step cfg.handle (.reader (.consume p.ticket.toNat p.data))).map fun go =>
          { s with go := go, rust := rust }
  else none

/-- `ffi.Take`, which `drainPipe` calls for the completion it holds. -/
def take (cfg : Config) (s : State) (answer : Handle.ReadChoice) : Option State :=
  match s.go.reader with
  | .take t =>
    (s.go.step cfg.handle (.reader answer)).bind fun go =>
      (s.rust.step cfg.completion (.take (.ofNat 64 t))).map fun rust =>
        { s with go := go, rust := rust }
  | _ => none

def step (cfg : Config) (s : State) : Act → Option State
  | .go a =>
    if goAlone s.reserved a then (s.go.step cfg.handle a).map fun go => { s with go := go } else none
  | .reserve i =>
    if (s.go.threads[i]?).map Handle.Thread.pc = some .ffiSubmit ∧ s.reserved i = none then
      s.reserveId.map fun r => { r.2 with reserved := Function.update s.reserved i (some r.1) }
    else none
  | .elsewhere => s.reserveId.map Prod.snd
  | .send i wantsInline poisoned =>
    (s.reserved i).bind fun t => s.send cfg i t wantsInline poisoned
  | .close =>
    if s.go.closer = .handleClose then
      some { s with queue := { s.queue with closed := true } }
    else none
  | .spawn =>
    (s.rust.step cfg.completion .spawn).map fun rust =>
      { s with rust := rust, jobs := s.jobs ++ [none] }
  | .pop i =>
    if s.rust.workers[i]? = some .idle ∧ s.jobs[i]? = some none then
      s.queue.pop.map fun r => { s with queue := r.2, jobs := s.jobs.set i (some r.1) }
    else none
  | .complete i result =>
    (s.jobs[i]?).bind fun job => job.bind fun u =>
      (s.rust.step cfg.completion (.complete i (u.job result))).map fun rust =>
        { s with rust := rust, jobs := s.jobs.set i none }
  | .abandon i =>
    (s.jobs[i]?).bind fun job => job.map fun u =>
      { s with jobs := s.jobs.set i none, lost := s.lost ++ [u.ticket] }
  | .worker i weak =>
    (s.rust.step cfg.completion (.worker i weak)).map fun rust => { s with rust := rust }
  | .read n spent => s.read cfg n spent
  | .take answer => s.take cfg answer

/-- The runs of a handle from its open on. -/
abbrev Reaches (cfg : Config) : State → Prop :=
  Reachable (· = opened cfg) fun s t => ∃ a, s.step cfg a = some t

end State

end Gusset.System
