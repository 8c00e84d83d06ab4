import Gusset.Foundation.Census
import Gusset.Foundation.Reach
import Gusset.Foundation.Words

/-! The bytes on the completion pipe: `write_completion`, `write_record_attempt` and
`publish_completion` of any number of workers, one system call or one access to what they share a
step, beside a reader that takes bytes as it likes. -/
namespace Gusset.Writers
open Foundation

-- As Linux numbers them.
def EINTR : Nat := 4
def EAGAIN : Nat := 11
def ENOTCONN : Nat := 107

/-- The error numbers of `libc::write` that end an attempt. It never sets ENOTCONN here, whose
`ErrorKind` is that of a closed handle: the descriptor is a pipe, or in a test a connected socket.
-/
structure Errno where
  code : Nat
  ends : code ∉ [EINTR, EAGAIN, ENOTCONN]
  deriving DecidableEq, Repr

/-- The `ErrorKind` a call can return. -/
inductive Failure
  | notConnected | invalidInput | timedOut | writeZero | os (errno : Errno)
  deriving DecidableEq, Repr

/-- What `libc::write` returns: a count, EINTR, EAGAIN or another error. With EAGAIN comes whether
`TORN_WRITE_DEADLINE` has passed since the last byte went in. -/
inductive Answer
  | wrote (n : Nat) | interrupted | full (late : Bool) | failed (errno : Errno)
  deriving DecidableEq, Repr

/-- Where a worker stands in `publish_completion`. In an attempt it holds `pipe_write_lock`. -/
inductive Pc (ρ : Type)
  | idle
  | locking (record : ρ)
  | loading (record : ρ)
  | writing (record : ρ) (remaining : List Byte) (committed : Bool)
  | blocked (record : ρ)
  | poisoning
  deriving DecidableEq, Repr

/-- A call that returned: who made it, with what record, what it returned, and the bytes of the
record that the descriptor had accepted by then. -/
structure Call (ρ : Type) where
  writer : Nat
  record : ρ
  result : Except Failure Unit
  accepted : List Byte

/-- The descriptor and the flags of the handle, the bytes on the pipe, the workers. What follows
`workers` no line of the program reads: the bytes the reader has taken and the calls that returned,
oldest first. `locked` is the worker that holds the lock. -/
structure State (ρ : Type) where
  fd : Int
  closed : Bool
  poisoned : Bool
  locked : Option Nat
  pipe : List Byte
  workers : List (Pc ρ)
  taken : List Byte
  calls : List (Call ρ)

variable {ρ : Type}

def opened (fd : Nat) : State ρ := ⟨fd, false, false, none, [], [], [], []⟩

/-- Errors that `publish_completion` does not take for a close: it logs them and poisons. -/
def Failure.hard : Failure → Bool
  | .notConnected => false
  | _ => true

def hard : Except Failure Unit → Bool
  | .ok () => false
  | .error failure => failure.hard

namespace State

def goto (s : State ρ) (i : Nat) (pc : Pc ρ) : State ρ := { s with workers := s.workers.set i pc }

def unlock (s : State ρ) : State ρ := { s with locked := none }

/-- The call returns to `publish_completion`. -/
def finish (s : State ρ) (i : Nat) (record : ρ) (accepted : List Byte)
    (result : Except Failure Unit) : State ρ :=
  { s with
    workers := s.workers.set i (if hard result then .poisoning else .idle)
    calls := s.calls ++ [⟨i, record, result, accepted⟩] }

end State

variable (bytes : ρ → List Byte)

/-- The bytes of the record that an attempt has got rid of. -/
def sent (record : ρ) (remaining : List Byte) : List Byte :=
  (bytes record).take ((bytes record).length - remaining.length)

/-- One pass of the loop in `write_record_attempt`. -/
def attempt (s : State ρ) (i : Nat) (record : ρ) (remaining : List Byte) (committed : Bool)
    (answer : Answer) : Option (State ρ) :=
  if remaining.isEmpty then some (s.unlock.finish i record (sent bytes record remaining) (.ok ()))
  else
    match answer with
    | .interrupted => some s
    | .full late =>
      if !committed then some (s.unlock.goto i (.blocked record))
      else if late then
        some (s.unlock.finish i record (sent bytes record remaining) (.error .timedOut))
      else some s
    | .failed errno =>
      some (s.unlock.finish i record (sent bytes record remaining) (.error (.os errno)))
    | .wrote 0 => some (s.unlock.finish i record (sent bytes record remaining) (.error .writeZero))
    | .wrote (n + 1) =>
      if n < remaining.length then
        some ({ s with pipe := s.pipe ++ remaining.take (n + 1) }.goto i
          (.writing record (remaining.drop (n + 1)) true))
      else none

/-- One step of a worker. -/
def turn (s : State ρ) (i : Nat) (answer : Answer) : Option (State ρ) :=
  match s.workers[i]? with
  | some (.locking record) =>
    if s.locked.isNone then some ({ s with locked := some i }.goto i (.loading record)) else none
  | some (.loading record) =>
    if s.fd = -1 then some (s.unlock.finish i record [] (.error .notConnected))
    else if s.fd < 0 then some (s.unlock.finish i record [] (.error .invalidInput))
    else some (s.goto i (.writing record (bytes record) false))
  | some (.writing record remaining committed) =>
    attempt bytes s i record remaining committed answer
  | some (.blocked record) =>
    if s.closed then some (s.finish i record [] (.error .notConnected))
    else some (s.goto i (.locking record))
  | some .poisoning => some ({ s with poisoned := true }.goto i .idle)
  | _ => none

/-- What can happen next: a worker starts, publishes or goes on; `close` sets its flag; the last
reference swaps the descriptor out under the lock; the reader takes bytes. -/
inductive Act (ρ : Type)
  | spawn
  | publish (i : Nat) (record : ρ)
  | turn (i : Nat) (answer : Answer)
  | close
  | release
  | read (n : Nat)

def step (s : State ρ) : Act ρ → Option (State ρ)
  | .spawn => some { s with workers := s.workers ++ [.idle] }
  | .publish i record =>
    match s.workers[i]? with
    | some .idle => some (s.goto i (.locking record))
    | _ => none
  | .turn i answer => turn bytes s i answer
  | .close => some { s with closed := true }
  | .release => if s.locked.isNone then some { s with fd := -1 } else none
  | .read n => some { s with pipe := s.pipe.drop n, taken := s.taken ++ s.pipe.take n }

/-- A run of an open handle. -/
def Reaches : State ρ → Prop :=
  Reachable (fun s => ∃ fd, s = opened fd) fun s t => ∃ act, step bytes s act = some t

theorem follow_reaches {fd : Nat} {acts : List (Act ρ)} {t : State ρ}
    (run : follow (step bytes) (opened fd) acts = some t) : Reaches bytes t :=
  Reachable.follow (fun _ act _ went => ⟨act, went⟩) (.start ⟨fd, rfl⟩) run

end Gusset.Writers
