import Gusset.Foundation.Reach
import Gusset.Logs.Ring

/-! `FfiStatus` across the boundary: `ffi_guard_code`, the outcome of an export, and
`statusToError` on the Go side, with the messages as boxes on the Rust heap. -/
namespace Gusset.Boundary
open Foundation Utf8

abbrev Text := List UInt8

inductive Code | ok | err | panic | poisoned | badArg
  deriving DecidableEq, Repr

/-- The boxes that status messages live in. `invalid` is set when something else is freed. -/
structure Heap where
  next : Nat
  live : Nat → Option Text
  invalid : Bool

/-- A null `msg` or `file` is `none`. -/
structure FfiStatus where
  code : Code
  msg : Option Nat
  msgLen : Nat
  file : Option Text
  line : Nat
  deriving DecidableEq, Repr

namespace Heap

def box (h : Heap) (text : Text) : Nat × Heap :=
  (h.next, { h with next := h.next + 1, live := Function.update h.live h.next (some text) })

def free (h : Heap) (at_ length : Nat) : Heap :=
  if (h.live at_).map List.length = some length then
    { h with live := Function.update h.live at_ none }
  else { h with invalid := true }

end Heap

namespace FfiStatus

def ok : FfiStatus := ⟨.ok, none, 0, none, 0⟩

def newErr (h : Heap) (code : Code) (msg : Text) (file : Option Text) (line : Nat) :
    FfiStatus × Heap :=
  if msg.isEmpty then (⟨code, none, 0, file, line⟩, h)
  else
    let (at_, h) := h.box msg
    (⟨code, some at_, msg.length, file, line⟩, h)

def freeMsg (h : Heap) (st : FfiStatus) : Heap :=
  match st.msg with
  | some at_ => if 0 < st.msgLen then h.free at_ st.msgLen else h
  | none => h

end FfiStatus

/-- A status the caller may have left out, and the heap. -/
abbrev Cell := Option FfiStatus × Heap

/-- `ptr::write` of a new status, where there is one. -/
def write (cell : Cell) (new : Heap → FfiStatus × Heap) : Cell :=
  match cell with
  | (some _, h) => (some (new h).1, (new h).2)
  | (none, h) => (none, h)

/-- `FfiStatus::overwrite`: the new status is built first, then the old message is freed. -/
def overwrite (cell : Cell) (new : Heap → FfiStatus × Heap) : Cell :=
  match cell with
  | (some st, h) => (some (new h).1, st.freeMsg (new h).2)
  | (none, h) => (none, h)

def maxPanicPayloadBytes : Nat := 32 * 1024

def truncated : Text := encode "... [truncated]".toList

def truncatePayload (s : Text) : Text :=
  if maxPanicPayloadBytes < s.length then
    s.take (Logs.lastBoundary s maxPanicPayloadBytes) ++ truncated
  else s

/-- The codes the crate builds an `FfiError` with. -/
inductive ErrCode | err | badArg | panic
  deriving DecidableEq, Repr

def ErrCode.code : ErrCode → Code
  | .err => .err
  | .badArg => .badArg
  | .panic => .panic

/-- What the guarded closure does. `boxed` says whether the message of a panic could be allocated.
-/
inductive Outcome
  | ok
  | err (code : ErrCode) (msg : Text) (file : Option Text) (line : Nat)
  | panic (payload : Text) (file : Option Text) (line : Nat) (boxed : Bool)

def ffiGuardCode (cell : Cell) (o : Outcome) : Code × Cell :=
  let cell := write cell fun h => (.ok, h)
  match o with
  | .ok => (.ok, cell)
  | .err code msg file line =>
    (code.code, write cell fun h => FfiStatus.newErr h code.code (truncatePayload msg) file line)
  | .panic payload file line boxed =>
    (.panic, write cell fun h =>
      if boxed then FfiStatus.newErr h .panic (truncatePayload payload) file line
      else (⟨.panic, none, 0, file, line⟩, h))

/-- The exports by how they report: `gusset_handle_open` and `gusset_handle_close`; those that end
in `handle_outcome`; `gusset_submit` and `gusset_buf_alloc`, which refuse a poisoned handle. -/
inductive Kind | opening | plain | checked
  deriving DecidableEq, Repr

/-- A call of an export: the arguments it refuses before and after it looks at the latch, what its
closure does, and whether another thread poisons the handle meanwhile. -/
structure Request where
  kind : Kind
  early : Option Text
  late : Option Text
  outcome : Outcome
  latched : Bool

def handlePoisoned : Text := encode "handle is poisoned".toList

def refuse (cell : Cell) (code : Code) (msg : Text) : Cell :=
  write cell fun h => FfiStatus.newErr h code msg none 0

/-- `handle_outcome`, with `poison_on_panic`. -/
def handleOutcome (poisoned : Bool) (code : Code) (cell : Cell) : Code × Bool × Cell :=
  (code, poisoned || code = .panic, cell)

def poisonCheckedOutcome (poisoned : Bool) (code : Code) (cell : Cell) : Code × Bool × Cell :=
  match code with
  | .ok => (.ok, poisoned, cell)
  | .panic => (.panic, true, cell)
  | code =>
    if poisoned then
      (.poisoned, poisoned, overwrite cell fun h =>
        FfiStatus.newErr h .poisoned handlePoisoned none 0)
    else (code, poisoned, cell)

/-- The code an export returns, the latch, and the status it leaves. -/
def run (poisoned : Bool) (cell : Cell) (r : Request) : Code × Bool × Cell :=
  match r.early with
  | some msg => (.badArg, poisoned, refuse cell .badArg msg)
  | none =>
    if r.kind = .checked ∧ poisoned = true then
      (.poisoned, poisoned, refuse cell .poisoned handlePoisoned)
    else
      match r.late with
      | some msg => (.badArg, poisoned, refuse cell .badArg msg)
      | none =>
        let (code, cell) := ffiGuardCode cell r.outcome
        let poisoned := poisoned || r.latched
        match r.kind with
        | .opening => (code, poisoned, cell)
        | .plain => handleOutcome poisoned code cell
        | .checked => poisonCheckedOutcome poisoned code cell

/-- `ffi.Error`. -/
structure Error where
  code : Code
  msg : Text
  file : Text
  line : Nat
  deriving DecidableEq, Repr

def reportsOk : Text :=
  encode "export returned an error code but its status reports FFI_OK".toList

-- What `GoBytes` copies of the message.
def goMessage (st : FfiStatus) (h : Heap) : Text :=
  match st.msg with
  | some at_ => ((h.live at_).getD []).take (min st.msgLen 65536)
  | none => []

def statusToError (st : FfiStatus) (h : Heap) : Error × Heap :=
  if st.code = .ok then (⟨.err, reportsOk, [], 0⟩, st.freeMsg h)
  else (⟨st.code, goMessage st h, (st.file.getD []).take 4096, st.line⟩, st.freeMsg h)

/-- A call that Go made, and what came back. -/
structure Called where
  request : Request
  code : Code
  error : Option Error

structure World where
  poisoned : Bool
  heap : Heap
  calls : List Called

def World.new : World := ⟨false, ⟨0, fun _ => none, false⟩, []⟩

inductive Act
  | call (r : Request)
  | latch

/-- What Go does with what a call left in its status. -/
def received (w : World) (r : Request) : Code × Bool × Cell → World
  | (code, poisoned, some st, h) =>
    if code = .ok then ⟨poisoned, h, w.calls ++ [⟨r, code, none⟩]⟩
    else ⟨poisoned, (statusToError st h).2, w.calls ++ [⟨r, code, some (statusToError st h).1⟩]⟩
  | (_, poisoned, none, h) => ⟨poisoned, h, w.calls⟩

/-- One call from Go, with a zeroed status of its own, or a worker that latches. -/
def step (w : World) : Act → World
  | .latch => { w with poisoned := true }
  | .call r => received w r (run w.poisoned (some .ok, w.heap) r)

def Reaches : World → Prop :=
  Reachable (· = World.new) fun w u => ∃ act, step w act = u

end Gusset.Boundary
