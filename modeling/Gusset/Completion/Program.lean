import Gusset.Foundation.Census
import Gusset.Foundation.GoMap
import Gusset.Foundation.Reach
import Gusset.Ring.Memory

/-! From a finished job to the reader: `Handle::complete` on the worker threads, `next` on the Go
reader, with the ring, the pipe, the waiting flag, the overflow counter and the results between
them. One step is one atomic access, one locked section or one system call. -/
namespace Gusset.Completion
open Foundation Wire Gusset.Ring

inductive CancelReason | explicit | deadlineExceeded
  deriving DecidableEq, Repr

inductive JobResult
  | ok (data : List Byte)
  | buffer (id : Word)
  | err (msg : String)
  | panic (msg : String) (file : Option String) (line : BitVec 32)
  | cancelled (reason : CancelReason)
  deriving DecidableEq

/-- The arguments of a call of `complete`. `reserve_id` issues tickets from 1 up to `2 ^ 63`. -/
structure Job where
  ticket : Word
  result : JobResult
  wantsInline : Bool
  low : ticket.toNat < 2 ^ 63
  issued : ticket ≠ 0

theorem Job.same_iff (j k : Job) :
    (j.ticket = k.ticket ∧ j.result = k.result ∧ j.wantsInline = k.wantsInline) ↔ j = k := by
  cases j
  cases k
  rw [Job.mk.injEq]

instance : DecidableEq Job := fun j k => decidable_of_iff _ (j.same_iff k)

/-- What is fixed once a handle is open: whether inline records fit the pipe, the ring if one is
attached, and how many bytes the pipe holds. -/
structure Config where
  endian : Endian
  ring : Option Capacity
  inlineOk : Bool
  pipeBytes : Nat

-- `len(tr.buf)`.
def bufBytes : Nat := 512

namespace Job

def bare (j : Job) : Record := ⟨j.ticket, none, j.low, Record.short_none⟩

/-- The record `complete` builds first: inline for a small success whose caller asked for it. -/
def record (cfg : Config) (j : Job) : Record :=
  match j.result with
  | .ok d =>
    if fits : j.wantsInline ∧ (cfg.inlineOk ∨ cfg.ring.isSome) ∧ d.length ≤ inlineResultMax then
      ⟨j.ticket, some d, j.low, by
        rintro _ ⟨⟩
        exact fits.2.2⟩
    else j.bare
  | _ => j.bare

/-- An inline record the pipe was not sized for. -/
def demoted (cfg : Config) (j : Job) : Prop := (j.record cfg).data ≠ none ∧ cfg.inlineOk = false

instance (cfg : Config) (j : Job) : Decidable (j.demoted cfg) :=
  inferInstanceAs (Decidable (_ ∧ _))

/-- The record of a call that found the ring full. -/
def spilled (cfg : Config) (j : Job) : Record := if j.demoted cfg then j.bare else j.record cfg

end Job

/-- Where a worker stands in `complete`. -/
inductive Worker
  | idle
  | start (j : Job)
  -- `publish_completion` with no ring attached
  | write (j : Job)
  | publish (j : Job) (p : Producer)
  -- `take_waiter`: its load, then its swap
  | load
  | swap
  | token
  -- `try_publish` answered false
  | full (j : Job)
  | spill (j : Job)
  | note
  deriving DecidableEq

/-- Where the reader stands in `next`, `waitRing`, `fillMode` and `nextPipe`. -/
inductive ReaderPc
  | next
  | pop (k : Consumer)
  | parse
  | pending
  | drain (before : Nat)
  | poll (i : Nat)
  | pollOverflow (i : Nat)
  | announce
  | recheck
  | recheckOverflow
  | park
  | retract (failed : Bool)
  -- `nextPipe`
  | parsePipe (failed : Bool)
  | fill
  -- `next` returned an error, which ends `drainPipe`
  | failed
  deriving DecidableEq

/-- The ticketReader. `held` is `buf[start:end]`. -/
structure Reader where
  pc : ReaderPc
  start : Nat
  held : List Byte
  head : Word
  tokensOwed : Nat
  overflowSeen : Word
  -- `lastTicket` is not zero
  stamped : Bool

/-- The shared memory, the threads and, below them, what has happened so far: the calls of
`complete`, the records whose position was claimed, what the ring, the pipe and `next` passed on,
and the tickets `take` moved out. `taken` says that a worker took the reader's flag in this park. -/
structure State where
  mem : Memory
  waiting : Bool
  overflow : Word
  pipe : List Byte
  results : GoMap Word JobResult
  workers : List Worker
  reader : Reader
  begun : List Job
  log : List Record
  popped : List Popped
  sent : List Record
  parsed : Nat
  returned : List Popped
  takes : List Word
  taken : Bool

inductive Act
  | spawn
  | complete (i : Nat) (j : Job)
  | worker (i : Nat) (weak : Bool)
  -- `n` bytes come from a read that finds some; `spent` ends a spin at its next look at the clock
  | reader (n : Nat) (spent : Bool)
  | take (t : Word)
  deriving DecidableEq

namespace State

def opened (cfg : Config) : State where
  mem := .new
  waiting := false
  overflow := 0
  pipe := []
  results := ⟨∅, fun _ => .err ""⟩
  workers := []
  reader := ⟨if cfg.ring.isSome then .next else .parsePipe false, 0, [], 0, 0, 0, false⟩
  begun := []
  log := []
  popped := []
  sent := []
  parsed := 0
  returned := []
  takes := []
  taken := false

/-- `write_completion`: one write of a whole record, tried again while the pipe is full. -/
def writeCompletion (cfg : Config) (s : State) (i : Nat) (r : Record) (after : Worker) : State :=
  if s.pipe.length + r.size ≤ cfg.pipeBytes then
    { s with
      pipe := s.pipe ++ r.encode cfg.endian, sent := s.sent ++ [r]
      workers := s.workers.set i after }
  else s

/-- The results with the outcome of a job added, if it does not travel in its record. -/
def insertResult (s : State) (j : Job) (stored : Prop) [Decidable stored] : GoMap Word JobResult :=
  if stored then s.results.insert j.ticket j.result else s.results

/-- What `complete` does once `try_publish` has returned. -/
def published (j : Job) : Producer → Worker
  | .done true => .load
  | .done false => .full j
  | p => .publish j p

def workerStep (cfg : Config) (s : State) (i : Nat) (weak : Bool) : Option State :=
  match s.workers[i]? with
  | some (.start j) =>
    let results := s.insertResult j ((j.record cfg).data = none)
    match cfg.ring with
    | none => some { s with results := results, workers := s.workers.set i (.write j) }
    | some _ =>
      some { s with
        results := results, workers := s.workers.set i (.publish j (.load (j.record cfg))) }
  | some (.write j) => some (s.writeCompletion cfg i (j.record cfg) .idle)
  | some (.publish j p) =>
    cfg.ring.bind fun c =>
      (p.step cfg.endian c s.mem s.log.length weak).map fun r =>
        { s with
          mem := r.1, log := s.log ++ r.2.2.toList, workers := s.workers.set i (published j r.2.1) }
  | some .load =>
    some { s with workers := s.workers.set i (if s.waiting then .swap else .idle) }
  | some .swap =>
    some { s with
      waiting := false, taken := s.taken || s.waiting
      workers := s.workers.set i (if s.waiting then .token else .idle) }
  | some .token => some (s.writeCompletion cfg i .token .idle)
  | some (.full j) =>
    some { s with
      results := s.insertResult j (j.demoted cfg), workers := s.workers.set i (.spill j) }
  | some (.spill j) => some (s.writeCompletion cfg i (j.spilled cfg) .note)
  | some .note =>
    some { s with overflow := s.overflow + 1, workers := s.workers.set i .idle }
  | _ => none

/-- A read's outcome: how many bytes, or the end of file an empty destination reads as. -/
inductive Filled
  | blocked
  | bytes (n : Nat)
  | eof
  deriving DecidableEq

/-- `readOnce` into the buffer behind the unread bytes, which `fillMode` moved to its front. -/
def readOnce (s : State) (now : Bool) (n : Nat) : Filled :=
  if bufBytes ≤ s.reader.held.length then .eof
  else if s.pipe = [] then if now then .bytes 0 else .blocked
  else .bytes (max 1 (min n (min s.pipe.length (bufBytes - s.reader.held.length))))

/-- `fillMode` once its read has returned `n` bytes. -/
def filled (s : State) (n : Nat) (pc : ReaderPc) : State :=
  { s with
    pipe := s.pipe.drop n
    reader := { s.reader with start := 0, held := s.reader.held ++ s.pipe.take n, pc := pc } }

def goto (s : State) (pc : ReaderPc) : State := { s with reader := { s.reader with pc := pc } }

def overflowPending (s : State) : Bool := 0 < (s.overflow - s.reader.overflowSeen).toInt

/-- `waitRing` polls only after a first ticket. -/
def waitRing (s : State) : ReaderPc := if s.reader.stamped then .poll 0 else .announce

/-- What `parseBuffered` found is consumed. -/
def consume (s : State) (size : Nat) : State :=
  { s with
    parsed := s.parsed + 1
    reader := { s.reader with
      start := s.reader.start + size, held := s.reader.held.drop size } }

/-- `next` returns a completion, and is called again. -/
def deliver (s : State) (pc : ReaderPc) (p : Popped) : State :=
  { s with
    returned := s.returned ++ [p]
    reader := { s.reader with stamped := true, pc := pc } }

def readerStep (cfg : Config) (c : Capacity) (s : State) (n : Nat) (spent : Bool) : Option State :=
  match s.reader.pc with
  | .next => some (s.goto (if ringReady c s.mem s.reader.head then .pop .word else .parse))
  | .pop k =>
    (k.step cfg.endian c s.mem s.reader.head).map fun r =>
      let t := { s with
        mem := r.1, popped := s.popped ++ r.2.2.2.toList
        reader := { s.reader with head := r.2.1, pc := .pop r.2.2.1 } }
      match r.2.2.2 with
      | some p => t.deliver .next p
      | none => t
  | .parse =>
    match parseBuffered cfg.endian s.reader.held with
    | .none => some (s.goto .pending)
    | .corrupt _ => some (s.goto .failed)
    | .whole ticket data size =>
      let t := s.consume size
      if ticket = 0 ∧ data = none then
        some { t with reader := { t.reader with
          tokensOwed := t.reader.tokensOwed - 1, pc := .next } }
      else
        some (State.deliver { t with reader := { t.reader with
          overflowSeen := t.reader.overflowSeen + 1 } } .next ⟨ticket, data⟩)
  | .pending =>
    if s.overflowPending ∨ 0 < s.reader.tokensOwed then
      some (s.goto (.drain (s.reader.start + s.reader.held.length)))
    else some (s.goto s.waitRing)
  | .drain before =>
    match s.readOnce true n with
    | .blocked => none
    | .eof => some (s.filled 0 .failed)
    | .bytes m =>
      some (s.filled m (if s.reader.held.length + m = before then s.waitRing else .next))
  | .poll i => some (s.goto (if ringReady c s.mem s.reader.head then .next else .pollOverflow i))
  | .pollOverflow i =>
    if s.overflowPending then some (s.goto .next)
    else some (s.goto (if i % 8 = 7 ∧ spent then .announce else .poll (i + 1)))
  | .announce => some { s.goto .recheck with waiting := true, taken := false }
  | .recheck =>
    some (s.goto (if ringReady c s.mem s.reader.head then .retract false else .recheckOverflow))
  | .recheckOverflow => some (s.goto (if s.overflowPending then .retract false else .park))
  | .park =>
    match s.readOnce false n with
    | .blocked => none
    | .eof => some (s.filled 0 (.retract true))
    | .bytes m => some (s.filled m (.retract false))
  | .retract failed =>
    let t := if s.waiting then s
      else { s with reader := { s.reader with tokensOwed := s.reader.tokensOwed + 1 } }
    some { t.goto (if failed then .failed else .next) with waiting := false, taken := false }
  | _ => none

/-- `nextPipe`, the reader of a handle with no ring. -/
def pipeReaderStep (cfg : Config) (s : State) (n : Nat) : Option State :=
  match s.reader.pc with
  | .parsePipe failed =>
    match parseBuffered cfg.endian s.reader.held with
    | .none => some (s.goto (if failed then .failed else .fill))
    | .corrupt _ => some (s.goto .failed)
    | .whole ticket data size => some ((s.consume size).deliver (.parsePipe false) ⟨ticket, data⟩)
  | .fill =>
    match s.readOnce false n with
    | .blocked => none
    | .eof => some (s.filled 0 (.parsePipe true))
    | .bytes m => some (s.filled m (.parsePipe false))
  | _ => none

def step (cfg : Config) (s : State) : Act → Option State
  | .spawn => some { s with workers := s.workers ++ [.idle] }
  | .complete i j =>
    if s.workers[i]? = some .idle ∧ ∀ k ∈ s.begun, k.ticket ≠ j.ticket then
      some { s with workers := s.workers.set i (.start j), begun := s.begun ++ [j] }
    else none
  | .worker i weak => s.workerStep cfg i weak
  | .reader n spent =>
    match cfg.ring with
    | some c => s.readerStep cfg c n spent
    | none => s.pipeReaderStep cfg n
  | .take t =>
    match s.results.lookup t with
    | some _ => some { s with results := s.results.erase t, takes := s.takes ++ [t] }
    | none => some s

end State

end Gusset.Completion
