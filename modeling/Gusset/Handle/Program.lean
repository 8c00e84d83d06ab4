import Gusset.Handle.Ledger

/-! The calls of one handle as the Go code runs them: submit.go, wait.go, drain.go and the close
of handle.go. A step is one section under `mu`, one operation on the semaphore or on a result
channel, one atomic access, one `cgoMu` operation or one call into Rust. A section that receives
from the semaphore is cut before the receive, with `mu` held across the cut. -/
namespace Gusset.Handle
open Foundation

-- `inlineResultBytes`.
def inlineResultBytes : Nat := 4096

-- The checks on a `*Buffer` read that buffer alone, so their verdict comes with the step.
inductive Input | bytes (length : Nat) | buffer
  deriving DecidableEq, Repr

inductive Outcome
  | ticket (t : Ticket) | data (bytes : Bytes) | buffer (id : TakeId) (bytes : Bytes) | ok
  | err (e : Err)
  deriving DecidableEq, Repr

inductive Call
  | submit (input : Input) | wait (op : Op) (t : Ticket) | discard (t : Ticket) | close
  deriving DecidableEq, Repr

/-- What a submitter that gives its permit back does next. -/
inductive Refusal | err (e : Err) | closedErr | latch (e : Err)
  deriving DecidableEq, Repr

/-- What a section that still owes a receive does after it. -/
inductive After
  | outcome (op : Op) (res : CallResult) (id : TakeId)
  | raced (res : CallResult) (id : TakeId)
  | discarded (id : TakeId)
  deriving DecidableEq, Repr

/-- What a caller enters Rust for. -/
inductive Visit
  | submit
  | cancel (op : Op) (t : Ticket) (c : Nat)
  | view (op : Op) (data : Bytes) (id : TakeId)
  | free (id : TakeId) (out : Outcome)
  deriving DecidableEq, Repr

/-- Where a calling goroutine stands. -/
inductive Pc
  | closed1 (input : Input) | exited1 (input : Input) | poisoned1 (input : Input)
  | input (input : Input) | acquire
  | ctxErr | closed2 | exited2 | poisoned2 | ceiling | parked | giveBack (why : Refusal)
  | ffiSubmit | insert (t : Ticket) | release (t : Ticket) | issue (t : Ticket) | latch (e : Err)
  | claim (op : Op) (t : Ticket) | await (op : Op) (t : Ticket) (c : Nat)
  | got (op : Op) (t : Ticket) (c : Nat) (res : CallResult) | race (op : Op) (t : Ticket) (c : Nat)
  | recvLocked (t : Ticket) (after : After)
  | outcome (op : Op) (res : CallResult) (id : TakeId) | raced (res : CallResult) (id : TakeId)
  | discarded (id : TakeId) | bufClosed (data : Bytes)
  | discardClosed (t : Ticket) | discardClaim (t : Ticket)
  | enterClosed (v : Visit) | tryRLock (v : Visit) | enterPtr (v : Visit) | inside (v : Visit)
  | unlock (after : Pc)
  | closeSwap | awaitClose | answerClosed | done (out : Outcome)
  deriving DecidableEq, Repr

def Refusal.pc : Refusal → Pc
  | .err e => .done (.err e)
  | .closedErr => .answerClosed
  | .latch e => .latch e

def After.pc : After → Pc
  | .outcome op res id => .outcome op res id
  | .raced res id => .raced res id
  | .discarded id => .discarded id

-- `discardTake` and `bufFree`: an id of 0 is no buffer.
def freeThen (id : TakeId) (out : Outcome) : Pc :=
  if id = 0 then .done out else .enterClosed (.free id out)

-- Where a caller goes on when `enterCgo` answers false.
def Visit.failed : Visit → Pc
  | .submit => .giveBack (.err .closed)
  | .cancel op t c => .race op t c
  | .view .wait _ _ => .done (.err .closed)
  | .view .waitBuffer _ id => freeThen id (.err .closed)
  | .free _ out => .done out

def Call.pc : Call → Pc
  | .submit input => .closed1 input
  | .wait op t => .claim op t
  | .discard t => .discardClosed t
  | .close => .closeSwap

inductive ReaderVisit
  | take (t : Ticket)
  | binFree (id : TakeId) (t : Ticket) (held : Bool)
  | exitFree (id : TakeId) (rest : Multiset TakeId)
  deriving DecidableEq

/-- Where `drainPipe` stands. -/
inductive ReaderPc
  | next
  | take (t : Ticket) | takeLatch (t : Ticket)
  | deliver (t : Ticket) (res : CallResult) (id : TakeId) | pay (t : Ticket)
  | enterClosed (v : ReaderVisit) | tryRLock (v : ReaderVisit) | enterPtr (v : ReaderVisit)
  | inside (v : ReaderVisit) | unlock (after : ReaderPc)
  | exitClosed | exitErr | exitLocked (failed : Bool) | exitFree (ids : Multiset TakeId) | gone
  deriving DecidableEq

def ReaderPc.afterBin (t : Ticket) (held : Bool) : ReaderPc := if held then .pay t else .next

def ReaderVisit.failed : ReaderVisit → ReaderPc
  | .take t => .deliver t ⟨[], some .drainClosed⟩ 0
  | .binFree _ t held => .afterBin t held
  | .exitFree _ rest => .exitFree rest

-- What the reader's exit tells its waiters: it failed, or Close stopped it.
def waiterErr (failed : Bool) : Err := if failed then .drainStopped else .drainClosed

/-- Where the Close that won the swap stands. -/
inductive ClosePc
  | idle | rlock | cancelAll | runlock | lock | locking | unclaimed | freeing (ids : Multiset TakeId)
  | handleClose | clearPtr | unlock | join | final | drain | recv (t : Ticket) | finish | done
  deriving DecidableEq

inductive Writer | none | waiting | holding
  deriving DecidableEq, Repr

structure Thread where
  ctx : Bool
  pc : Pc
  deriving DecidableEq, Repr

/-- One handle and the goroutines on it. `mu` is true only while a section holds it across a
receive; `readers` and `writer` are `cgoMu`; `ptr` says that `s.ptr` is not nil. -/
structure State where
  sh : Shared
  hist : History
  threads : List Thread
  reader : ReaderPc
  closer : ClosePc
  mu : Bool
  readers : Nat
  writer : Writer
  ptr : Bool
  poisoned : Bool
  drainDone : Bool
  closeDone : Bool
  closeErr : Option Err

/-- What the environment decides in a caller's step: which ready branch a select takes, and what
the caller's context, its input and Rust answer. -/
inductive Choice | go | ctx | drained | ticket (t : Ticket) | refuse (e : Err)
  deriving DecidableEq, Repr

inductive ReadChoice
  | go | consume (t : Ticket) (inline : Option Bytes) | fail
  | took (data : Bytes) (id : TakeId) | takeFailed (e : Err) | free (id : TakeId)
  deriving DecidableEq, Repr

inductive CloseChoice | go | free (id : TakeId) | result (e : Option Err) | ticket (t : Ticket)
  deriving DecidableEq, Repr

inductive Act
  | call (c : Call) | expire (i : Nat) | thread (i : Nat) (c : Choice) | reader (c : ReadChoice)
  | closer (c : CloseChoice)
  deriving DecidableEq, Repr

namespace State

def opened : State where
  sh := .opened
  hist := .empty
  threads := []
  reader := .next
  closer := .idle
  mu := false
  readers := 0
  writer := .none
  ptr := true
  poisoned := false
  drainDone := false
  closeDone := false
  closeErr := none

-- A receive on the semaphore.
def receiveSem (s : State) : Option State :=
  if 0 < s.sh.sem then some { s with sh := { s.sh with sem := s.sh.sem - 1 } } else none

def giveBack (s : State) (t : Ticket) : State := { s with hist := s.hist.giveBack t }

/-- submitInput, but for `enterCgo`. -/
def submitStep (cfg : Config) (s : State) (ctx : Bool) : Pc → Choice → Option (State × Pc)
  | .closed1 input, .go => some (s, if s.sh.closed then .answerClosed else .exited1 input)
  | .exited1 input, .go => some (s, if s.sh.drainExited then .answerClosed else .poisoned1 input)
  | .poisoned1 input, .go => some (s, if s.poisoned then .done (.err .poisoned) else .input input)
  | .input (.bytes n), .go =>
    some (s, if inlineResultBytes < n then .done (.err .input) else .acquire)
  | .input .buffer, .go => some (s, .acquire)
  | .input _, .refuse e => some (s, .done (.err e))
  | .acquire, .go =>
    if s.sh.sem < cfg.poolSize then
      some ({ s with sh := { s.sh with sem := s.sh.sem + 1 } }, .ctxErr)
    else none
  | .acquire, .ctx => if ctx then some (s, .done (.err .ctx)) else none
  | .acquire, .drained => if s.drainDone then some (s, .answerClosed) else none
  | .ctxErr, .go => some (s, if ctx then .giveBack (.err .ctx) else .closed2)
  | .closed2, .go => some (s, if s.sh.closed then .giveBack .closedErr else .exited2)
  | .exited2, .go => some (s, if s.sh.drainExited then .giveBack .closedErr else .poisoned2)
  | .poisoned2, .go =>
    some (s, if s.poisoned then .giveBack (.err .poisoned)
      else if 0 < cfg.maxUncollected then .ceiling else .enterClosed .submit)
  | .ceiling, .go =>
    if s.mu then none
    else if cfg.maxUncollected ≤ s.sh.completed.len ∧ ¬ s.sh.closed ∧ ¬ s.sh.drainExited then
      some (s, .parked)
    else if s.sh.closed ∨ s.sh.drainExited then some (s, .giveBack .closedErr)
    else some ({ s with sh := if s.sh.completed.len + 1 < cfg.maxUncollected
        then s.sh.notifyUncollectedLocked else s.sh }, .enterClosed .submit)
  | .parked, .go =>
    if s.sh.uncollected then some ({ s with sh := { s.sh with uncollected := false } }, .ceiling)
    else none
  | .parked, .ctx => if ctx then some (s, .giveBack (.err .tooManyUncollected)) else none
  | .parked, .drained => if s.drainDone then some (s, .giveBack .closedErr) else none
  | .giveBack why, .go => s.receiveSem.map fun s => (s, why.pc)
  | .ffiSubmit, .ticket t =>
    if t ∈ s.hist.accepted then none else some ({ s with hist := s.hist.accept t }, .insert t)
  | .ffiSubmit, .refuse e =>
    some (s, .unlock (.giveBack (if e = .panic ∨ e = .poisoned then .latch e else .err e)))
  | .insert t, .go =>
    if s.mu then none
    else some ({ s with sh := (s.sh.insertLocked t).2 },
      .unlock (if (s.sh.insertLocked t).1 then .release t else .issue t))
  | .release t, .go => s.receiveSem.map fun s => (s.giveBack t, .issue t)
  | .issue t, .go => some ({ s with hist := s.hist.ret t }, .done (.ticket t))
  | .latch e, .go => some ({ s with poisoned := true }, .done (.err e))
  | _, _ => none

-- A section that ended a claim goes on under `mu` when it still has to receive.
def settle (s : State) (t : Ticket) (owes : Bool) (after : After) : State × Pc :=
  if owes then ({ s with mu := true }, .recvLocked t after) else (s, after.pc)

/-- wait, waitBuffer, waitInternal and discard, but for `enterCgo`. -/
def waitStep (cfg : Config) (s : State) (ctx : Bool) : Pc → Choice → Option (State × Pc)
  | .claim op t, .go =>
    if s.mu then none
    else match s.sh.claimLocked t with
      | (.done res id owes, sh) =>
        some (settle { s with sh := sh, hist := (s.hist.hand t ⟨.wait op, res, id⟩).spend t } t owes
          (.outcome op res id))
      | (.refused e, sh) => some ({ s with sh := sh }, .done (.err e))
      | (.live, sh) =>
        some ({ s with sh := (sh.registerLocked t).2 }, .await op t (sh.registerLocked t).1)
  | .await op t c, .go =>
    match s.sh.chan c with
    | some res => some ({ s with sh := s.sh.receive c }, .got op t c res)
    | none => none
  | .await op t c, .ctx => if ctx then some (s, .enterClosed (.cancel op t c)) else none
  | .got op t c res, .go =>
    if s.mu then none
    else
      let r := (s.sh.recycleWaitChanLocked cfg.poolSize c).collectLocked t
      some (settle { s with sh := r.2.2, hist := (s.hist.hand t ⟨.wait op, res, r.1⟩).spend t } t
        r.2.1 (.outcome op res r.1))
  | .race op t c, .go =>
    if s.mu then none
    else match s.sh.chan c with
      | some res =>
        let r := ((s.sh.receive c).recycleWaitChanLocked cfg.poolSize c).collectLocked t
        some (settle { s with sh := r.2.2, hist := (s.hist.hand t ⟨.wait op, res, r.1⟩).spend t } t
          r.2.1 (.raced res r.1))
      | none =>
        some ({ s with sh := s.sh.detachLocked cfg.poolSize t c, hist := s.hist.spend t },
          .done (.err .ctx))
  | .recvLocked t after, .go =>
    s.receiveSem.map fun s => ({ s.giveBack t with mu := false }, after.pc)
  | .outcome op res id, .go =>
    some (s, match res.err with
      | some e => freeThen id (.err e)
      | none =>
        if id ≠ 0 then .enterClosed (.view op res.data id)
        else match op with
          | .wait => .done (.data res.data)
          | .waitBuffer => .bufClosed res.data)
  | .bufClosed data, .go =>
    some (s, .done (if s.sh.closed then .err .closed else .buffer 0 data))
  | .raced res id, .go =>
    some (s, freeThen id (.err (if res.err = some .panic then .panic else .ctx)))
  | .discardClosed t, .go => some (s, if s.sh.closed then .answerClosed else .discardClaim t)
  | .discardClaim t, .go =>
    if s.mu then none
    else match s.sh.claimLocked t with
      | (.done res id owes, sh) =>
        some (settle { s with sh := sh, hist := (s.hist.hand t ⟨.discard, res, id⟩).spend t } t owes
          (.discarded id))
      | (.refused e, sh) => some ({ s with sh := sh }, .done (.err e))
      | (.live, sh) =>
        some ({ s with sh := sh.abandonLocked t, hist := s.hist.spend t }, .done .ok)
  | .discarded id, .go => some (s, freeThen id .ok)
  | _, _ => none

/-- enterCgo, what is done behind it, and the RUnlock. -/
def cgoStep (s : State) : Pc → Choice → Option (State × Pc)
  | .enterClosed v, .go => some (s, if s.sh.closed then v.failed else .tryRLock v)
  | .tryRLock v, .go =>
    if s.writer = .none then some ({ s with readers := s.readers + 1 }, .enterPtr v)
    else some (s, v.failed)
  | .enterPtr v, .go => some (s, if s.sh.closed ∨ ¬ s.ptr then .unlock v.failed else .inside v)
  | .inside .submit, .go =>
    some (s, if s.poisoned then .unlock (.giveBack (.err .poisoned)) else .ffiSubmit)
  | .inside (.cancel op t c), .go => some (s, .unlock (.race op t c))
  | .inside (.view .wait data id), .go => some (s, .unlock (freeThen id (.data data)))
  | .inside (.view .waitBuffer data id), .go => some (s, .unlock (.done (.buffer id data)))
  | .inside (.free _ out), .go => some (s, .unlock (.done out))
  | .unlock after, .go => some ({ s with readers := s.readers - 1 }, after)
  | _, _ => none

/-- Close up to its swap, for a loser and for the winner, whose body is `closeStep`; both return
once `closeDone` is closed. -/
def closeCallStep (s : State) : Pc → Choice → Option (State × Pc)
  | .closeSwap, .go =>
    if s.sh.closed then some (s, .awaitClose)
    else some ({ s with sh := { s.sh with closed := true }, closer := .rlock }, .awaitClose)
  | .awaitClose, .go =>
    if s.closeDone then
      some (s, .done (match s.closeErr with
        | some e => .err e
        | none => .ok))
    else none
  | .answerClosed, .go => some (s, .done (.err s.sh.closedErr))
  | _, _ => none

def threadStep (cfg : Config) (s : State) (ctx : Bool) (pc : Pc) (c : Choice) :
    Option (State × Pc) :=
  (submitStep cfg s ctx pc c).or <| (waitStep cfg s ctx pc c).or <| (cgoStep s pc c).or <|
    closeCallStep s pc c

/-- drainPipe. `tr.next` returns the completion of some accepted ticket, once each. -/
def readerStep (s : State) : ReaderPc → ReadChoice → Option (State × ReaderPc)
  | .next, .consume t inline =>
    if t ∈ s.hist.accepted ∧ t ∉ s.hist.consumed then
      some ({ s with hist := s.hist.consume t }, match inline with
        | some data => .deliver t ⟨data, none⟩ 0
        | none => .enterClosed (.take t))
    else none
  | .next, .fail => some (s, .exitClosed)
  | .take t, .took data id => some (s, .unlock (.deliver t ⟨data, none⟩ id))
  | .take t, .takeFailed e =>
    some (s, if e = .panic then .takeLatch t else .unlock (.deliver t ⟨[], some e⟩ 0))
  | .takeLatch t, .go =>
    some ({ s with poisoned := true }, .unlock (.deliver t ⟨[], some .panic⟩ 0))
  | .deliver t res id, .go =>
    if s.mu ∨ ¬ s.sh.sendReady t then none
    else
      let r := s.sh.deliver t res id
      some ({ s with sh := r.2, hist := s.hist.route t res id r.1 }, match r.1 with
        | .binned held => if id = 0 then .afterBin t held else .enterClosed (.binFree id t held)
        | .sent => .next
        | .stored held => .afterBin t held)
  | .pay t, .go => s.receiveSem.map fun s => (s.giveBack t, .next)
  | .enterClosed v, .go => some (s, if s.sh.closed then v.failed else .tryRLock v)
  | .tryRLock v, .go =>
    if s.writer = .none then some ({ s with readers := s.readers + 1 }, .enterPtr v)
    else some (s, v.failed)
  | .enterPtr v, .go => some (s, if s.sh.closed ∨ ¬ s.ptr then .unlock v.failed else .inside v)
  | .inside (.take t), .go => some (s, .take t)
  | .inside v, .go => some (s, .unlock v.failed)
  | .unlock after, .go => some ({ s with readers := s.readers - 1 }, after)
  | .exitClosed, .go => some (s, if s.sh.closed then .exitLocked false else .exitErr)
  | .exitErr, .go =>
    some ({ s with sh := { s.sh with drainErr := true } }, .exitLocked true)
  | .exitLocked failed, .go =>
    if s.mu ∨ ¬ s.sh.stopReady then none
    else
      let r := s.sh.stopReading (waiterErr failed)
      some ({ s with sh := r.2, hist := if s.sh.closed then s.hist else s.hist.dropAll s.sh },
        .exitFree r.1)
  | .exitFree ids, .free id =>
    if id ∈ ids then some (s, .enterClosed (.exitFree id (ids.erase id))) else none
  | .exitFree ids, .go => if ids = 0 then some ({ s with drainDone := true }, .gone) else none
  | _, _ => none

/-- The body of close, after its swap. -/
def closeStep (s : State) : ClosePc → CloseChoice → Option (State × ClosePc)
  | .rlock, .go =>
    if s.writer = .none then some ({ s with readers := s.readers + 1 }, .cancelAll) else none
  | .cancelAll, .go => some (s, .runlock)
  | .runlock, .go => some ({ s with readers := s.readers - 1 }, .lock)
  | .lock, .go => some ({ s with writer := .waiting }, .locking)
  | .locking, .go =>
    if s.readers = 0 then some ({ s with writer := .holding }, .unclaimed) else none
  | .unclaimed, .go =>
    if s.mu then none
    else some ({ s with sh := s.sh.takeUnclaimedLocked.2, hist := s.hist.dropAll s.sh },
      .freeing s.sh.takeUnclaimedLocked.1)
  | .freeing ids, .free id => if id ∈ ids then some (s, .freeing (ids.erase id)) else none
  | .freeing ids, .go => if ids = 0 then some (s, .handleClose) else none
  | .handleClose, .result e => some ({ s with closeErr := e }, .clearPtr)
  | .clearPtr, .go => some ({ s with ptr := false }, .unlock)
  | .unlock, .go => some ({ s with writer := .none }, .join)
  | .join, .go => if s.drainDone then some (s, .final) else none
  | .final, .go =>
    if s.mu then none
    else some ({ s with sh := { s.sh.takeUnclaimedLocked.2 with abandoned := ∅ }
                        hist := s.hist.dropAll s.sh, mu := true }, .drain)
  | .drain, .ticket t =>
    if t ∈ s.sh.semTickets then
      some ({ s with sh := { s.sh with semTickets := s.sh.semTickets.erase t } }, .recv t)
    else none
  | .drain, .go =>
    if s.sh.semTickets = ∅ then some ({ s with mu := false }, .finish) else none
  | .recv t, .go => s.receiveSem.map fun s => (s.giveBack t, .drain)
  | .finish, .go => some ({ s with closeDone := true }, .done)
  | _, _ => none

def step (cfg : Config) (s : State) : Act → Option State
  | .call c => some { s with threads := s.threads ++ [⟨false, c.pc⟩] }
  | .expire i =>
    (s.threads[i]?).map fun th => { s with threads := s.threads.set i { th with ctx := true } }
  | .thread i c =>
    (s.threads[i]?).bind fun th =>
      (threadStep cfg s th.ctx th.pc c).map fun r =>
        { r.1 with threads := r.1.threads.set i { th with pc := r.2 } }
  | .reader c => (readerStep s s.reader c).map fun r => { r.1 with reader := r.2 }
  | .closer c => (closeStep s s.closer c).map fun r => { r.1 with closer := r.2 }

end State

end Gusset.Handle
