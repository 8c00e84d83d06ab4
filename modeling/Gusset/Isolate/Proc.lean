import Gusset.Foundation.Reach
import Gusset.Foundation.Census
import Gusset.Isolate.Errors

/-! `Proc`, the host's half: every section of `p.mu` and every select is one step, and the calls,
the reader and the worker's exit take their steps in any order. -/
namespace Gusset.Isolate
open Foundation

/-- A response frame. -/
structure Response where
  id : Nat
  out : List UInt8
  err : Option WireError
  deriving DecidableEq, Repr

/-- What a caller gets. `frame` is the place of the response it comes from among those that were
read, and is for the statements only. -/
structure Result where
  out : List UInt8
  err : Option GoErr
  frame : Option Nat
  deriving DecidableEq, Repr

namespace Result

def failed (err : GoErr) : Result := ⟨[], some err, none⟩

end Result

def Response.result (resp : Response) (frame : Nat) : Result :=
  ⟨resp.out, resp.err.map WireError.decode, some frame⟩

/-- `ticketState`. A waiter's channel is known by the call that made it. -/
structure TicketState where
  res : Option Result
  waiter : Option Nat
  abandoned : Bool
  deriving DecidableEq, Repr

-- Where the goroutine of `Proc.read` is.
inductive Reader
  | loop
  | draining (cause : Option Text)
  | swept
  | done
  deriving DecidableEq, Repr

/-- The fields of `Proc`. `tickets` has a place for each id given out so far, `none` once it is
deleted; `next` is the last place. `frames` and `failures` are what was read and which frames could
not be written, for the statements only. -/
structure Proc where
  poolSize : Nat
  sem : Nat
  tickets : List (Option TicketState)
  closed : Bool
  poisoned : Bool
  dead : Option GoErr
  reaped : Bool
  waitErr : Option Text
  procExited : Bool
  killed : Bool
  readerDone : Bool
  closeDone : Bool
  closeErr : Option GoErr
  reader : Reader
  frames : List (Response × Bool)
  failures : List (Nat × GoErr)
  deriving DecidableEq, Repr

def maxInlineInput : Nat := 4096

def errProcClosed : GoErr := errDrainClosed

def errNotExited : GoErr :=
  .plain (text "isolate: worker did not exit within 30s of Close and was killed")

/-- workerExitError. A cause that is EOF, or none, is not in the text. -/
def workerExitError (cause waitErr : Option Text) : GoErr :=
  .ffi ⟨ffiPoisoned, text "worker process " ++ waitErr.getD (text "exited") ++
    (cause.elim [] fun cause => text " (" ++ cause ++ text ")") ++
    text "; Close it and start a new worker", [], 0⟩

def unknownId (id : Nat) : Text := text s!"isolate: worker answered unknown id {id}"

-- The sends of one section on waiters' channels.
abbrev Sends := List (Nat × Result)

namespace Proc

-- No id is 0.
def start (poolSize : Nat) : Proc where
  poolSize := poolSize
  sem := 0
  tickets := [none]
  closed := false
  poisoned := false
  dead := none
  reaped := false
  waitErr := none
  procExited := false
  killed := false
  readerDone := false
  closeDone := false
  closeErr := none
  reader := .loop
  frames := []
  failures := []

def lookup (p : Proc) (id : Nat) : Option TicketState := p.tickets[id]?.join

def put (p : Proc) (id : Nat) (t : Option TicketState) : Proc :=
  { p with tickets := p.tickets.set id t }

/-- refusalLocked. -/
def refusal (p : Proc) : Option GoErr :=
  if p.closed then some (.named .closed)
  else if p.dead.isSome then p.dead
  else if p.procExited then some (workerExitError none p.waitErr)
  else if p.poisoned then some (.ffi errHandlePoisoned)
  else none

-- The section of submit that registers a ticket.
def register (p : Proc) : Proc := { p with tickets := p.tickets ++ [some ⟨none, none, false⟩] }

/-- The section of submit after a frame that was not written; `none` if `<-p.sem` blocks. -/
def sendFailed (p : Proc) (id : Nat) (err : GoErr) : Option (Proc × Sends) :=
  let p := { p with failures := p.failures ++ [(id, err)] }
  match p.lookup id with
  | some ⟨none, waiter, _⟩ =>
    if p.sem = 0 then none
    else some ({ p.put id none with sem := p.sem - 1 },
      waiter.toList.map fun i => (i, .failed err))
  | _ => some (p, [])

/-- deliver; `none` if `<-p.sem` blocks. -/
def deliver (p : Proc) (resp : Response) : Option (Proc × Sends × Bool) :=
  match p.lookup resp.id with
  | some ⟨none, waiter, abandoned⟩ =>
    if p.sem = 0 then none
    else
      let res := resp.result p.frames.length
      let p := { p with
        sem := p.sem - 1
        poisoned := p.poisoned || res.err.any fun e : GoErr => e.is .panic || e.is .poisoned
        frames := p.frames ++ [(resp, true)] }
      if abandoned then some (p.put resp.id none, [], true)
      else
        match waiter with
        | some i => some (p.put resp.id none, [(i, res)], true)
        | none => some (p.put resp.id (some ⟨some res, none, false⟩), [], true)
  | _ => some ({ p with frames := p.frames ++ [(resp, false)] }, [], false)

def killIfAlive (p : Proc) : Proc := { p with killed := p.killed || !p.procExited }

/-- A turn of the reader's loop that got a frame. -/
def frame (p : Proc) (resp : Response) : Option (Proc × Sends) :=
  (p.deliver resp).map fun (p, sends, known) =>
    if known then (p, sends)
    else ({ p.killIfAlive with reader := .draining (some (unknownId resp.id)) }, sends)

/-- A turn that got an error. -/
def readFails (p : Proc) (cause : Option Text) : Proc :=
  { p.killIfAlive with reader := .draining cause }

-- The ticket is kept by the reader's last section.
def kept (closed : Bool) : Option TicketState → Option TicketState
  | some t => if t.res.isSome && !t.abandoned && !closed then some t else none
  | none => none

/-- The section after the loop. -/
def sweep (p : Proc) (cause : Option Text) : Proc × Sends :=
  let p := if p.closed then p else { p with dead := some (workerExitError cause p.waitErr) }
  ({ p with tickets := p.tickets.map (kept p.closed), reader := .swept },
    p.tickets.filterMap fun t => (t.bind TicketState.waiter).map fun i =>
      (i, .failed (p.dead.getD errProcClosed)))

-- What the first Close leaves of a ticket, and whom it signals.
def shut : Option TicketState → Option TicketState
  | some t => if t.res.isSome then none else some { t with waiter := none, abandoned := true }
  | none => none

def released : Option TicketState → Option Nat
  | some t => if t.res.isSome then none else t.waiter
  | none => none

/-- The section of the first Close. -/
def close (p : Proc) : Proc × Sends :=
  ({ p with closed := true, tickets := p.tickets.map shut },
    p.tickets.filterMap fun t => (released t).map fun i => (i, .failed errProcClosed))

/-- Wait's first section: the ticket is collected, refused, or has a waiter now. -/
def claim (p : Proc) (id i : Nat) : Proc × Option Result :=
  if p.closed then (p, some (.failed (.named .closed)))
  else
    match p.lookup id with
    | none => (p, some (.failed (p.dead.getD (.named .unknownTicket))))
    | some t =>
      if t.abandoned then (p, some (.failed (.named .unknownTicket)))
      else if t.waiter.isSome then (p, some (.failed (.named .ticketBusy)))
      else
        match t.res with
        | some r => (p.put id none, some r)
        | none => (p.put id (some { t with waiter := some i }), none)

/-- Wait gives up; the ticket it holds may be out of the map. -/
def abandon (p : Proc) (id : Nat) : Proc :=
  match p.lookup id with
  | some t => p.put id (some { t with waiter := none, abandoned := true })
  | none => p

/-- Discard: its error, or the result it dropped. -/
def discard (p : Proc) (id : Nat) : Proc × Except GoErr (Option Result) :=
  if p.closed then (p, .error (.named .closed))
  else
    match p.lookup id with
    | none => (p, .error (.named .unknownTicket))
    | some t =>
      if t.abandoned then (p, .error (.named .unknownTicket))
      else if t.waiter.isSome then (p, .error (.named .ticketBusy))
      else
        match t.res with
        | some r => (p.put id none, .ok (some r))
        | none => (p.put id (some { t with abandoned := true }), .ok none)

-- poisonStream.
def poisonStream (p : Proc) : Proc := { p with poisoned := p.poisoned || !p.closed }

end Proc

/-- Where a call is, and what it returned. A box is the channel of a Wait. -/
inductive Call
  | submit (input : List UInt8) (context : Option GoErr)
  | acquiring
  | acquired
  | refused (err : GoErr)
  | sending (id : Nat)
  | poisoning (id : Nat) (err : GoErr)
  | unsent (id : Nat) (err : GoErr)
  | failing (err : GoErr)
  | submitted (answer : Except GoErr Nat)
  | wait (id : Nat)
  | parked (id : Nat) (box : Option Result)
  | expired (id : Nat) (err : CtxErr) (box : Option Result)
  | waited (id : Nat) (answer : Result)
  | cancelling (id : Nat)
  | cancelPoisoning (id : Nat)
  | cancelled (id : Nat)
  | discard (id : Nat)
  | discarded (id : Nat) (answer : Except GoErr (Option Result))
  | close
  | closing
  | killing
  | closeEnding
  | closeWaiting
  | closeReturned (err : Option GoErr)
  deriving DecidableEq, Repr

/-- What happens in a step that the program does not decide: a select takes `readerDone`, the
context ends, a write fails or ends in the middle, the budget of Close runs out. -/
inductive Choice
  | go
  | halted
  | ctx (err : CtxErr)
  | fails (err : GoErr)
  | partly (err : CtxErr)
  | late
  deriving DecidableEq, Repr

namespace Call

-- A send on the channel of this call; `none` if it blocks.
def receive (r : Result) : Call → Option Call
  | .parked id none => some (.parked id (some r))
  | .expired id err none => some (.expired id err (some r))
  | _ => none

/-- A step's effect on the `Proc`, the call, and the goroutine it starts. -/
structure Effect where
  proc : Proc
  sends : Sends
  call : Call
  fork : Option Call

def Effect.quiet (proc : Proc) (call : Call) : Effect := ⟨proc, [], call, none⟩

/-- The next step of call `i`; `none` where it waits. -/
def step (p : Proc) (i : Nat) (c : Choice) : Call → Option Effect
  | .submit input context =>
    some <| .quiet p <|
      match p.refusal with
      | some err => .submitted (.error err)
      | none =>
        if maxInlineInput < input.length then .submitted (.error (.named .inputTooLarge))
        else
          match context with
          | some err => .submitted (.error err)
          | none => .acquiring
  | .acquiring =>
    match c with
    | .go =>
      if p.sem < p.poolSize then some (.quiet { p with sem := p.sem + 1 } .acquired) else none
    | .ctx err => some (.quiet p (.submitted (.error err.err)))
    | .halted =>
      if p.readerDone then some (.quiet p (.submitted (p.refusal.elim (.ok 0) .error))) else none
    | _ => none
  | .acquired =>
    match p.refusal with
    | some err => some (.quiet p (.refused err))
    | none => some (.quiet p.register (.sending p.tickets.length))
  | .refused err =>
    if p.sem = 0 then none
    else some (.quiet { p with sem := p.sem - 1 } (.submitted (.error err)))
  | .sending id =>
    match c with
    | .go => some (.quiet p (.submitted (.ok id)))
    | .ctx err => some (.quiet p (.unsent id err.err))
    | .fails err => some (.quiet p (.unsent id err))
    | .partly err => some (.quiet p (.poisoning id err.err))
    | _ => none
  | .poisoning id err => some (.quiet p.poisonStream (.unsent id err))
  | .unsent id err => (p.sendFailed id err).map fun (p, sends) => ⟨p, sends, .failing err, none⟩
  | .failing err =>
    match c with
    | .ctx err => some (.quiet p (.submitted (.error err.err)))
    | .halted =>
      if p.readerDone then some (.quiet p (.submitted (.error (p.refusal.getD err)))) else none
    | _ => none
  | .wait id =>
    match p.claim id i with
    | (p, some r) => some (.quiet p (.waited id r))
    | (p, none) => some (.quiet p (.parked id none))
  | .parked id box =>
    match c with
    | .go => box.map fun r => .quiet p (.waited id r)
    | .ctx err => some (.quiet p (.expired id err box))
    | _ => none
  | .expired id err box =>
    match box with
    | some r => some (.quiet p (.waited id r))
    | none => some ⟨p.abandon id, [], .waited id (.failed err.err), some (.cancelling id)⟩
  | .cancelling id =>
    match c with
    | .partly _ => some (.quiet p (.cancelPoisoning id))
    | _ => some (.quiet p (.cancelled id))
  | .cancelPoisoning id => some (.quiet p.poisonStream (.cancelled id))
  | .discard id =>
    let (p, answer) := p.discard id
    some (.quiet p (.discarded id answer))
  | .close =>
    if p.closed then some (.quiet p .closeWaiting)
    else
      let (p, sends) := p.close
      some ⟨p, sends, .closing, none⟩
  | .closing =>
    match c with
    | .halted => if p.readerDone then some (.quiet p .closeEnding) else none
    | .late => some (.quiet { p with killed := true } .killing)
    | _ => none
  | .killing =>
    if p.readerDone then some (.quiet { p with closeErr := some errNotExited } .closeEnding)
    else none
  | .closeEnding => some (.quiet { p with closeDone := true } (.closeReturned p.closeErr))
  | .closeWaiting =>
    if p.closeDone then some (.quiet p (.closeReturned p.closeErr)) else none
  | .submitted _ | .waited _ _ | .cancelled _ | .discarded _ _ | .closeReturned _ => none

end Call

/-- The calls a program makes. -/
inductive Entry
  | submit (input : List UInt8) (context : Option GoErr)
  | wait (id : Nat)
  | discard (id : Nat)
  | close
  deriving DecidableEq, Repr

def Entry.call : Entry → Call
  | .submit input context => .submit input context
  | .wait id => .wait id
  | .discard id => .discard id
  | .close => .close

/-- The host: the `Proc` and every call made so far. -/
structure Host where
  proc : Proc
  calls : List Call
  deriving DecidableEq, Repr

inductive HostAct
  | enter (e : Entry)
  | call (i : Nat) (c : Choice)
  | frame (resp : Response)
  | readFails (cause : Option Text)
  | reap (err : Option Text)
  | exit
  | sweep
  | done
  deriving DecidableEq, Repr

/-- Sends, one after the other; `none` if one of them blocks. -/
def post (calls : List Call) : Sends → Option (List Call)
  | [] => some calls
  | (i, r) :: rest => (calls[i]?.bind (Call.receive r)).bind fun c => post (calls.set i c) rest

namespace Host

def start (poolSize : Nat) : Host := ⟨.start poolSize, []⟩

/-- The section of the reader or of a call leaves its sends. -/
def posted (s : Host) (r : Proc × Sends) : Option Host :=
  (post s.calls r.2).map fun calls => ⟨r.1, calls⟩

def callStep (s : Host) (i : Nat) (c : Choice) : Option Host :=
  (s.calls[i]?).bind fun call =>
    (call.step s.proc i c).bind fun e =>
      (post (s.calls.set i e.call) e.sends).map fun calls => ⟨e.proc, calls ++ e.fork.toList⟩

def step (s : Host) : HostAct → Option Host
  | .enter e => some { s with calls := s.calls ++ [e.call] }
  | .call i c => s.callStep i c
  | .frame resp =>
    if s.proc.reader = .loop then (s.proc.frame resp).bind s.posted else none
  | .readFails cause =>
    if s.proc.reader = .loop then some { s with proc := s.proc.readFails cause } else none
  | .reap err =>
    if s.proc.reaped then none
    else some { s with proc := { s.proc with reaped := true, waitErr := err } }
  | .exit =>
    if s.proc.reaped && !s.proc.procExited then
      some { s with proc := { s.proc with procExited := true } }
    else none
  | .sweep =>
    match s.proc.reader with
    | .draining cause => if s.proc.procExited then s.posted (s.proc.sweep cause) else none
    | _ => none
  | .done =>
    if s.proc.reader = .swept then
      some { s with proc := { s.proc with reader := .done, readerDone := true } }
    else none

end Host

/-- Some run of a host with this pool size gets here. -/
def Hosts (poolSize : Nat) : Host → Prop :=
  Reachable (· = .start poolSize) fun s t => ∃ a, s.step a = some t

def Host.follows (s : Host) (acts : List HostAct) : Option Host := follow Host.step s acts

theorem follows_hosts {poolSize : Nat} {s t : Host} {acts : List HostAct}
    (reach : Hosts poolSize s) (run : s.follows acts = some t) : Hosts poolSize t :=
  reach.follow (fun _ a _ went => ⟨a, went⟩) run

end Gusset.Isolate
