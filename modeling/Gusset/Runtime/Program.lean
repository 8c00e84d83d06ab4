import Gusset.Foundation.Reach
import Gusset.Foundation.Census
import Gusset.Foundation.GoMap
import Gusset.Foundation.Words

/-! The Rust runtime over all its handles: `submit_classified`, the buffer registry, a worker's way
from `pop` to `deliver`, `close_within`, `begin_shutdown`, `shutdown` and `rearm`. A section behind
one lock is one step, an atomic access outside a lock another. -/
namespace Gusset.Runtime
open Foundation

/-- `TAKE_OWNED_FLAG`, which every id stays below. -/
def idCeiling : Nat := 2 ^ 63

def maxInlineInput : Nat := 4096

def maxBufferBytes : Nat := 2 ^ 30

structure BufferSlot where
  outputClaimed : Bool
  callerHeld : Bool
  deriving DecidableEq, Repr

/-- What the runtime reads of a unit. `input` is `input_buffer_id`: 0 for an inline payload, else
the buffer the unit holds an `Arc` of. -/
structure WorkUnit where
  ticket : Nat
  input : Nat
  deriving DecidableEq, Repr

inductive JobOutput
  | bytes (data : List Byte)
  | buffer (id : Nat)
  | allocated (data : List Byte)

inductive JobResult
  | ok (data : List Byte)
  | buffer (id : Nat)
  | err (msg : String)
  | panic (msg : String)
  | cancelled
  deriving DecidableEq

/-- A handle. `live` says that its `Arc` is: a `Weak` upgrades exactly then. `registered` puts it in
`LIVE_HANDLES`. `cancelFlags` has the keys of that map. `completions` has what `complete` published,
and `sealed` says that `close_within` has run `cancel_all`. -/
structure Handle where
  live : Bool
  registered : Bool
  closed : Bool
  poisoned : Bool
  cap : Nat
  items : List WorkUnit
  queueClosed : Bool
  cancelFlags : List Nat
  buffers : GoMap Nat BufferSlot
  completions : List (Nat × JobResult)
  sealed : Bool

def Handle.new (cap : Nat) : Handle :=
  ⟨true, false, false, false, max cap 1, [], false, [], ⟨∅, fun _ => ⟨false, false⟩⟩, [], false⟩

/-- The statics of the process. `cancelled` has the tickets whose flag is set. The rest is what the
code does not keep: the handle every buffer id was reserved for and whether the buffer was
published, in the order of the ids; the ids freed; the ids that became a `JobResult::Buffer`;
whether a `begin_shutdown`, and a drain that returned 0, is more recent than the last `rearm`. -/
structure Globals where
  shuttingDown : Bool
  serial : Bool
  cancelled : List Nat
  nextTicket : Nat
  nextBuffer : Nat
  mints : List (Nat × Bool)
  freed : List Nat
  produced : List Nat
  signalled : Bool
  drained : Bool

def Globals.new : Globals := ⟨false, false, [], 1, 1, [], [], [], false, false⟩

/-- Who registers a buffer: `buf_alloc` or `buf_alloc_published`, `adopt_output` for a unit,
`materialize_result` for a ticket, `gusset_take`. -/
inductive Request
  | alloc (published : Bool)
  | adopt (u : WorkUnit)
  | materialize (ticket : Nat)
  | take
  deriving DecidableEq

def Request.slot : Request → BufferSlot
  | .alloc published => ⟨false, published⟩
  | _ => ⟨true, false⟩

/-- Whether the pointer goes to Go: `buf_alloc_published`. -/
def Request.published : Request → Bool
  | .alloc published => published
  | _ => false

theorem Request.slot_callerHeld (r : Request) : r.slot.callerHeld = r.published := by
  cases r <;> rfl

/-- Where a thread stands, and on which handle. -/
inductive Thread
  | idle
  -- `submit_classified` with a buffer id
  | checkPoisoned (h b : Nat)
  | checkClosed (h b : Nat)
  | checkShutdown (h b : Nat)
  | payload (h b : Nat)
  | reserving (h b : Nat)
  | inserting (h : Nat) (u : WorkUnit)
  | sending (h : Nat) (u : WorkUnit)
  | unregistering (h : Nat) (u : WorkUnit) (msg : String)
  | submitted (h ticket : Nat)
  | refused (h : Nat) (ticket : Option Nat) (msg : String)
  -- the buffer registry
  | allocating (h : Nat) (published : Bool)
  | registering (h : Nat) (r : Request)
  | minting (h : Nat) (r : Request)
  | storing (h : Nat) (r : Request) (id : Nat)
  | allocated (h : Nat) (id : Except String Nat)
  | freeing (h id : Nat)
  | cancelling (h ticket : Nat)
  -- an export whose guard caught a panic, up to `FFI_PANIC`
  | guarded (h : Nat)
  | panicked (h : Nat)
  -- `open` once the pool is up, and `close_within`
  | enrolling (h : Nat)
  | closing (h : Nat)
  | closingQueue (h : Nat)
  | cancellingAll (h : Nat) (closes : Bool)
  -- a worker
  | waiting (h : Nat)
  | popped (h : Nat) (u : WorkUnit)
  | dispatching (h : Nat) (u : WorkUnit)
  | answered (h : Nat) (u : WorkUnit) (out : JobOutput)
  | claiming (h : Nat) (u : WorkUnit) (id : Nat)
  | caught (h : Nat) (u : WorkUnit) (msg : String)
  | finished (h : Nat) (u : WorkUnit) (result : JobResult)
  | unwound (h ticket : Nat) (msg : String)
  | delivering (h ticket : Nat) (result : JobResult)
  | publishing (h ticket : Nat) (result : JobResult)
  | faulted (h ticket : Nat)
  | removing (h ticket : Nat)
  -- `shutdown` and `rearm`
  | shutdown
  | beginning
  | enlisting
  | signalling (live : List Nat)
  | surveying
  | counting (live : List Nat) (sum : Nat)
  | drained (remaining : Nat)
  | rearming

/-- What a thread's next step takes from outside: the refusal of a check of its arguments, its pool
or its memory; what the engine answers; the message of a panic in a guarded part and, if that part
publishes, whether the record is out; whether a deadline has passed. -/
structure Choice where
  refuses : Option String
  answer : Except String JobOutput
  unwinds : Option String
  publishes : Bool
  late : Bool

/-- What `register` is to its caller: the id, or why there is none. -/
def registered : Except String Nat → JobResult
  | .ok id => .buffer id
  | .error msg => .err msg

/-- The end of `register`, and what its caller does next. -/
def Request.done (h : Nat) (id : Except String Nat) : Request → Thread
  | .alloc _ | .take => .allocated h id
  | .adopt u => .finished h u (registered id)
  | .materialize t => .publishing h t (registered id)

-- The input of the unit a worker registers its output for.
def Request.input : Request → Option Nat
  | .adopt u => some u.input
  | _ => none

/-- Whether a registered buffer becomes a `JobResult::Buffer` at once. -/
def Request.produces : Request → Bool
  | .adopt _ | .materialize _ => true
  | _ => false

/-- `materialize_result`: what is published of a result, or the registration it takes first. -/
def materialize (h ticket : Nat) : JobResult → Thread
  | .ok data =>
    if maxBufferBytes < data.length then
      .publishing h ticket (.err
        s!"output {data.length} bytes exceeds maximum {maxBufferBytes} bytes")
    else if maxInlineInput < data.length then .registering h (.materialize ticket)
    else .publishing h ticket (.ok data)
  | r => .publishing h ticket r

/-- `claim_output`, with the `Arc`s of the buffer beside the registry's. -/
def Handle.claimOutput (x : Handle) (id readers : Nat) : Except String Handle :=
  match x.buffers.lookup id with
  | none => .error s!"engine returned buffer id {id} as its output: no such live buffer"
  | some slot =>
    if slot.outputClaimed then
      .error s!"engine returned buffer id {id} as its output: it is already another call's output; allocate a new buffer for each result"
    else if slot.callerHeld then
      .error s!"engine returned buffer id {id} as its output: the caller still holds it; allocate a new buffer for the result"
    else if 1 < 1 + readers then
      .error s!"engine returned buffer id {id} as its output: another work unit is still reading it as its input"
    else .ok { x with buffers := x.buffers.insert id { slot with outputClaimed := true } }

-- `cancel_flags.lock()`, with every flag behind it set.
def Globals.cancelAll (g : Globals) (x : Handle) : Globals :=
  { g with cancelled := g.cancelled ++ x.cancelFlags }

-- `reserve_id(&NEXT_BUFFER_ID)`.
def Globals.mint (g : Globals) (h : Nat) (r : Request) : Globals :=
  { g with
    nextBuffer := g.nextBuffer + 1
    mints := g.mints ++ [(h, r.published)] }

def Globals.produce (g : Globals) (id : Nat) : Globals := { g with produced := g.produced ++ [id] }

/-- What `execute_unit` makes of an engine's output, up to the registry. -/
def JobOutput.next (h : Nat) (live : Bool) (u : WorkUnit) : JobOutput → Thread
  | .bytes data => .finished h u (.ok data)
  | .buffer id =>
    if id = 0 ∨ id = u.input then
      .finished h u (.err (if id = 0 then
        s!"engine returned buffer id {id} as its output: id 0 is never a live buffer; allocate a new buffer for the result"
      else
        s!"engine returned buffer id {id} as its output: that is the input buffer, which the caller still owns; allocate a new buffer for the result"))
    else if live then .claiming h u id
    else .finished h u (.err "handle is closed")
  | .allocated data =>
    if !live then .finished h u (.err "handle is closed")
    else if data = [] then .finished h u (.ok [])
    else if maxBufferBytes < data.length then
      .finished h u (.err s!"output {data.length} bytes exceeds maximum {maxBufferBytes} bytes")
    else .registering h (.adopt u)

namespace Thread

/-- The handle a thread's next step is on. -/
def target : Thread → Option Nat
  | .checkPoisoned h _ | .checkClosed h _ | .checkShutdown h _ | .payload h _ | .reserving h _
  | .inserting h _ | .sending h _ | .unregistering h _ _ | .allocating h _ | .registering h _
  | .minting h _ | .storing h _ _ | .freeing h _ | .cancelling h _ | .guarded h | .enrolling h
  | .closing h | .closingQueue h | .cancellingAll h _ | .waiting h | .popped h _
  | .dispatching h _ | .answered h _ _ | .claiming h _ _ | .caught h _ _ | .finished h _ _
  | .unwound h _ _ | .delivering h _ _
  | .publishing h _ _ | .faulted h _ | .removing h _ | .signalling (h :: _)
  | .counting (h :: _) _ => some h
  | _ => none

/-- A thread's next step on its handle; `none` where it waits. -/
def act (g : Globals) (x : Handle) (readers : Nat → Nat) (c : Choice) :
    Thread → Option (Globals × Handle × Thread)
  | .checkPoisoned h b =>
    some (g, x, if x.poisoned then .refused h none "handle is poisoned" else .checkClosed h b)
  | .checkClosed h b =>
    some (g, x, if x.closed then .refused h none "handle is closed" else .checkShutdown h b)
  | .checkShutdown h b =>
    some (g, x, if g.shuttingDown then .refused h none "gusset runtime is shutting down"
      else .payload h b)
  | .payload h b =>
    match c.refuses with
    | some msg => some (g, x, .refused h none msg)
    | none =>
    if 0 < b ∧ x.buffers.lookup b = none then
      some (g, x, .refused h none s!"buffer id {b} not found")
    else some (g, x, .reserving h b)
  | .reserving h b =>
    if idCeiling ≤ g.nextTicket then
      some (g, x, .refused h none
        "id space exhausted; refusing to wrap onto a live ticket or buffer")
    else some ({ g with nextTicket := g.nextTicket + 1 }, x, .inserting h ⟨g.nextTicket, b⟩)
  | .inserting h u =>
    some ({ g with cancelled := if g.shuttingDown then g.cancelled ++ [u.ticket] else g.cancelled },
      { x with cancelFlags := u.ticket :: x.cancelFlags }, .sending h u)
  | .sending h u =>
    if x.queueClosed then some (g, x, .unregistering h u "handle is closed")
    else if x.cap ≤ x.items.length then some (g, x, .unregistering h u "submission queue is full")
    else some (g, { x with items := x.items ++ [u] }, .submitted h u.ticket)
  | .unregistering h u msg =>
    some (g, { x with cancelFlags := x.cancelFlags.erase u.ticket }, .refused h (some u.ticket) msg)
  | .allocating h published =>
    some (g, x, if x.poisoned then .allocated h (.error "handle is poisoned")
      else .registering h (.alloc published))
  | .registering h r =>
    some (g, x, if x.closed then r.done h (.error "handle is closed") else .minting h r)
  | .minting h r =>
    if idCeiling ≤ g.nextBuffer then
      some (g, x, r.done h (.error
        "id space exhausted; refusing to wrap onto a live ticket or buffer"))
    else match c.refuses with
    | some msg => some (g.mint h r, x, r.done h (.error msg))
    | none => some (g.mint h r, x, .storing h r g.nextBuffer)
  | .storing h r id =>
    some (if r.produces then g.produce id else g,
      { x with buffers := x.buffers.insert id r.slot }, r.done h (.ok id))
  | .freeing _ id =>
    some ({ g with freed := if x.buffers.lookup id = none then g.freed else g.freed ++ [id] },
      { x with buffers := x.buffers.erase id }, .idle)
  | .cancelling _ t =>
    some ({ g with cancelled := if t ∈ x.cancelFlags then g.cancelled ++ [t] else g.cancelled }, x,
      .idle)
  | .guarded h => some (g, { x with poisoned := true }, .panicked h)
  | .enrolling _ => some (g, { x with registered := true }, .idle)
  | .closing h => if x.closed then some (g, x, .idle)
    else some (g, { x with closed := true }, .closingQueue h)
  | .closingQueue h => some (g, { x with queueClosed := true }, .cancellingAll h true)
  | .cancellingAll _ closes =>
    some (g.cancelAll x, { x with sealed := x.sealed || closes }, .idle)
  | .waiting h =>
    match x.items with
    | u :: rest => some (g, { x with items := rest }, .popped h u)
    | [] => none
  | .popped h u =>
    some (g, x, if u.ticket ∈ g.cancelled ∨ c.late then .finished h u .cancelled
      else .dispatching h u)
  | .dispatching h u =>
    match c.unwinds, c.answer with
    | some msg, _ => some (g, x, .caught h u msg)
    | none, .ok out => some (g, x, .answered h u out)
    | none, .error msg =>
      some (g, x, .finished h u
        (if u.ticket ∈ g.cancelled ∨ c.late then .cancelled else .err msg))
  | .answered h u out => some (g, x, out.next h x.live u)
  | .claiming h u id =>
    match x.claimOutput id (readers id) with
    | .ok y => some (g.produce id, y, .finished h u (.buffer id))
    | .error msg => some (g, x, .finished h u (.err msg))
  | .caught h u msg =>
    some (g, { x with poisoned := x.poisoned || x.live }, .finished h u (.panic msg))
  | .finished h u result =>
    match c.unwinds with
    | some msg => some (g, x, .unwound h u.ticket msg)
    | none => some (g, x, .delivering h u.ticket result)
  | .unwound h t msg =>
    some (g, { x with poisoned := x.poisoned || x.live },
      .delivering h t (.panic s!"worker fault outside the engine call: {msg}"))
  | .delivering h t result =>
    if !x.live then some (g, x, .waiting h)
    else match c.unwinds with
    | some msg =>
      some (g, { x with poisoned := true },
        .publishing h t (.panic s!"worker fault storing the result: {msg}"))
    | none => some (g, x, materialize h t result)
  | .publishing h t result =>
    match c.unwinds with
    | some _ =>
      some (g, if c.publishes then { x with completions := x.completions ++ [(t, result)] } else x,
        .faulted h t)
    | none => some (g, { x with completions := x.completions ++ [(t, result)] }, .removing h t)
  | .faulted h t => some (g, { x with poisoned := x.poisoned || x.live }, .removing h t)
  | .removing h t =>
    match c.unwinds with
    | some _ => some (g, x, .faulted h t)
    | none => some (g, { x with cancelFlags := x.cancelFlags.erase t }, .waiting h)
  | .signalling (_ :: rest) => some (g.cancelAll x, x, .signalling rest)
  | .counting (_ :: rest) sum => some (g, x, .counting rest (sum + x.cancelFlags.length))
  | _ => none

/-- The input a thread holds an `Arc` of: in `submit` from the lookup on, in a worker until
`execute_unit` drops the unit. -/
def input : Thread → Option Nat
  | .reserving _ b => some b
  | .inserting _ u | .sending _ u | .unregistering _ u _ | .popped _ u | .dispatching _ u
  | .answered _ u _ | .claiming _ u _ | .caught _ u _ | .finished _ u _ => some u.input
  | .registering _ r | .minting _ r | .storing _ r _ => r.input
  | _ => none

/-- The handles a thread holds an `Arc` of. -/
def uses (h : Nat) : Thread → Bool
  | .waiting _ | .popped _ _ | .dispatching _ _ | .answered _ _ _ | .caught _ _ _ | .finished _ _ _
  | .unwound _ _ _ | .delivering _ _ _ => false
  | .signalling live | .counting live _ => h ∈ live
  | p => p.target = some h

end Thread

/-- The process: its statics, its handles and its threads. -/
structure State where
  globals : Globals
  handles : List Handle
  threads : List Thread

namespace State

def new : State := ⟨.new, [], []⟩

/-- The `Arc`s of a buffer beside the one in the registry. -/
def readers (s : State) (id : Nat) : Nat :=
  census (fun x => x.items.countP fun u => u.input = id) s.handles +
    census (fun p => if p.input = some id then 1 else 0) s.threads

-- The handles of `LIVE_HANDLES` that still upgrade.
def enlisted (s : State) : List Nat :=
  (List.range s.handles.length).filter fun h =>
    (s.handles[h]?.map fun x => x.registered && x.live).getD false

end State

/-- The steps of `shutdown` and `rearm` that are on no handle. -/
def Thread.globalAct (s : State) (c : Choice) : Thread → Option (Globals × Thread)
  | .shutdown =>
    if s.globals.serial then none else some ({ s.globals with serial := true }, .beginning)
  | .beginning => some ({ s.globals with shuttingDown := true }, .enlisting)
  | .enlisting => some (s.globals, .signalling s.enlisted)
  | .signalling [] => some ({ s.globals with signalled := true }, .surveying)
  | .surveying => some (s.globals, .counting s.enlisted 0)
  | .counting [] 0 => some ({ s.globals with serial := false, drained := true }, .drained 0)
  | .counting [] (n + 1) =>
    if c.late then some ({ s.globals with serial := false }, .drained (n + 1))
    else some (s.globals, .surveying)
  | .rearming =>
    if s.globals.serial then none
    else some ({ s.globals with shuttingDown := false, signalled := false, drained := false }, .idle)
  | _ => none

-- Outside every call.
def Thread.outside : Thread → Bool
  | .idle | .submitted _ _ | .refused _ _ _ | .allocated _ _ | .panicked _ | .drained _ => true
  | _ => false

/-- What a thread outside a call may do next. A call is made on a handle that `open` returned and
whose `Arc` the caller has; a worker starts on its own. -/
inductive Call
  | submit (b : Nat) | alloc (published : Bool) | take | free (id : Nat) | cancel (ticket : Nat)
  | cancelAll | panics | close

def Call.enter (h : Nat) : Call → Thread
  | .submit b => .checkPoisoned h b
  | .alloc published => .allocating h published
  | .take => .registering h .take
  | .free id => .freeing h id
  | .cancel t => .cancelling h t
  | .cancelAll => .cancellingAll h false
  | .panics => .guarded h
  | .close => .closing h

inductive Act
  | spawn
  | opens (i cap : Nat)
  | call (i h : Nat) (k : Call)
  | shutdown (i : Nat)
  | rearm (i : Nat)
  | work (i h : Nat)
  | drop (h : Nat)
  | thread (i : Nat) (c : Choice)

/-- The last `Arc` goes: `Drop` closes the handle. -/
def Handle.drop (x : Handle) : Handle :=
  { x with live := false, closed := true, queueClosed := true, sealed := true }

namespace State

-- A thread outside a call begins one.
def enter (s : State) (i : Nat) (p : Thread) : Option State :=
  match s.threads[i]? with
  | some q => if q.outside then some { s with threads := s.threads.set i p } else none
  | none => none

def threadStep (s : State) (i : Nat) (c : Choice) : Option State :=
  (s.threads[i]?).bind fun p =>
    match p.target with
    | some h =>
      (s.handles[h]?).bind fun x =>
        (p.act s.globals x s.readers c).map fun r =>
          ⟨r.1, s.handles.set h r.2.1, s.threads.set i r.2.2⟩
    | none =>
      (p.globalAct s c).map fun r => { s with globals := r.1, threads := s.threads.set i r.2 }

def step (s : State) : Act → Option State
  | .spawn => some { s with threads := s.threads ++ [.idle] }
  | .opens i cap =>
    enter { s with handles := s.handles ++ [.new cap] } i (.enrolling s.handles.length)
  | .call i h k =>
    match s.handles[h]? with
    | some x => if x.registered && x.live then s.enter i (k.enter h) else none
    | none => none
  | .shutdown i => s.enter i .shutdown
  | .rearm i => s.enter i .rearming
  | .work i h => if h < s.handles.length then s.enter i (.waiting h) else none
  | .drop h =>
    match s.handles[h]? with
    | some x =>
      if x.registered && x.live && s.threads.all fun p => !p.uses h then
        some { s with
          globals := s.globals.cancelAll x
          handles := s.handles.set h x.drop }
      else none
    | none => none
  | .thread i c => s.threadStep i c

end State

def Reaches : State → Prop :=
  Reachable (· = .new) fun s t => ∃ a, s.step a = some t

/-- A run given by its actions. -/
def follows (s : State) (acts : List Act) : Option State := follow State.step s acts

theorem follows_reaches {s t : State} {acts : List Act} (reach : Reaches s)
    (run : follows s acts = some t) : Reaches t :=
  reach.follow (fun _ a _ went => ⟨a, went⟩) run

end Gusset.Runtime
