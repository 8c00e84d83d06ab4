import Gusset.Handle.Errands
import Gusset.Isolate.Hosting
import Gusset.Isolate.Serving

/-! A host and its worker: the `Proc`, the two pipes, `Serve` and the handle it runs the jobs on. A
step is one of the `Proc`, of Serve or of a call on the handle, or such a call begins or returns. -/
namespace Gusset.Isolate
open Foundation

/-- What the parts share. The handle's model leaves out the texts of its errors, so `report` stands
for them; it is told how the job's context ended. -/
structure Setup where
  poolSize : Nat
  maxUncollected : Nat
  marshal : Serve.Outgoing → List Byte
  report : Option CtxErr → Handle.Err → GoErr

namespace Setup

def config (setup : Setup) : Handle.Config := ⟨setup.poolSize, setup.maxUncollected⟩

-- What a Submit returned to run.
def submitted (setup : Setup) (ended : Option CtxErr) : Handle.Outcome → Option (Except GoErr Nat)
  | .ticket t => some (.ok t)
  | .err e => some (.error (setup.report ended e))
  | _ => none

-- What a Wait returned to run.
def waited (setup : Setup) (ended : Option CtxErr) : Handle.Outcome → Option Serve.Outcome
  | .data bytes => some ⟨bytes.map UInt8.ofBitVec, none⟩
  | .err e => some ⟨[], some (setup.report ended e)⟩
  | _ => none

end Setup

/-- What a step of the host puts on the pipe. The rest of a request comes with the step, and a frame
of which only a part is out is malformed to Serve. -/
def Host.writes (s : Host) (req : Serve.Request) : HostAct → List Serve.Incoming
  | .call i c =>
    match s.calls[i]?, c with
    | some (.sending id), .go => [.submit { req with id := id }]
    | some (.cancelling id), .go => [.cancel id]
    | some (.sending _), .partly _ | some (.cancelling _), .partly _ =>
      [.malformed (text "unexpected EOF")]
    | _, _ => []
  | _ => []

def Serve.Outgoing.response : Serve.Outgoing → Option Response
  | .answer resp => some resp
  | .hello _ _ => none

/-- `calls` has the call that the goroutine of a job is in, by its place among the calls on the
handle; `tickets` has what the job's Submit returned, for the statements only. A worker that has
`exited` takes no more steps. -/
structure Joint where
  host : Host
  server : Serve.Server
  worker : Handle.State
  calls : Nat → Option Nat
  tickets : Nat → Option Handle.Ticket
  exited : Bool

namespace Joint

inductive Act
  | host (a : HostAct) (req : Serve.Request)
  | read
  | serve (a : Serve.Act)
  | submit (j : Nat)
  | submitted (j : Nat)
  | wait (j : Nat)
  | waited (j : Nat)
  | expire (j : Nat)
  | worker (a : Handle.Act)
  | exit

def start (setup : Setup) : Joint where
  host := .start setup.poolSize
  server := .start setup.poolSize []
  worker := .opened
  calls := fun _ => none
  tickets := fun _ => none
  exited := false

-- The response that the host reads next.
def next (s : Joint) : Option Response :=
  (s.server.sent.filterMap Serve.Outgoing.response)[s.host.proc.frames.length]?

-- Frames come through `read`, and a worker is reaped once it has exited.
def lets (s : Joint) : HostAct → Bool
  | .frame _ => false
  | .reap _ => s.exited
  | _ => true

-- The pipe is at its end only once the host has closed it, and the calls on the handle decide what
-- they return.
def serves (s : Joint) : Serve.Act → Bool
  | .main => s.server.main != .reading || !s.server.input.isEmpty || s.host.proc.closed
  | .job _ | .expire _ | .refuse _ => true
  | .submitted _ _ | .answered _ _ => false

-- Serve makes the calls, their contexts are the jobs', and nobody closes the handle under Serve.
def works : Handle.Act → Bool
  | .thread _ _ | .reader _ => true
  | _ => false

-- What the call that the job is in has returned.
def outcome (s : Joint) (j : Nat) : Option Handle.Outcome :=
  match (s.calls j).bind (s.worker.threads[·]?) with
  | some ⟨_, .done out⟩ => some out
  | _ => none

section
variable (setup : Setup) (s : Joint)

-- The goroutine of a job makes a call.
def enter (j : Nat) (call : Handle.Call) : Option Joint :=
  (s.worker.step setup.config (.call call)).map fun worker =>
    { s with worker := worker, calls := Function.update s.calls j (some s.worker.threads.length) }

def step : Act → Option Joint
  | .host a req =>
    if s.server.sent.isEmpty || !s.lets a then none
    else (s.host.step a).map fun host => { s with
      host := host
      server := { s.server with input := s.server.input ++ s.host.writes req a } }
  | .read =>
      s.next.bind fun resp => (s.host.step (.frame resp)).map fun host => { s with host := host }
  | .serve a =>
    if s.exited || !s.serves a then none
    else (s.server.step setup.marshal a).map fun server => { s with server := server }
  | .submit j =>
    if s.exited || (s.calls j).isSome then none
    else
      match s.server.jobs[j]? with
      | some ⟨req, .submitting⟩ => s.enter setup j (.submit (.bytes req.input.length))
      | _ => none
  | .submitted j =>
    if s.exited then none
    else (s.outcome j).bind fun out => (setup.submitted (s.server.ended j) out).bind fun answer =>
      (s.server.step setup.marshal (.submitted j answer)).map fun server => { s with
        server := server
        calls := Function.update s.calls j none
        tickets := Function.update s.tickets j answer.toOption }
  | .wait j =>
    if s.exited || (s.calls j).isSome then none
    else
      match s.server.jobs[j]? with
      | some ⟨_, .waiting t⟩ => s.enter setup j (.wait .wait t)
      | _ => none
  | .waited j =>
    if s.exited then none
    else (s.outcome j).bind fun out => (setup.waited (s.server.ended j) out).bind fun r =>
      (s.server.step setup.marshal (.answered j r)).map fun server => { s with
        server := server
        calls := Function.update s.calls j none }
  | .expire j =>
    if s.exited || (s.server.ended j).isNone then none
    else (s.calls j).bind fun i => (s.worker.step setup.config (.expire i)).map fun worker =>
      { s with worker := worker }
  | .worker a =>
    if s.exited || !works a then none
    else (s.worker.step setup.config a).map fun worker => { s with worker := worker }
  | .exit => some { s with exited := true }

end

/-- A caller at this place does not give up on a ticket whose outcome has not come, and does not
claim one whose permit the completion reader has still to return. -/
def spares (s : Joint) : Handle.Pc → Bool
  | .race _ _ c => (s.worker.sh.chan c).isSome
  | .claim _ t => decide (s.worker.reader.role.owes t = 0)
  | _ => true

/-- The condition on a step: every call on the worker's handle spares the ticket it waits for, and
the completion reader does not fail. -/
def covered (s : Joint) : Act → Bool
  | .worker (.thread i _) => (s.worker.threads[i]?).all fun th => s.spares th.pc
  | .worker (.reader c) => c != .fail
  | _ => true

/-- Some run gets here. -/
def Reaches (setup : Setup) : Joint → Prop :=
  Reachable (· = start setup) fun s t => ∃ a, s.step setup a = some t

/-- Some run all of whose steps meet the condition gets here. -/
def Stays (setup : Setup) : Joint → Prop :=
  Reachable (· = start setup) fun s t => ∃ a, s.covered a = true ∧ s.step setup a = some t

/-- Job `j` is about to call Submit or in a Submit that has not yet taken a permit. -/
def asks (s : Joint) (j : Nat) : Prop :=
  ∃ req, s.server.jobs[j]? = some ⟨req, .submitting⟩ ∧ ∀ i, s.calls j = some i →
    ∃ th, s.worker.threads[i]? = some th ∧ th.pc.early = true

/-- The host's permits cover the worker's. -/
structure Covers (setup : Setup) (s : Joint) : Prop where
  held : s.exited = false → s.worker.sh.sem ≤ census Proc.owed s.host.proc.tickets
  free : s.exited = false → ∀ j, s.asks j → s.worker.sh.sem < setup.poolSize
  returns : ∀ resp host, s.next = some resp → s.host.step (.frame resp) = some host →
    host.proc.sem < s.host.proc.sem →
    ∃ j job r, s.server.jobs[j]? = some job ∧ job.stage.answered = some r ∧
      Serve.answer job.req r = .answer resp ∧
      ∀ t, s.tickets j = some t → t ∈ s.worker.hist.consumed ∧ 0 < s.worker.hist.gaveBack t

end Joint

end Gusset.Isolate
