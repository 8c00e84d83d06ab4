import Gusset.Foundation.Census
import Gusset.Isolate.Frames
import Gusset.Isolate.Proc

/-! `Serve`, the worker's half: the loop over the request frames, one goroutine for each submit, the
map of cancel functions and the writer's lock. -/
namespace Gusset.Isolate.Serve
open Foundation

def maxPoolSize : Int := 1024

structure Request where
  id : Nat
  input : List UInt8
  timeoutNS : Nat
  opcode : Option Nat
  trace : Option (List UInt8)
  deriving DecidableEq, Repr

/-- What readFrame gives: a request by its op, or an error that is not EOF. -/
inductive Incoming
  | submit (req : Request)
  | cancel (id : Nat)
  | other (op : Text)
  | malformed (err : Text)
  deriving DecidableEq, Repr

structure Ctx where
  opcode : Option Nat
  trace : Option (List UInt8)
  timeout : Option Nat
  deriving DecidableEq, Repr

def requestContext (req : Request) : Ctx where
  opcode := req.opcode
  trace := req.trace
  timeout := if 0 < req.timeoutNS then some (min req.timeoutNS (2 ^ 63 - 1)) else none

/-- What Submit and Wait return. -/
structure Outcome where
  out : List UInt8
  err : Option GoErr
  deriving DecidableEq, Repr

/-- A handle in this process or another one: the answers its Submit and Wait may give under a
context that has ended so or goes on. -/
structure Caller where
  submit : Ctx → Option CtxErr → List UInt8 → Except GoErr Nat → Prop
  wait : Ctx → Option CtxErr → Nat → Outcome → Prop

/-- Submit and Wait return once their context ends. -/
structure Caller.Returns (h : Caller) : Prop where
  submit : ∀ ctx err input, ∃ answer, h.submit ctx (some err) input answer
  wait : ∀ ctx err ticket, ∃ answer, h.wait ctx (some err) ticket answer

/-- The outcomes of run: Submit, then Wait. -/
inductive Caller.Ran (h : Caller) (ctx : Ctx) (input : List UInt8) : Outcome → Prop
  | refused {ended : Option CtxErr} {err : GoErr} : h.submit ctx ended input (.error err) →
      Ran h ctx input ⟨[], some err⟩
  | waited {first later : Option CtxErr} {ticket : Nat} {r : Outcome} :
      h.submit ctx first input (.ok ticket) → h.wait ctx later ticket r → Ran h ctx input r

/-- What send writes. -/
inductive Outgoing
  | hello (version : Nat) (poolSize : Int)
  | answer (resp : Response)
  deriving DecidableEq, Repr

def protocolVersion : Nat := 1

def answer (req : Request) (r : Outcome) : Outgoing :=
  .answer ⟨req.id, r.out, r.err.map encodeError⟩

/-- Where the goroutine of a submit is. -/
inductive Stage
  | unborn
  | submitting
  | waiting (ticket : Nat)
  | ran (r : Outcome)
  | deleted (r : Outcome)
  | sending (r : Outcome)
  | header (r : Outcome)
  | body (r : Outcome)
  | unsent (err : Text)
  | leaving (answered : Option Outcome)
  | halted (answered : Option Outcome)
  deriving DecidableEq, Repr

structure Job where
  req : Request
  stage : Stage
  deriving DecidableEq, Repr

inductive Main
  | opening
  | announcing
  | helloHeader
  | helloBody
  | refused (err : Text)
  | reading
  | registering (req : Request)
  | spawning (j : Nat)
  | cancelling (id : Nat)
  | stopping (err : Option Text)
  | joining (err : Option Text)
  | returned (errs : List Text)
  deriving DecidableEq, Repr

/-- The variables of Serve. A context and its cancel function are known by the place of their job,
and `ended` says how the context ended. `wmu` has the frame whose writer holds the lock and whether
its length is out; `writes` are the calls of `w.Write`; `sent` has the frames that are out whole,
for the statements only. -/
structure Server where
  poolSize : Int
  main : Main
  input : List Incoming
  jobs : List Job
  ended : Nat → Option CtxErr
  cancels : List (Nat × Nat)
  wg : Nat
  wmu : Option (Outgoing × Bool)
  sendErr : List Text
  writes : List (List Byte)
  sent : List Outgoing

inductive Act
  | main
  | job (j : Nat)
  | submitted (j : Nat) (answer : Except GoErr Nat)
  | answered (j : Nat) (r : Outcome)
  | expire (j : Nat)
  | refuse (err : Text)

def errPoolSize (n : Int) : Text := text s!"isolate: pool size {n} outside [1, 1024]"
def errDuplicate (id : Nat) : Text := text s!"isolate: duplicate in-flight id {id}"
def errUnknownOp (op : Text) : Text := text "isolate: unknown op \"" ++ op ++ text "\""
def errTooLarge (n : Nat) : Text :=
  text s!"isolate: frame of {n} bytes exceeds the {maxResponseFrame}-byte limit"

namespace Server

def start (poolSize : Int) (input : List Incoming) : Server :=
  ⟨poolSize, .opening, input, [], fun _ => none, [], 0, none, [], [], []⟩

def hello (s : Server) : Outgoing := .hello protocolVersion s.poolSize

/-- `cancel()` for some entries of the map. The first end of a context stays. -/
def cancel (s : Server) (entries : List (Nat × Nat)) : Server :=
  { s with ended := fun j =>
      if entries.any (·.2 = j) then (s.ended j).or (some .canceled) else s.ended j }

section
variable (marshal : Outgoing → List Byte)

-- The two writes of writeFrame.
def pieces (f : Outgoing) : List (List Byte) :=
  [putUint32 (marshal f).length, marshal f]

-- The limit of writeFrame, behind the lock.
def lock (s : Server) (f : Outgoing) : Except Text Server :=
  if maxResponseFrame < (marshal f).length then
    .error (errTooLarge (marshal f).length)
  else .ok { s with wmu := some (f, false) }

def writeHeader (s : Server) (f : Outgoing) : Server :=
  { s with wmu := some (f, true), writes := s.writes ++ [putUint32 (marshal f).length] }

def writeBody (s : Server) (f : Outgoing) : Server :=
  { s with wmu := none, writes := s.writes ++ [marshal f], sent := s.sent ++ [f] }

/-- The next step of the goroutine that runs Serve. -/
def mainStep (s : Server) : Option Server :=
  match s.main with
  | .opening =>
    if s.poolSize < 1 ∨ maxPoolSize < s.poolSize then
      some { s with main := .refused (errPoolSize s.poolSize) }
    else some { s with main := .announcing }
  | .announcing =>
    if s.wmu.isSome then none
    else
      match s.lock marshal s.hello with
      | .error err => some { s with main := .refused err }
      | .ok s => some { s with main := .helloHeader }
  | .helloHeader => some { s.writeHeader marshal s.hello with main := .helloBody }
  | .helloBody => some { s.writeBody marshal s.hello with main := .reading }
  | .reading =>
    match s.input with
    | [] => some { s with main := .stopping none }
    | .submit req :: rest => some { s with main := .registering req, input := rest }
    | .cancel id :: rest => some { s with main := .cancelling id, input := rest }
    | .other op :: rest => some { s with main := .stopping (some (errUnknownOp op)), input := rest }
    | .malformed err :: rest => some { s with main := .stopping (some err), input := rest }
  | .registering req =>
    if s.cancels.any (·.1 = req.id) then
      some { s with main := .stopping (some (errDuplicate req.id)) }
    else some { s with
      cancels := s.cancels ++ [(req.id, s.jobs.length)]
      jobs := s.jobs ++ [⟨req, .unborn⟩]
      main := .spawning s.jobs.length }
  | .spawning j =>
    match s.jobs[j]? with
    | some ⟨req, .unborn⟩ =>
      some { s with wg := s.wg + 1, jobs := s.jobs.set j ⟨req, .submitting⟩, main := .reading }
    | _ => none
  | .cancelling id =>
    some { s.cancel (s.cancels.filter (·.1 = id)) with main := .reading }
  | .stopping err => some { s.cancel s.cancels with main := .joining err }
  | .joining err =>
    if s.wg = 0 then some { s with main := .returned (err.elim s.sendErr ([·])) } else none
  | .refused _ | .returned _ => none

/-- The next step of a submit's goroutine, apart from what Submit and Wait do. -/
def jobStep (s : Server) (j : Nat) (job : Job) : Option Server :=
  let at_ (s : Server) (stage : Stage) : Server := { s with jobs := s.jobs.set j ⟨job.req, stage⟩ }
  match job.stage with
  | .ran r => some { at_ s (.deleted r) with cancels := s.cancels.filter (·.1 ≠ job.req.id) }
  | .deleted r => some (at_ (s.cancel [(job.req.id, j)]) (.sending r))
  | .sending r =>
    if s.wmu.isSome then none
    else
      match s.lock marshal (answer job.req r) with
      | .error err => some (at_ s (.unsent err))
      | .ok s => some (at_ s (.header r))
  | .header r => some (at_ (s.writeHeader marshal (answer job.req r)) (.body r))
  | .body r => some (at_ (s.writeBody marshal (answer job.req r)) (.leaving (some r)))
  | .unsent err => some { at_ s (.leaving none) with sendErr := s.sendErr ++ [err] }
  | .leaving answered => some { at_ s (.halted answered) with wg := s.wg - 1 }
  | _ => none

/-- A write returns an error. -/
def refuse (s : Server) (err : Text) : Option Server :=
  match s.main with
  | .helloHeader | .helloBody => some { s with wmu := none, main := .refused err }
  | _ =>
    let writes (job : Job) : Bool := match job.stage with | .header _ | .body _ => true | _ => false
    (s.jobs.find? writes).map fun job => { s with
      wmu := none
      jobs := s.jobs.set (s.jobs.findIdx writes) { job with stage := .unsent err } }

def step (s : Server) : Act → Option Server
  | .main => s.mainStep marshal
  | .job j => (s.jobs[j]?).bind (s.jobStep marshal j)
  | .submitted j answer =>
    match s.jobs[j]? with
    | some ⟨req, .submitting⟩ =>
      let stage := match answer with
        | .ok ticket => .waiting ticket
        | .error err => .ran ⟨[], some err⟩
      some { s with jobs := s.jobs.set j ⟨req, stage⟩ }
    | _ => none
  | .answered j r =>
    match s.jobs[j]? with
    | some ⟨req, .waiting _⟩ => some { s with jobs := s.jobs.set j ⟨req, .ran r⟩ }
    | _ => none
  | .expire j =>
    match s.jobs[j]? with
    | some job =>
      if (requestContext job.req).timeout.isSome ∧ s.ended j = none then
        some { s with ended := Function.update s.ended j (some .deadlineExceeded) }
      else none
    | none => none
  | .refuse err => s.refuse err

end

end Server

/-- What the handle and the writer do: answers that the handle may give, and a writer that accepts
every frame. -/
def Act.allowed (h : Caller) (s : Server) : Act → Prop
  | .submitted j answer => ∃ job, s.jobs[j]? = some job ∧
      h.submit (requestContext job.req) (s.ended j) job.req.input answer
  | .answered j r => ∃ job ticket, s.jobs[j]? = some job ∧ job.stage = .waiting ticket ∧
      h.wait (requestContext job.req) (s.ended j) ticket r
  | .refuse _ => False
  | _ => True

/-- `n` steps of Serve on this handle. -/
inductive Runs (h : Caller) (marshal : Outgoing → List Byte) (s : Server) : Nat → Server → Prop
  | start : Runs h marshal s 0 s
  | step {n : Nat} {t u : Server} {a : Act} : Runs h marshal s n t → a.allowed h t →
      t.step marshal a = some u → Runs h marshal s (n + 1) u

end Gusset.Isolate.Serve
