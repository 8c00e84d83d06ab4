import Gusset.Handle.Program

/-! buffer.go over the calls of its handle: NewBuffer, Bytes, Free and the cleanup of a `*Buffer`
nobody freed, with every access to Rust named. `readers` of the handle counts the read locks of its
own calls; those of the calls here are where these stand. -/
namespace Gusset.Buffer
open Foundation
open Handle (Ticket TakeId Bytes Err)

-- `MaxBufferBytes`.
def maxBufferBytes : Int := 2 ^ 30

-- What an `int64` keeps of a sum.
def int64 (x : Int) : Int := x.bmod (2 ^ 64)

/-- What buffer.go answers beside what Rust does: `ErrBadArg`, `ErrBufferBudget`, `ErrClosed`,
`errHandlePoisoned`. -/
inductive Refusal | badArg | budget | closed | poisoned | rust (e : Err)
  deriving DecidableEq, Repr

/-- A `*Buffer`; `collected` says that it has become unreachable. -/
structure Buf where
  id : TakeId
  data : Option Bytes
  freed : Bool
  budgeted : Nat
  collected : Bool
  deriving DecidableEq, Repr

-- The section of Free under `b.mu`, once its swap is won.
def Buf.withdraw (x : Buf) : Buf :=
  { x with freed := true, data := if x.id = 0 then x.data else none }

inductive Answer | buffer (b : Nat) | view (data : Option Bytes) | ok | err (e : Refusal)
  deriving DecidableEq, Repr

/-- What a call here enters Rust for. -/
inductive Visit | alloc (n charge : Nat) | bytes (b : Nat) | free (id : TakeId) (charge : Nat)
  deriving DecidableEq, Repr

/-- Where a call here stands. -/
inductive Pc
  | size (n : Int) | closed (n : Nat) | poisoned (n : Nat) | reserve (n : Nat)
  | exchange (n : Nat) (cur : Int)
  | bufAlloc (n charge : Nat) | make (id : TakeId) (data : Bytes) (charge : Nat)
  | refund (charge : Nat) (out : Answer) | refused (charge : Nat) (e : Err) | latch (e : Err)
  | heap (b : Nat) | swap (b : Nat)
  | enterClosed (v : Visit) | tryRLock (v : Visit) | enterPtr (v : Visit) | inside (v : Visit)
  | unlock (after : Pc)
  | done (out : Answer)
  deriving DecidableEq, Repr

def Visit.failed : Visit → Pc
  | .alloc _ charge => .refund charge (.err .closed)
  | .bytes _ => .done (.view none)
  | .free _ charge => .refund charge .ok

-- Read locks of `cgoMu`.
def Pc.locks : Pc → Nat
  | .enterPtr _ | .inside _ | .bufAlloc _ _ => 1
  | .unlock after => 1 + after.locks
  | _ => 0

-- A call on a `*Buffer` keeps it reachable as long as it still reads it.
def Pc.refers (b : Nat) : Pc → Bool
  | .heap x | .swap x => x = b
  | .enterClosed (.bytes x) | .tryRLock (.bytes x) | .enterPtr (.bytes x) | .inside (.bytes x) =>
    x = b
  | _ => false

/-- An access to Rust: a call on `s.ptr`, or a read of its memory. -/
inductive Crossing
  | submit | cancel (t : Ticket) | cancelAll | take (t : Ticket) (id : TakeId)
  | bufAlloc (id : TakeId) | bufFree (id : TakeId) | handleClose
  | copy (id : TakeId) | wrap (id : TakeId) | view (id : TakeId)
  deriving DecidableEq, Repr

/-- Where Rust handed a buffer id over: as a result, or to NewBuffer. -/
inductive Origin | take (t : Ticket) | alloc
  deriving DecidableEq, Repr

structure Config where
  handle : Handle.Config
  bufBudget : Nat

/-- A handle, its `*Buffer`s and the calls on them. `origin` and `frees` are what no line of the
program reads: which ids Rust handed over and how often each was freed. -/
structure State where
  base : Handle.State
  bufs : List Buf
  users : List Pc
  bufBytes : Int
  origin : TakeId → Option Origin
  frees : TakeId → Nat

inductive Choice | go | alloc (id : TakeId) (data : Bytes) | refuse (e : Err) | freed (e : Option Err)
  deriving DecidableEq, Repr

inductive Act
  | base (a : Handle.Act) | newBuffer (n : Int) | bytes (b : Nat) | free (b : Nat) | collect (b : Nat)
  | user (i : Nat) (c : Choice)
  deriving DecidableEq, Repr

/-- The access a caller of the handle makes in its next step. -/
def callerCrossing : Handle.Pc → Option Crossing
  | .ffiSubmit => some .submit
  | .inside (.cancel _ t _) => some (.cancel t)
  | .inside (.view .wait _ id) => some (.copy id)
  | .inside (.view .waitBuffer _ id) => some (.wrap id)
  | .inside (.free id _) => some (.bufFree id)
  | _ => none

def readerCrossing : Handle.ReaderPc → Handle.ReadChoice → Option Crossing
  | .take t, .took _ id => some (.take t id)
  | .take t, .takeFailed _ => some (.take t 0)
  | .inside (.binFree id _ _), .go | .inside (.exitFree id _), .go => some (.bufFree id)
  | _, _ => none

def closerCrossing : Handle.ClosePc → Handle.CloseChoice → Option Crossing
  | .cancelAll, .go => some .cancelAll
  | .freeing _, .free id => some (.bufFree id)
  | .handleClose, .result _ => some .handleClose
  | _, _ => none

def crossing (s : Handle.State) : Handle.Act → Option Crossing
  | .thread i _ => (s.threads[i]?).bind fun th => callerCrossing th.pc
  | .reader c => readerCrossing s.reader c
  | .closer c => closerCrossing s.closer c
  | _ => none

/-- The `*Buffer` a step of WaitBuffer makes: `newBufferFromRaw`, or `adoptHeapBuffer`. -/
def made (s : Handle.State) : Handle.Pc → List Buf
  | .inside (.view .waitBuffer data id) => [⟨id, some data, false, 0, false⟩]
  | .bufClosed data =>
    if s.sh.closed then [] else [⟨0, if data = [] then none else some data, false, 0, false⟩]
  | _ => []

namespace State

def opened : State := ⟨.opened, [], [], 0, fun _ => none, fun _ => 0⟩

/-- The books of an access. -/
def cross (s : State) : Option Crossing → State
  | some (.take t id) =>
    if id = 0 then s else { s with origin := Function.update s.origin id (some (.take t)) }
  | some (.bufAlloc id) => { s with origin := Function.update s.origin id (some .alloc) }
  | some (.bufFree id) => { s with frees := Function.update s.frees id (s.frees id + 1) }
  | _ => s

-- The section of Bytes under `b.mu`.
def view (s : State) (b : Nat) : Option Bytes :=
  match s.bufs[b]? with
  | some x => if x.freed ∨ s.base.sh.closed then none else x.data
  | none => none

/-- The access a call here makes in its next step. -/
def userCrossing (s : State) : Pc → Choice → Option Crossing
  | .bufAlloc _ _, .alloc id _ => some (.bufAlloc id)
  | .bufAlloc _ _, .refuse _ => some (.bufAlloc 0)
  | .inside (.bytes b), .go => (s.bufs[b]?).map fun x => .view x.id
  | .inside (.free id _), .freed _ => some (.bufFree id)
  | _, _ => none

/-- allocBuffer, but for `enterCgo`. -/
def allocStep (cfg : Config) (s : State) : Pc → Choice → Option (State × Pc)
  | .size n, .go =>
    some (s, if n ≤ 0 ∨ maxBufferBytes < n then .done (.err .badArg) else .closed n.toNat)
  | .closed n, .go => some (s, if s.base.sh.closed then .done (.err .closed) else .poisoned n)
  | .poisoned n, .go => some (s, if s.base.poisoned then .done (.err .poisoned) else .reserve n)
  | .reserve n, .go =>
    if cfg.bufBudget = 0 then some (s, .enterClosed (.alloc n 0))
    else if cfg.bufBudget < int64 (s.bufBytes + n) then some (s, .done (.err .budget))
    else some (s, .exchange n s.bufBytes)
  | .exchange n cur, .go =>
    if s.bufBytes = cur then
      some ({ s with bufBytes := int64 (cur + n) }, .enterClosed (.alloc n n))
    else some (s, .reserve n)
  | .inside (.alloc n charge), .go =>
    some (s, if s.base.poisoned then .unlock (.refund charge (.err .poisoned))
      else .bufAlloc n charge)
  | .bufAlloc n charge, .alloc id data =>
    if id ≠ 0 ∧ s.origin id = none ∧ data.length = n then
      some (s.cross (some (.bufAlloc id)), .unlock (.make id data charge))
    else none
  | .bufAlloc _ charge, .refuse e => some (s, .unlock (.refused charge e))
  | .refused charge e, .go =>
    some ({ s with bufBytes := int64 (s.bufBytes - charge) },
      if e = .poisoned then .latch e else .done (.err (.rust e)))
  | .latch e, .go =>
    some ({ s with base := { s.base with poisoned := true } }, .done (.err (.rust e)))
  | .make id data charge, .go =>
    some ({ s with bufs := s.bufs ++ [⟨id, some data, false, charge, false⟩] },
      .done (.buffer s.bufs.length))
  | _, _ => none

/-- Bytes, Free and the cleanup, but for `enterCgo`. -/
def ownerStep (s : State) : Pc → Choice → Option (State × Pc)
  | .heap b, .go => some (s, .done (.view (s.view b)))
  | .inside (.bytes b), .go => some (s, .unlock (.done (.view (s.view b))))
  | .swap b, .go =>
    match s.bufs[b]? with
    | none => none
    | some x =>
      if x.freed then some (s, .done .ok)
      else some ({ s with bufs := s.bufs.set b x.withdraw },
        if x.id = 0 then .refund x.budgeted .ok else .enterClosed (.free x.id x.budgeted))
  | .inside (.free id charge), .freed e =>
    some (s.cross (some (.bufFree id)), .unlock (.refund charge (match e with
      | some e => .err (.rust e)
      | none => .ok)))
  | .refund charge out, .go => some ({ s with bufBytes := int64 (s.bufBytes - charge) }, .done out)
  | _, _ => none

/-- enterCgo and the RUnlock. -/
def cgoStep (s : State) : Pc → Choice → Option (State × Pc)
  | .enterClosed v, .go => some (s, if s.base.sh.closed then v.failed else .tryRLock v)
  | .tryRLock v, .go => some (s, if s.base.writer = .none then .enterPtr v else v.failed)
  | .enterPtr v, .go =>
    some (s, if s.base.sh.closed ∨ ¬ s.base.ptr then .unlock v.failed else .inside v)
  | .unlock after, .go => some (s, after)
  | _, _ => none

def userStep (cfg : Config) (s : State) (pc : Pc) (c : Choice) : Option (State × Pc) :=
  (allocStep cfg s pc c).or <| (ownerStep s pc c).or <| cgoStep s pc c

/-- Rust hands no id over twice, and Close has `cgoMu` to itself only past the read locks held
here. -/
def fits (s : State) : Handle.Act → Bool
  | .reader (.took _ id) => id = 0 || s.origin id = none
  | .closer .go => s.base.closer ≠ .locking || s.users.all fun pc => pc.locks = 0
  | _ => true

def madeBy (s : State) : Handle.Act → List Buf
  | .thread i _ => (s.base.threads[i]?.map fun th => made s.base th.pc).getD []
  | _ => []

def step (cfg : Config) (s : State) : Act → Option State
  | .base a =>
    if s.fits a then
      (s.base.step cfg.handle a).map fun base =>
        { s.cross (crossing s.base a) with base := base, bufs := s.bufs ++ s.madeBy a }
    else none
  | .newBuffer n => some { s with users := s.users ++ [.size n] }
  | .bytes b =>
    match s.bufs[b]? with
    | none => none
    | some x =>
      if x.collected then none
      else some { s with users := s.users ++ [if x.id = 0 then .heap b else .enterClosed (.bytes b)] }
  | .free b =>
    match s.bufs[b]? with
    | none => none
    | some x => if x.collected then none else some { s with users := s.users ++ [.swap b] }
  | .collect b =>
    match s.bufs[b]? with
    | none => none
    | some x =>
      if x.id = 0 ∨ x.freed ∨ x.collected ∨ s.users.any (Pc.refers b) then none
      else some { s with
        bufs := s.bufs.set b { x with collected := true }
        users := s.users ++ [.enterClosed (.free x.id x.budgeted)] }
  | .user i c =>
    (s.users[i]?).bind fun pc =>
      (userStep cfg s pc c).map fun r => { r.1 with users := r.1.users.set i r.2 }

def crosses (s : State) : Act → Option Crossing
  | .base a => crossing s.base a
  | .user i c => (s.users[i]?).bind fun pc => s.userCrossing pc c
  | _ => none

end State

end Gusset.Buffer
