import Gusset.Foundation.GoMap

/-! The part of `handleState` that `mu` guards, the semaphore, the two flags the sections under
`mu` read, and the functions of tickets.go, wait.go and drain.go that run under `mu`. -/
namespace Gusset.Handle
open Foundation

abbrev Ticket := Nat
abbrev TakeId := Nat
abbrev Bytes := List (BitVec 8)

/-- The errors the modelled calls return. `readerStopped` and `drainStopped` are `ErrClosed` and
`errDrainClosed` carrying the reader's failure (`drainExitError`). -/
inductive Err
  | closed | readerStopped | drainClosed | drainStopped
  | unknownTicket | ticketBusy | tooManyUncollected
  | poisoned | panic | ctx | input | engine (code : Nat)
  deriving DecidableEq, Repr

def Err.isClosed : Err → Bool
  | .closed | .readerStopped | .drainClosed | .drainStopped => true
  | _ => false

structure CallResult where
  data : Bytes
  err : Option Err
  deriving DecidableEq, Repr

structure Config where
  poolSize : Nat
  maxUncollected : Nat

/-- `sem` counts the permits in the channel, whose capacity is the pool size. An entry of
`pending` is the waiter's channel, or none once an outcome was sent. `waitChans` has its last
element first. An absent entry of `takeIDs` reads as 0, and 0 is never stored. `chan` is the
one-slot buffer of each result channel, `made` how many were made. -/
structure Shared where
  sem : Nat
  closed : Bool
  drainExited : Bool
  drainErr : Bool
  pending : GoMap Ticket (Option Nat)
  waitChans : List Nat
  completed : GoMap Ticket CallResult
  semTickets : Finset Ticket
  abandoned : Finset Ticket
  takeIDs : Ticket → TakeId
  uncollected : Bool
  chan : Nat → Option CallResult
  made : Nat

namespace Shared

def opened : Shared where
  sem := 0
  closed := false
  drainExited := false
  drainErr := false
  pending := ⟨∅, fun _ => none⟩
  waitChans := []
  completed := ⟨∅, fun _ => ⟨[], none⟩⟩
  semTickets := ∅
  abandoned := ∅
  takeIDs := fun _ => 0
  uncollected := false
  chan := fun _ => none
  made := 0

def closedErr (s : Shared) : Err := if s.drainErr then .readerStopped else .closed

def waitChanLocked (s : Shared) : Nat × Shared :=
  match s.waitChans with
  | c :: rest => (c, { s with waitChans := rest })
  | [] => (s.made, { s with made := s.made + 1 })

def recycleWaitChanLocked (cap : Nat) (s : Shared) (c : Nat) : Shared :=
  if (s.chan c).isNone && s.waitChans.length < cap then { s with waitChans := c :: s.waitChans }
  else s

def popTakeIDLocked (s : Shared) (t : Ticket) : TakeId × Shared :=
  (s.takeIDs t, { s with takeIDs := Function.update s.takeIDs t 0 })

def notifyUncollectedLocked (s : Shared) : Shared := { s with uncollected := true }

-- The ids come as a multiset: the loop ranges over a map, in no fixed order.
def takeUnclaimedLocked (s : Shared) : Multiset TakeId × Shared :=
  ((s.completed.keys.val.map s.takeIDs).filter (· ≠ 0),
    notifyUncollectedLocked { s with
      takeIDs := fun t => if t ∈ s.completed.keys then 0 else s.takeIDs t
      completed := s.completed.clear })

/-- `releaseSemLocked` up to its receive; true says that the receive is still to be made. -/
def releaseSemLocked (s : Shared) (t : Ticket) : Bool × Shared :=
  if t ∈ s.semTickets then (true, { s with semTickets := s.semTickets.erase t }) else (false, s)

def collectLocked (s : Shared) (t : Ticket) : TakeId × Bool × Shared :=
  let popped := popTakeIDLocked { s with pending := s.pending.erase t } t
  let released := releaseSemLocked popped.2 t
  (popped.1, released.1, released.2)

inductive Claim
  | done (res : CallResult) (takeID : TakeId) (owes : Bool)
  | refused (err : Err)
  | live
  deriving DecidableEq

def claimLocked (s : Shared) (t : Ticket) : Claim × Shared :=
  match s.completed.lookup t with
  | some res =>
    let c := collectLocked (notifyUncollectedLocked { s with completed := s.completed.erase t }) t
    (.done res c.1 c.2.1, c.2.2)
  | none =>
    if t ∈ s.abandoned then (.refused .unknownTicket, s)
    else if s.closed || s.drainExited then (.refused s.closedErr, s)
    else if t ∉ s.semTickets then (.refused .unknownTicket, s)
    else if t ∈ s.pending.keys then (.refused .ticketBusy, s)
    else (.live, s)

-- The rest of waitInternal's first section, once the claim found the ticket live.
def registerLocked (s : Shared) (t : Ticket) : Nat × Shared :=
  let w := waitChanLocked s
  (w.1, { w.2 with pending := w.2.pending.insert t (some w.1) })

def abandonLocked (s : Shared) (t : Ticket) : Shared :=
  { s with abandoned := insert t s.abandoned }

def receive (s : Shared) (c : Nat) : Shared := { s with chan := Function.update s.chan c none }

-- The default branch of waitInternal's last section: nothing was sent, the caller detaches.
def detachLocked (cap : Nat) (s : Shared) (t : Ticket) (c : Nat) : Shared :=
  abandonLocked (recycleWaitChanLocked cap { s with pending := s.pending.erase t } c) t

-- `held` says that the permit is given back after `mu` is released.
inductive Route
  | binned (held : Bool)
  | sent
  | stored (held : Bool)
  deriving DecidableEq

def noteTake (s : Shared) (t : Ticket) (takeID : TakeId) : Shared :=
  if takeID ≠ 0 then { s with takeIDs := Function.update s.takeIDs t takeID } else s

def deliver (s : Shared) (t : Ticket) (res : CallResult) (takeID : TakeId) : Route × Shared :=
  if t ∈ s.abandoned then
    (.binned (decide (t ∈ s.semTickets)),
      { s with abandoned := s.abandoned.erase t, semTickets := s.semTickets.erase t })
  else
    match s.pending.lookup t with
    | some (some c) =>
      (.sent, { s.noteTake t takeID with pending := s.pending.insert t none
                                         chan := Function.update s.chan c (some res) })
    | _ =>
      (.stored (decide (t ∈ s.semTickets)),
        { s.noteTake t takeID with completed := s.completed.insert t res
                                   semTickets := s.semTickets.erase t })

-- A send to a channel that still holds a value would block with `mu` held.
def roomFor (s : Shared) (t : Ticket) : Bool :=
  match s.pending.lookup t with
  | some (some c) => (s.chan c).isNone
  | _ => true

def sendReady (s : Shared) (t : Ticket) : Bool := decide (t ∈ s.abandoned) || s.roomFor t

-- submitInput's section after `ffi.Submit`; true says that the permit is given back after `mu`.
def insertLocked (s : Shared) (t : Ticket) : Bool × Shared :=
  if t ∈ s.completed.keys then (true, { s with semTickets := (insert t s.semTickets).erase t })
  else (false, { s with semTickets := insert t s.semTickets })

-- The channels the reader's exit sends to: the non-nil entries of `pending`.
def waitedOn (s : Shared) (c : Nat) : Prop :=
  ∃ t ∈ s.pending.keys, s.pending.lookup t = some (some c)

instance (s : Shared) (c : Nat) : Decidable (s.waitedOn c) :=
  inferInstanceAs (Decidable (∃ t ∈ s.pending.keys, s.pending.lookup t = some (some c)))

def stopReading (s : Shared) (waiterErr : Err) : Multiset TakeId × Shared :=
  let sent := { s with
    pending := s.pending.mapVal fun _ => none
    chan := fun c => if s.waitedOn c then some ⟨[], some waiterErr⟩ else s.chan c }
  let taken := if sent.closed then (0, sent) else takeUnclaimedLocked sent
  (taken.1, { taken.2 with drainExited := true, abandoned := ∅ })

def stopReady (s : Shared) : Prop := ∀ t ∈ s.pending.keys, s.roomFor t = true

instance (s : Shared) : Decidable s.stopReady :=
  inferInstanceAs (Decidable (∀ t ∈ s.pending.keys, s.roomFor t = true))

end Shared

end Gusset.Handle
