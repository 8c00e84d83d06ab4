import Gusset.Foundation.Census
import Gusset.Foundation.Reach
import Gusset.Handle.Shared

/-! The ledger of a handle: what every actor holds (a permit, a ticket, a channel), with all
program counters, locks and flags forgotten that decide only when an actor moves. Each
move below is one section under `mu`, one operation on the semaphore, or one exchange with
Rust. -/
namespace Gusset.Handle
open Foundation

inductive Op | wait | waitBuffer
  deriving DecidableEq, Repr

inductive Sink | wait (op : Op) | discard | bin | drop
  deriving DecidableEq, Repr

structure Handover where
  sink : Sink
  result : CallResult
  takeID : TakeId
  deriving DecidableEq, Repr

/-- What happened so far, which no line of the program reads. `accepted` are the tickets
`ffi.Submit` returned, `consumed` those whose completion `next` returned, `delivered` what
`deliver` was called with, `handed` who took a ticket's outcome, `spent` the tickets a Wait or a
Discard ended, `gaveBack` how often a ticket's permit went back. -/
structure History where
  accepted : Finset Ticket
  consumed : Finset Ticket
  returned : Finset Ticket
  spent : Finset Ticket
  delivered : Ticket → Option (CallResult × TakeId)
  handed : Ticket → List Handover
  gaveBack : Ticket → Nat

namespace History

def empty : History := ⟨∅, ∅, ∅, ∅, fun _ => none, fun _ => [], fun _ => 0⟩

def accept (h : History) (t : Ticket) : History := { h with accepted := insert t h.accepted }
def consume (h : History) (t : Ticket) : History := { h with consumed := insert t h.consumed }
def ret (h : History) (t : Ticket) : History := { h with returned := insert t h.returned }
def spend (h : History) (t : Ticket) : History := { h with spent := insert t h.spent }

def deliver (h : History) (t : Ticket) (res : CallResult) (id : TakeId) : History :=
  { h with delivered := Function.update h.delivered t (some (res, id)) }

def hand (h : History) (t : Ticket) (x : Handover) : History :=
  { h with handed := Function.update h.handed t (x :: h.handed t) }

def giveBack (h : History) (t : Ticket) : History :=
  { h with gaveBack := Function.update h.gaveBack t (h.gaveBack t + 1) }

-- Every stored result is dropped at once, at Close or when the reader exits.
def dropAll (h : History) (s : Shared) : History :=
  { h with handed := fun t =>
      match s.completed.lookup t with
      | some res => ⟨.drop, res, s.takeIDs t⟩ :: h.handed t
      | none => h.handed t }

def route (h : History) (t : Ticket) (res : CallResult) (id : TakeId) : Shared.Route → History
  | .binned _ => (h.deliver t res id).hand t ⟨.bin, res, id⟩
  | _ => h.deliver t res id

end History

/-- What a calling goroutine holds. -/
inductive Role
  | idle
  | holding
  | carrying (t : Ticket)
  | issued (t : Ticket)
  | issuedOwing (t : Ticket)
  | owing (t : Ticket)
  | waiting (op : Op) (t : Ticket) (c : Nat)
  | received (op : Op) (t : Ticket) (c : Nat) (res : CallResult)

inductive ReaderRole | away | hand (t : Ticket) | owing (t : Ticket) | gone
inductive CloserRole | idle | closing | sealed | draining | owing (t : Ticket) | done

/-- A give-back still to be made for a ticket already deleted from `semTickets`. -/
def debt (owes : Bool) (t : Ticket) : Role := if owes then .owing t else .idle

structure Ledger where
  sh : Shared
  hist : History
  roles : List Role
  reader : ReaderRole
  closer : CloserRole

namespace Ledger

def opened : Ledger := ⟨.opened, .empty, [], .away, .idle⟩

/-- Whether a claim on a ticket may run now. The claims restrict it differently. -/
abbrev Guard := Ledger → Ticket → Prop

inductive Move (cap : Nat) (allowed : Guard) : Ledger → Ledger → Prop
  | spawn (L : Ledger) : Move cap allowed L { L with roles := L.roles ++ [.idle] }
  | acquire (L : Ledger) (i : Nat) : L.roles[i]? = some .idle → L.sh.sem < cap →
      Move cap allowed L { L with sh := { L.sh with sem := L.sh.sem + 1 }
                                  roles := L.roles.set i .holding }
  | giveBack (L : Ledger) (i : Nat) : L.roles[i]? = some .holding → 0 < L.sh.sem →
      Move cap allowed L { L with sh := { L.sh with sem := L.sh.sem - 1 }
                                  roles := L.roles.set i .idle }
  | accept (L : Ledger) (i : Nat) (t : Ticket) : L.roles[i]? = some .holding →
      t ∉ L.hist.accepted → L.closer = .idle ∨ L.closer = .closing →
      Move cap allowed L { L with hist := L.hist.accept t, roles := L.roles.set i (.carrying t) }
  | insert (L : Ledger) (i : Nat) (t : Ticket) : L.roles[i]? = some (.carrying t) →
      Move cap allowed L { L with
        sh := (L.sh.insertLocked t).2
        roles := L.roles.set i (if (L.sh.insertLocked t).1 then .issuedOwing t else .issued t) }
  | release (L : Ledger) (i : Nat) (t : Ticket) : L.roles[i]? = some (.issuedOwing t) →
      0 < L.sh.sem →
      Move cap allowed L { L with sh := { L.sh with sem := L.sh.sem - 1 }
                                  hist := L.hist.giveBack t, roles := L.roles.set i (.issued t) }
  | ret (L : Ledger) (i : Nat) (t : Ticket) : L.roles[i]? = some (.issued t) →
      Move cap allowed L { L with hist := L.hist.ret t, roles := L.roles.set i .idle }
  | claim (L : Ledger) (i : Nat) (t : Ticket) (sink : Sink) (res : CallResult) (id : TakeId)
      (owes : Bool) (sh : Shared) : L.roles[i]? = some .idle → allowed L t →
      L.sh.claimLocked t = (.done res id owes, sh) →
      Move cap allowed L { L with sh := sh, hist := (L.hist.hand t ⟨sink, res, id⟩).spend t
                                  roles := L.roles.set i (debt owes t) }
  | register (L : Ledger) (i : Nat) (t : Ticket) (op : Op) : L.roles[i]? = some .idle →
      allowed L t → (L.sh.claimLocked t).1 = .live →
      Move cap allowed L { L with sh := (L.sh.registerLocked t).2
                                  roles := L.roles.set i
                                    (.waiting op t (L.sh.registerLocked t).1) }
  | discard (L : Ledger) (i : Nat) (t : Ticket) : L.roles[i]? = some .idle →
      allowed L t → (L.sh.claimLocked t).1 = .live →
      Move cap allowed L { L with sh := L.sh.abandonLocked t, hist := L.hist.spend t }
  | receive (L : Ledger) (i : Nat) (op : Op) (t : Ticket) (c : Nat) (res : CallResult) :
      L.roles[i]? = some (.waiting op t c) → L.sh.chan c = some res →
      Move cap allowed L { L with sh := L.sh.receive c
                                  roles := L.roles.set i (.received op t c res) }
  | collect (L : Ledger) (i : Nat) (op : Op) (t : Ticket) (c : Nat) (res : CallResult)
      (id : TakeId) (owes : Bool) (sh : Shared) :
      L.roles[i]? = some (.received op t c res) →
      (L.sh.recycleWaitChanLocked cap c).collectLocked t = (id, owes, sh) →
      Move cap allowed L { L with sh := sh, hist := (L.hist.hand t ⟨.wait op, res, id⟩).spend t
                                  roles := L.roles.set i (debt owes t) }
  | detach (L : Ledger) (i : Nat) (op : Op) (t : Ticket) (c : Nat) :
      L.roles[i]? = some (.waiting op t c) → L.sh.chan c = none →
      Move cap allowed L { L with sh := L.sh.detachLocked cap t c, hist := L.hist.spend t
                                  roles := L.roles.set i .idle }
  | payBack (L : Ledger) (i : Nat) (t : Ticket) : L.roles[i]? = some (.owing t) → 0 < L.sh.sem →
      Move cap allowed L { L with sh := { L.sh with sem := L.sh.sem - 1 }
                                  hist := L.hist.giveBack t, roles := L.roles.set i .idle }
  | consume (L : Ledger) (t : Ticket) : L.reader = .away → t ∈ L.hist.accepted →
      t ∉ L.hist.consumed →
      Move cap allowed L { L with hist := L.hist.consume t, reader := .hand t }
  | deliver (L : Ledger) (t : Ticket) (res : CallResult) (id : TakeId) (route : Shared.Route)
      (sh : Shared) : L.reader = .hand t → L.sh.sendReady t = true →
      L.sh.deliver t res id = (route, sh) →
      Move cap allowed L { L with
        sh := sh
        hist := L.hist.route t res id route
        reader := match route with
          | .binned true | .stored true => .owing t
          | _ => .away }
  | readerPays (L : Ledger) (t : Ticket) : L.reader = .owing t → 0 < L.sh.sem →
      Move cap allowed L { L with sh := { L.sh with sem := L.sh.sem - 1 }
                                  hist := L.hist.giveBack t, reader := .away }
  | stop (L : Ledger) (waiterErr : Err) : L.reader = .away → waiterErr.isClosed = true →
      L.sh.stopReady →
      Move cap allowed L { L with
        sh := (L.sh.stopReading waiterErr).2
        hist := if L.sh.closed then L.hist else L.hist.dropAll L.sh
        reader := .gone }
  | close (L : Ledger) : L.closer = .idle →
      Move cap allowed L { L with sh := { L.sh with closed := true }, closer := .closing }
  | lock (L : Ledger) : L.closer = .closing → (∀ t, Role.carrying t ∉ L.roles) →
      Move cap allowed L { L with closer := .sealed }
  | dropUnclaimed (L : Ledger) : L.closer = .sealed →
      Move cap allowed L { L with sh := L.sh.takeUnclaimedLocked.2, hist := L.hist.dropAll L.sh }
  | drain (L : Ledger) : L.closer = .sealed → L.reader = .gone →
      Move cap allowed L { L with sh := { L.sh.takeUnclaimedLocked.2 with abandoned := ∅ }
                                  hist := L.hist.dropAll L.sh, closer := .draining }
  | drainTicket (L : Ledger) (t : Ticket) : L.closer = .draining → t ∈ L.sh.semTickets →
      Move cap allowed L { L with sh := { L.sh with semTickets := L.sh.semTickets.erase t }
                                  closer := .owing t }
  | closerPays (L : Ledger) (t : Ticket) : L.closer = .owing t → 0 < L.sh.sem →
      Move cap allowed L { L with sh := { L.sh with sem := L.sh.sem - 1 }
                                  hist := L.hist.giveBack t, closer := .draining }
  | drained (L : Ledger) : L.closer = .draining → L.sh.semTickets = ∅ →
      Move cap allowed L { L with closer := .done }
  | note (L : Ledger) (drainErr uncollected : Bool) :
      Move cap allowed L { L with sh := { L.sh with drainErr := drainErr
                                                    uncollected := uncollected } }

end Ledger

end Gusset.Handle
