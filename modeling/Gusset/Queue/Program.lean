import Gusset.Foundation.Reach
import Gusset.Foundation.Census

/-! The job queue: `JobQueue::push`, `JobQueue::close` and `JobQueue::pop`, one access to the memory
the threads share a step. A lock is taken in the step that first uses what it guards. -/
namespace Gusset.Queue
open Foundation

variable {α : Type}

/-- `JobQueue<T>` with the `State<T>` behind its lock. `closed` is the field behind the lock and
`shut` the atomic beside it. `accepted` has the units in the order they were queued, `taken` the
units in the order they left with the thread that took each, and `handed` what `pop` returned. -/
structure JobQueue (α : Type) where
  cap : Nat
  lock : Bool
  items : List α
  closed : Bool
  sleepers : Nat
  spinning : Nat
  queued : Nat
  shut : Bool
  closes : Nat
  accepted : List α
  taken : List (Nat × α)
  handed : List (Nat × α)

def JobQueue.new (cap : Nat) : JobQueue α :=
  ⟨max cap 1, false, [], false, 0, 0, 0, false, 0, [], [], []⟩

inductive PushError (α : Type)
  | full (item : α)
  | closed (item : α)
  deriving DecidableEq, Repr

/-- Where a thread stands. `push` keeps its argument to the end, `pop` counts its polls in a
`u32`. -/
inductive Thread (α : Type)
  | idle
  | pushing (item : α)
  | storing (item : α)
  | deciding (item : α)
  | unlocking (item : α) (wake : Bool)
  | notifying (item : α)
  | pushed (item : α) (result : Except (PushError α) Unit)
  | polling (polls : Nat)
  | trying (polls : Nat)
  | checking (polls : Nat)
  | again (polls : Nat)
  | fastStore (item : α)
  | fastLeave (item : α)
  | fastUnlock (item : α)
  | leaving
  | locking
  | slowStore (item : α)
  | slowUnlock (item : α)
  | asleep (notified : Bool)
  | awake (notified : Bool)
  | popped (result : Option α)
  | closing
  | shutting
  | rousing
  deriving DecidableEq

/-- What the machine decides for a step: whether `try_lock` fails although it might not have,
whether the polling window is over, whom `notify_one` wakes. -/
structure Choice where
  busy : Bool
  spent : Bool
  target : Nat

namespace JobQueue

/-- `push_back`, by a thread that holds the lock from here on. -/
def enqueue (q : JobQueue α) (item : α) : JobQueue α :=
  { q with lock := true, items := q.items ++ [item], accepted := q.accepted ++ [item] }

/-- `pop_front` of a nonempty queue, by a thread that holds the lock from here on. -/
def dequeue (q : JobQueue α) (i : Nat) (item : α) (rest : List α) : JobQueue α :=
  { q with lock := true, items := rest, taken := q.taken ++ [(i, item)] }

-- `self.queued.store(st.items.len())`.
def store (q : JobQueue α) : JobQueue α := { q with queued := q.items.length }

-- The guard is dropped and `pop` returns.
def handOut (q : JobQueue α) (i : Nat) (item : α) : JobQueue α :=
  { q with lock := false, handed := q.handed ++ [(i, item)] }

/-- The loop of `pop` behind the lock, up to the store of `queued` or to the wait. -/
def slow (q : JobQueue α) (i : Nat) : JobQueue α × Thread α :=
  match q.items with
  | item :: rest => (q.dequeue i item rest, .slowStore item)
  | [] =>
    if q.closed then (q, .popped none)
    else ({ q with sleepers := q.sleepers + 1 }, .asleep false)

/-- The check of `push` behind the lock, up to the store of `queued` or to the refusal. -/
def admitItem (q : JobQueue α) (item : α) : JobQueue α × Thread α :=
  if q.closed then (q, .pushed item (.error (.closed item)))
  else if q.cap ≤ q.items.length then (q, .pushed item (.error (.full item)))
  else (q.enqueue item, .storing item)

end JobQueue

/-- Which sleepers a step wakes. -/
inductive Wake
  | nobody | one (j : Nat) | all
  deriving DecidableEq

/-- A thread's next access. `none` where the thread waits: for the lock, for a wake or for a
call. -/
def Thread.step (q : JobQueue α) (i : Nat) (c : Choice) :
    Thread α → Option (JobQueue α × Thread α × Wake)
  | .pushing item =>
    if q.lock then none
    else
      let r := q.admitItem item
      some (r.1, r.2, .nobody)
  | .storing item => some (q.store, .deciding item, .nobody)
  | .deciding item =>
    some (q, .unlocking item (0 < q.sleepers && q.spinning < q.items.length), .nobody)
  | .unlocking item wake =>
    some ({ q with lock := false }, if wake then .notifying item else .pushed item (.ok ()), .nobody)
  | .notifying item => some (q, .pushed item (.ok ()), .one c.target)
  | .polling n => some (q, if 0 < q.queued then .trying n else .checking n, .nobody)
  | .trying n =>
    if q.lock || c.busy then some (q, .again n, .nobody)
    else
      match q.items with
      | item :: rest => some (q.dequeue i item rest, .fastStore item, .nobody)
      | [] => some (q, .again n, .nobody)
  | .checking n => some (q, if q.shut then .leaving else .again n, .nobody)
  | .again n =>
    let polls := (n + 1) % 2 ^ 32
    some (q, if polls % 32 = 0 ∧ c.spent then .leaving else .polling polls, .nobody)
  | .fastStore item => some (q.store, .fastLeave item, .nobody)
  | .fastLeave item => some ({ q with spinning := q.spinning - 1 }, .fastUnlock item, .nobody)
  | .fastUnlock item => some (q.handOut i item, .popped (some item), .nobody)
  | .leaving => some ({ q with spinning := q.spinning - 1 }, .locking, .nobody)
  | .locking =>
    if q.lock then none
    else
      let r := q.slow i
      some (r.1, r.2, .nobody)
  | .slowStore item => some (q.store, .slowUnlock item, .nobody)
  | .slowUnlock item => some (q.handOut i item, .popped (some item), .nobody)
  | .asleep notified => some (q, .awake notified, .nobody)
  | .awake _ =>
    if q.lock then none
    else
      let r := { q with sleepers := q.sleepers - 1 }.slow i
      some (r.1, r.2, .nobody)
  | .closing => if q.lock then none else some ({ q with closed := true }, .shutting, .nobody)
  | .shutting => some ({ q with shut := true }, .rousing, .nobody)
  | .rousing => some (q, .idle, .all)
  | .idle | .pushed _ _ | .popped _ => none

namespace Thread

-- In the condvar's wait, with no notification for it yet.
def waits : Thread α → Bool
  | .asleep false => true
  | _ => false

def rouse : Thread α → Thread α
  | .asleep _ => .asleep true
  | p => p

-- Outside `push`, `pop` and `close`.
def outside : Thread α → Bool
  | .idle | .pushed _ _ | .popped _ => true
  | _ => false

end Thread

/-- What a notification does to the threads. `notify_one` wakes one of those that wait, if there is
one. -/
def Wake.apply (threads : List (Thread α)) : Wake → Option (List (Thread α))
  | .nobody => some threads
  | .all => some (threads.map Thread.rouse)
  | .one j =>
    if threads.any Thread.waits then
      match threads[j]? with
      | some (.asleep false) => some (threads.set j (.asleep true))
      | _ => none
    else some threads

structure State (α : Type) where
  queue : JobQueue α
  threads : List (Thread α)

inductive Act (α : Type)
  | spawn
  | push (i : Nat) (item : α)
  | pop (i : Nat)
  | close (i : Nat)
  | thread (i : Nat) (c : Choice)

namespace State

def new (cap : Nat) : State α := ⟨.new cap, []⟩

-- Thread `i` makes a call.
def call (s : State α) (i : Nat) (q : JobQueue α) (p : Thread α) : Option (State α) :=
  match s.threads[i]? with
  | some p' => if p'.outside then some ⟨q, s.threads.set i p⟩ else none
  | none => none

def threadStep (s : State α) (i : Nat) (c : Choice) : Option (State α) :=
  (s.threads[i]?).bind fun p =>
    (p.step s.queue i c).bind fun r =>
      (r.2.2.apply (s.threads.set i r.2.1)).map fun threads => ⟨r.1, threads⟩

def step (s : State α) : Act α → Option (State α)
  | .spawn => some { s with threads := s.threads ++ [.idle] }
  | .push i item => s.call i s.queue (.pushing item)
  | .pop i => s.call i { s.queue with spinning := s.queue.spinning + 1 } (.polling 0)
  | .close i => s.call i { s.queue with closes := s.queue.closes + 1 } .closing
  | .thread i c => s.threadStep i c

end State

def Reaches (cap : Nat) : State α → Prop :=
  Reachable (· = .new cap) fun s t => ∃ a, s.step a = some t

/-- A run given by its actions. -/
def follows (s : State α) (acts : List (Act α)) : Option (State α) :=
  follow State.step s acts

theorem follows_reaches {cap : Nat} {s t : State α} {acts : List (Act α)}
    (reach : Reaches cap s) (run : follows s acts = some t) : Reaches cap t :=
  reach.follow (fun _ a _ went => ⟨a, went⟩) run

end Gusset.Queue
