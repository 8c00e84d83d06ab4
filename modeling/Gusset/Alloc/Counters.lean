import Gusset.Foundation.Census
import Gusset.Foundation.Reach

/-! The allocation counters of alloc.rs: any number of threads in add_live, add_count and dec_live,
each atomic operation one step. Words have 64 bits, and a `fetch_add` wraps. -/
namespace Gusset.Alloc
open Foundation

def usizeMax : Nat := 2 ^ 64 - 1

def saturated : Nat := usizeMax >>> 1

def fastAddMax : Nat := usizeMax >>> 26

def saturatingAdd (a b : Nat) : Nat := min (a + b) usizeMax

def wrappingAdd (a b : Nat) : Nat := (a + b) % 2 ^ 64

def saturatingSub (a b : Nat) : Nat := if a < b then 0 else a - b

def reported (stored : Nat) : Nat := if saturated ≤ stored then usizeMax else stored

inductive Cell | live | count
  deriving DecidableEq, Repr

inductive Call | addLive (size : Nat) | addCount | decLive (size : Nat)
  deriving DecidableEq, Repr

/-- Where a thread stands. `n` is what it adds or takes off, `current` what it saw in the cell,
`next` what its add returned. -/
inductive Pc
  | idle
  | loadLive
  | load (cell : Cell) (n : Nat)
  | fetchAdd (cell : Cell) (n : Nat)
  | exchange (cell : Cell) (n : Nat) (current : Nat)
  | loadPeak (n : Nat) (next : Nat)
  | fetchMax (n : Nat) (next : Nat)
  | loadDec (n : Nat)
  | exchangeDec (n : Nat) (current : Nat)
  deriving DecidableEq, Repr

def Call.pc : Call → Pc
  | .addLive size => if size = 0 then .loadLive else .load .live size
  | .addCount => .load .count 1
  | .decLive size => if size = 0 then .idle else .loadDec size

/-- The three counters and the threads on them. What follows `threads` no line of the program reads:
the sizes of the adds and of the decrements that returned, the size and the answer of each add_live
that returned, whether live has reached `saturated`, and whether a decrement was floored. -/
structure State where
  live : Nat
  count : Nat
  peak : Nat
  threads : List Pc
  adds : Nat
  decs : Nat
  returned : List (Nat × Nat)
  topped : Bool
  floored : Bool
  deriving DecidableEq, Repr

namespace State

def new (threads : Nat) : State := ⟨0, 0, 0, List.replicate threads .idle, 0, 0, [], false, false⟩

def stored (s : State) : Cell → Nat
  | .live => s.live
  | .count => s.count

def store (s : State) (v : Nat) : Cell → State
  | .live => { s with live := v, topped := s.topped || decide (saturated ≤ v) }
  | .count => { s with count := v }

end State

-- Where add_saturating returns to.
def added (n next : Nat) : Cell → Pc
  | .live => .loadPeak n next
  | .count => .idle

def State.finish (s : State) (n next : Nat) : State :=
  { s with adds := s.adds + n, returned := (n, next) :: s.returned }

/-- What decides a step: a call to make, and whether a weak exchange fails for no reason. -/
inductive Choice | call (c : Call) | go | spurious
  deriving DecidableEq, Repr

def threadStep (s : State) : Pc → Choice → Option (State × Pc)
  | .idle, .call c => some (s, c.pc)
  | .loadLive, .go => some (s.finish 0 s.live, .idle)
  | .load cell n, .go =>
    some (s, if s.stored cell < saturated ∧ n ≤ fastAddMax then .fetchAdd cell n
      else .exchange cell n (s.stored cell))
  | .fetchAdd cell n, .go =>
    some (s.store (wrappingAdd (s.stored cell) n) cell,
      added n (saturatingAdd (s.stored cell) n) cell)
  | .exchange cell n current, .go =>
    if saturated ≤ current then some (s, added n current cell)
    else if s.stored cell = current then
      let next := min (saturatingAdd current n) saturated
      some (s.store next cell, added n next cell)
    else some (s, .exchange cell n (s.stored cell))
  | .exchange cell n current, .spurious =>
    if saturated ≤ current then none else some (s, .exchange cell n (s.stored cell))
  | .loadPeak n next, .go =>
    some (if s.peak < next then (s, .fetchMax n next) else (s.finish n next, .idle))
  | .fetchMax n next, .go => some ({ s.finish n next with peak := max s.peak next }, .idle)
  | .loadDec n, .go => some (s, .exchangeDec n s.live)
  | .exchangeDec n current, .go =>
    if s.live = current then
      some ({ s with live := saturatingSub current n, decs := s.decs + n
                     floored := s.floored || decide (current < n) }, .idle)
    else some (s, .exchangeDec n s.live)
  | .exchangeDec n _, .spurious => some (s, .exchangeDec n s.live)
  | _, _ => none

structure Act where
  thread : Nat
  choice : Choice
  deriving DecidableEq, Repr

def step (s : State) (a : Act) : Option State :=
  (s.threads[a.thread]?).bind fun pc =>
    (threadStep s pc a.choice).map fun r => { r.1 with threads := r.1.threads.set a.thread r.2 }

def Steps (s s' : State) : Prop := ∃ a, step s a = some s'

/-- What so many threads can reach from fresh counters. -/
def Reaches (threads : Nat) (s : State) : Prop := Reachable (· = State.new threads) Steps s

end Gusset.Alloc
