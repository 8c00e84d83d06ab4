import Gusset.Wire.Codec

/-! The completion ring: `Ring::new` and `Ring::try_publish` on the Rust side, `ringReady` and
`popRing` on the Go side, one atomic access a step. -/
namespace Gusset.Ring
open Foundation Wire

/-- A number of slots `Ring::new` can produce: a power of two, at least 2, whose slots of 128 bytes
a `Box` can hold. -/
structure Capacity where
  slots : Nat
  pow : ∃ k, slots = 2 ^ k
  two : 2 ≤ slots
  fits : 128 * slots < 2 ^ 63

-- `next_power_of_two`.
def nextPowerOfTwo (n : Nat) : Nat := 2 ^ Nat.clog 2 n

theorem le_nextPowerOfTwo (n : Nat) : n ≤ nextPowerOfTwo n := Nat.le_pow_clog (by decide) n

/-- `Ring::new` up to its allocation, which fails past `isize::MAX` bytes. -/
def Capacity.new (minSlots : Nat) : Option Capacity :=
  let slots := nextPowerOfTwo (max minSlots 2)
  if fits : 128 * slots < 2 ^ 63 then
    some ⟨slots, ⟨_, rfl⟩, Nat.le_trans (Nat.le_max_right _ _) (le_nextPowerOfTwo _), fits⟩
  else none

namespace Capacity

-- `Ring::new(1)`.
def least : Capacity := ⟨2, ⟨1, rfl⟩, by decide, by decide⟩

def mask (c : Capacity) : Word := .ofNat 64 (c.slots - 1)

-- `pos & mask` as an index.
def index (c : Capacity) (pos : Word) : Nat := (pos &&& c.mask).toNat

end Capacity

structure Memory where
  tail : Word
  seq : Nat → Word
  words : Nat → Nat → Word

namespace Memory

def new : Memory := ⟨0, fun i => .ofNat 64 i, fun _ _ => 0⟩

def setSeq (m : Memory) (slot : Nat) (v : Word) : Memory :=
  { m with seq := Function.update m.seq slot v }

def setWord (m : Memory) (slot k : Nat) (v : Word) : Memory :=
  { m with words := Function.update m.words slot (Function.update (m.words slot) k v) }

end Memory

/-- Where a call of `try_publish` stands. `seen` is how many positions were claimed when the tail
was last read, which the code does not know. -/
inductive Producer
  | idle
  | load (r : Record)
  | look (r : Record) (pos : Word) (seen : Nat)
  | swap (r : Record) (pos : Word) (seen : Nat)
  | store (r : Record) (pos : Word) (seen k : Nat)
  | done (published : Bool)
  deriving DecidableEq

/-- One atomic access of `try_publish`; `weak` lets the compare-exchange fail spuriously. The last
component is the record whose position was claimed, if this step claimed one. -/
def Producer.step (e : Endian) (c : Capacity) (m : Memory) (claims : Nat) (weak : Bool) :
    Producer → Option (Memory × Producer × Option Record)
  | .load r => some (m, .look r m.tail claims, none)
  | .look r pos seen =>
    let d := (m.seq (c.index pos) - pos).toInt
    if d = 0 then some (m, .swap r pos seen, none)
    else if d < 0 then some (m, .done false, none)
    else some (m, .load r, none)
  | .swap r pos seen =>
    if m.tail = pos ∧ weak = false then
      some ({ m with tail := pos + 1 }, .store r pos seen 0, some r)
    else some (m, .look r m.tail claims, none)
  | .store r pos seen k =>
    match (r.words e)[k]? with
    | some w => some (m.setWord (c.index pos) k w, .store r pos seen (k + 1), none)
    | none => some (m.setSeq (c.index pos) (pos + 1), .done true, none)
  | _ => none

/-- What `popRing` returns: a ticket, and the result bytes of an inline record. -/
structure Popped where
  ticket : Word
  data : Option (List Byte)
  deriving DecidableEq, Repr

/-- Where the reader stands in `popRing`, which it enters once `ringReady` answered true. -/
inductive Consumer
  | idle
  | word
  | length (w : Word)
  | payload (w : Word) (n : Nat) (got : List Word)
  | free (w : Word) (data : Option (List Byte))
  | corrupt (n : Word)
  deriving DecidableEq

def ringReady (c : Capacity) (m : Memory) (head : Word) : Bool := m.seq (c.index head) = head + 1

/-- One access of `popRing`. The step that frees the slot also moves the head and returns. -/
def Consumer.step (e : Endian) (c : Capacity) (m : Memory) (head : Word) :
    Consumer → Option (Memory × Word × Consumer × Option Popped)
  | .word =>
    let w := m.words (c.index head) 0
    some (m, head, if w &&& inlineRecordFlag = 0 then .free w none else .length w, none)
  | .length w =>
    let n := m.words (c.index head) 1
    some (m, head, if inlineResultMax < n.toNat then .corrupt n else .payload w n.toNat [], none)
  | .payload w n got =>
    if got.length < padded n / 8 then
      some (m, head, .payload w n (got ++ [m.words (c.index head) (2 + got.length)]), none)
    else
      some (m, head, .free (w &&& ~~~inlineRecordFlag) (some ((got.flatMap e.bytes).take n)), none)
  | .free w data =>
    some (m.setSeq (c.index head) (head + .ofNat 64 c.slots), head + 1, .idle, some ⟨w, data⟩)
  | _ => none

/-- The ring with its producers and its reader. `log` has the records in the order their positions
were claimed, `popped` what `popRing` returned. -/
structure State where
  mem : Memory
  head : Word
  producers : List Producer
  consumer : Consumer
  log : List Record
  popped : List Popped

inductive Act
  | spawn | begin (i : Nat) (r : Record) | producer (i : Nat) (weak : Bool) | leave (i : Nat)
  | check | consumer
  deriving DecidableEq

namespace State

def new : State := ⟨.new, 0, [], .idle, [], []⟩

def producerStep (e : Endian) (c : Capacity) (s : State) (i : Nat) (weak : Bool) : Option State :=
  (s.producers[i]?).bind fun p =>
    (p.step e c s.mem s.log.length weak).map fun r =>
      { s with mem := r.1, producers := s.producers.set i r.2.1, log := s.log ++ r.2.2.toList }

def consumerStep (e : Endian) (c : Capacity) (s : State) : Option State :=
  (s.consumer.step e c s.mem s.head).map fun r =>
    { s with mem := r.1, head := r.2.1, consumer := r.2.2.1, popped := s.popped ++ r.2.2.2.toList }

def step (e : Endian) (c : Capacity) (s : State) : Act → Option State
  | .spawn => some { s with producers := s.producers ++ [.idle] }
  | .begin i r =>
    match s.producers[i]? with
    | some .idle => some { s with producers := s.producers.set i (.load r) }
    | _ => none
  | .producer i weak => s.producerStep e c i weak
  | .leave i =>
    match s.producers[i]? with
    | some (.done _) => some { s with producers := s.producers.set i .idle }
    | _ => none
  | .check =>
    if s.consumer = .idle then
      some { s with consumer := if ringReady c s.mem s.head then .word else .idle }
    else none
  | .consumer => s.consumerStep e c

end State

end Gusset.Ring
