import Gusset.Alloc.Counters

/-! The routes to memory that alloc.rs counts: `Counting` as the global allocator, `Counting`
around `System`, `Global` or `BufferAlloc` as the allocator of a collection, and `BufferAlloc`.
Calls come one after the other. What an allocator under `Counting` answers is given with the call;
a call that breaks the contract of an allocator has no outcome. -/
namespace Gusset.Alloc
open Foundation

/-! ### The counters -/

structure Counters where
  live : Nat
  count : Nat
  peak : Nat
  deriving DecidableEq, Repr

/-- What `add_saturating` stores, and what it returns. -/
def addSaturating (seen n : Nat) : Nat × Nat :=
  if seen < saturated ∧ n ≤ fastAddMax then (wrappingAdd seen n, saturatingAdd seen n)
  else if saturated ≤ seen then (seen, seen)
  else (min (saturatingAdd seen n) saturated, min (saturatingAdd seen n) saturated)

namespace Counters

def addLive (c : Counters) (size : Nat) : Counters :=
  if size = 0 then c
  else { c with
    live := (addSaturating c.live size).1
    peak := max c.peak (addSaturating c.live size).2 }

def addCount (c : Counters) : Counters := { c with count := (addSaturating c.count 1).1 }

def decLive (c : Counters) (size : Nat) : Counters :=
  if size = 0 then c else { c with live := saturatingSub c.live size }

end Counters

/-! ### The world and what acts on it -/

def isizeMax : Nat := 2 ^ 63 - 1

def bufferAlign : Nat := 64

structure Layout where
  size : Nat
  align : Nat
  power : ∃ k, align = 2 ^ k
  fits : size ≤ isizeMax + 1 - align

abbrev Ptr := Nat

/-- The counters, `COUNTING_ACTIVE`, the memory that is allocated, with the size of each block, and
what the allocator under the counted ones answers to the call. -/
structure World where
  counters : Counters
  active : Bool
  blocks : List (Ptr × Nat)
  answer : Option Ptr
  deriving DecidableEq, Repr

/-- A program on the world that may have no outcome. -/
abbrev M := StateT World Option

def refuse {α : Type} : M α := fun _ => none

structure GlobalAlloc where
  alloc : Layout → M (Option Ptr)
  allocZeroed : Layout → M (Option Ptr)
  dealloc : Ptr → Layout → M Unit
  realloc : Ptr → Layout → Nat → M (Option Ptr)

structure Allocator where
  allocate : Layout → M (Option Ptr)
  allocateZeroed : Layout → M (Option Ptr)
  deallocate : Ptr → Layout → M Unit
  grow : Ptr → Layout → Layout → M (Option Ptr)
  growZeroed : Ptr → Layout → Layout → M (Option Ptr)
  shrink : Ptr → Layout → Layout → M (Option Ptr)

/-! ### The inner allocators -/

def World.taken (w : World) (ptr : Ptr) : Bool := w.blocks.any fun block => block.1 == ptr

/-- New memory is none that is allocated. -/
def innerAlloc (layout : Layout) : M (Option Ptr) := do
  let w ← get
  match w.answer with
  | none => return none
  | some ptr =>
    if w.taken ptr then refuse
    else
      set { w with blocks := (ptr, layout.size) :: w.blocks }
      return some ptr

/-- A block is given back with its size. -/
def innerDealloc (ptr : Ptr) (layout : Layout) : M Unit := do
  let w ← get
  if (ptr, layout.size) ∈ w.blocks then
    set { w with blocks := w.blocks.erase (ptr, layout.size) }
  else refuse

/-- A block that cannot be resized stays. -/
def innerRealloc (ptr : Ptr) (layout : Layout) (newSize : Nat) : M (Option Ptr) := do
  let w ← get
  if (ptr, layout.size) ∈ w.blocks then
    match w.answer with
    | none => return none
    | some new =>
      let rest := w.blocks.erase (ptr, layout.size)
      if World.taken { w with blocks := rest } new then refuse
      else
        set { w with blocks := (new, newSize) :: rest }
        return some new
  else refuse

/-- `System`, or whatever allocator `Counting` wraps as the global one. -/
def system : GlobalAlloc where
  alloc := innerAlloc
  allocZeroed := innerAlloc
  dealloc := innerDealloc
  realloc := innerRealloc

/-! ### `Allocator` for `System` and for `Global` -/

def allocImpl (g : GlobalAlloc) (zeroed : Bool) (layout : Layout) : M (Option Ptr) :=
  if layout.size = 0 then return some layout.align
  else if zeroed then g.allocZeroed layout
  else g.alloc layout

def deallocImpl (g : GlobalAlloc) (ptr : Ptr) (layout : Layout) : M Unit :=
  if layout.size = 0 then return () else g.dealloc ptr layout

-- The block goes to a layout of another alignment.
def moveImpl (g : GlobalAlloc) (zeroed : Bool) (ptr : Ptr) (old new : Layout) :
    M (Option Ptr) := do
  match ← allocImpl g zeroed new with
  | none => return none
  | some block =>
    deallocImpl g ptr old
    return some block

def growImpl (g : GlobalAlloc) (zeroed : Bool) (ptr : Ptr) (old new : Layout) : M (Option Ptr) :=
  if old.size = 0 then allocImpl g zeroed new
  else if old.align = new.align then g.realloc ptr old new.size
  else moveImpl g zeroed ptr old new

def shrinkImpl (g : GlobalAlloc) (ptr : Ptr) (old new : Layout) : M (Option Ptr) :=
  if new.size = 0 then do
    deallocImpl g ptr old
    return some new.align
  else if old.align = new.align then g.realloc ptr old new.size
  else moveImpl g false ptr old new

/-- The two implementations of the standard library are alike: `System` calls its own methods, and
`Global` those of the global allocator. -/
def asAllocator (g : GlobalAlloc) : Allocator where
  allocate := allocImpl g false
  allocateZeroed := allocImpl g true
  deallocate := deallocImpl g
  grow := growImpl g false
  growZeroed := growImpl g true
  shrink := shrinkImpl g

/-! ### alloc.rs -/

def markCountingActive : M Unit := modify fun w => { w with active := true }

def countingIsActive : M Bool := return (← get).active

def addLiveBytes (size : Nat) : M Unit :=
  modify fun w => { w with counters := w.counters.addLive size }

def addAllocCount : M Unit := modify fun w => { w with counters := w.counters.addCount }

def decLiveBytes (size : Nat) : M Unit :=
  modify fun w => { w with counters := w.counters.decLive size }

def countAllocAlways (size : Nat) : M Unit :=
  if size ≠ 0 then do
    addLiveBytes size
    addAllocCount
  else return ()

def moveLive (old new : Nat) : M Unit :=
  if old < new then addLiveBytes (new - old)
  else if new < old then decLiveBytes (old - new)
  else return ()

def countResize (old new : Nat) (always : Bool) : M Unit := do
  if !always && (← countingIsActive) then return ()
  else
    moveLive old new
    addAllocCount

def countBufferAlloc (size : Nat) : M Unit :=
  if size ≠ 0 then do
    addLiveBytes size
    addAllocCount
  else return ()

def countBufferDealloc (size : Nat) : M Unit := if size ≠ 0 then decLiveBytes size else return ()

-- `alloc` and `alloc_zeroed`: the inner call, counted if it gives memory.
def countingAlloc (inner : Layout → M (Option Ptr)) (layout : Layout) : M (Option Ptr) := do
  markCountingActive
  match ← inner layout with
  | none => return none
  | some ptr =>
    addLiveBytes layout.size
    addAllocCount
    return some ptr

/-- `GlobalAlloc for Counting`. -/
def counting (inner : GlobalAlloc) : GlobalAlloc where
  alloc := countingAlloc inner.alloc
  allocZeroed := countingAlloc inner.allocZeroed
  dealloc ptr layout := do
    markCountingActive
    inner.dealloc ptr layout
    decLiveBytes layout.size
  realloc ptr layout newSize := do
    markCountingActive
    match ← inner.realloc ptr layout newSize with
    | none => return none
    | some new =>
      moveLive layout.size newSize
      addAllocCount
      return some new

/-- The type `Counting` wraps as the allocator of a collection. -/
inductive Inner | system | global | bufferAlloc
  deriving DecidableEq, Repr

def isGlobal (inner : Inner) : Bool := inner == .global

def countsItself (inner : Inner) : Bool := inner == .bufferAlloc

def forwardsToCountedGlobal (inner : Inner) : M Bool :=
  return countsItself inner || (isGlobal inner && (← countingIsActive))

def countNew (inner : Inner) (size : Nat) : M Unit := do
  if ← forwardsToCountedGlobal inner then return () else countAllocAlways size

def countMoved (inner : Inner) (old new : Nat) : M Unit := do
  if ← forwardsToCountedGlobal inner then return () else countResize old new true

-- `?` on the inner call, then the count.
def counted (call : M (Option Ptr)) (count : M Unit) : M (Option Ptr) := do
  match ← call with
  | none => return none
  | some block =>
    count
    return some block

/-- `Allocator for Counting`. -/
def countingAllocator (inner : Inner) (a : Allocator) : Allocator where
  allocate layout := counted (a.allocate layout) (countNew inner layout.size)
  allocateZeroed layout := counted (a.allocateZeroed layout) (countNew inner layout.size)
  deallocate ptr layout := do
    a.deallocate ptr layout
    if ← forwardsToCountedGlobal inner then return () else decLiveBytes layout.size
  grow ptr old new := counted (a.grow ptr old new) (countMoved inner old.size new.size)
  growZeroed ptr old new :=
    counted (a.growZeroed ptr old new) (countMoved inner old.size new.size)
  shrink ptr old new := counted (a.shrink ptr old new) (countMoved inner old.size new.size)

theorem max_power {a b : Nat} (first : ∃ k, a = 2 ^ k) (second : ∃ k, b = 2 ^ k) :
    ∃ k, max a b = 2 ^ k := by
  rcases Nat.le_total a b with below | below
  · rwa [Nat.max_eq_right below]
  · rwa [Nat.max_eq_left below]

/-- `layout.align_to(BUFFER_ALIGN).ok()`. -/
def bufferLayout (layout : Layout) : Option Layout :=
  if fits : layout.size ≤ isizeMax + 1 - max layout.align bufferAlign then
    some ⟨layout.size, max layout.align bufferAlign, max_power layout.power ⟨6, rfl⟩, fits⟩
  else none

def pair (old new : Layout) : Option (Layout × Layout) := do
  let o ← bufferLayout old
  let n ← bufferLayout new
  return (o, n)

def bufferAllocate (allocate : Layout → M (Option Ptr)) (layout : Layout) : M (Option Ptr) :=
  match bufferLayout layout with
  | none => return none
  | some real => counted (allocate real) (countBufferAlloc real.size)

def bufferResize (resize : Ptr → Layout → Layout → M (Option Ptr)) (ptr : Ptr)
    (old new : Layout) : M (Option Ptr) :=
  match pair old new with
  | none => return none
  | some (o, n) => counted (resize ptr o n) (countResize o.size n.size true)

/-- `Allocator for BufferAlloc`, on the `Allocator` of `System`. -/
def bufferAlloc : Allocator where
  allocate := bufferAllocate (asAllocator system).allocate
  allocateZeroed := bufferAllocate (asAllocator system).allocateZeroed
  deallocate ptr layout :=
    match bufferLayout layout with
    | none => return ()
    | some real => do
      (asAllocator system).deallocate ptr real
      countBufferDealloc real.size
  grow := bufferResize (asAllocator system).grow
  growZeroed := bufferResize (asAllocator system).growZeroed
  shrink := bufferResize (asAllocator system).shrink

/-! ### Runs -/

/-- The allocators a collection can have. `global` is the allocator of a plain collection, which
is a counted route when `Counting` is the global allocator. -/
inductive Route | global | counting (inner : Inner) | buffer
  deriving DecidableEq, Repr

-- `counts` says that `Counting` is the global allocator.
def registered (counts : Bool) : GlobalAlloc := if counts then counting system else system

def innerAllocator (counts : Bool) : Inner → Allocator
  | .system => asAllocator system
  | .global => asAllocator (registered counts)
  | .bufferAlloc => bufferAlloc

def routeAllocator (counts : Bool) : Route → Option Allocator
  | .global => if counts then some (asAllocator (registered counts)) else none
  | .counting inner => some (countingAllocator inner (innerAllocator counts inner))
  | .buffer => some bufferAlloc

inductive Method
  | allocate (layout : Layout)
  | allocateZeroed (layout : Layout)
  | deallocate (ptr : Ptr) (layout : Layout)
  | grow (ptr : Ptr) (old new : Layout)
  | growZeroed (ptr : Ptr) (old new : Layout)
  | shrink (ptr : Ptr) (old new : Layout)

inductive GlobalMethod
  | alloc (layout : Layout)
  | allocZeroed (layout : Layout)
  | dealloc (ptr : Ptr) (layout : Layout)
  | realloc (ptr : Ptr) (layout : Layout) (newSize : Nat)

def succeeds (call : M (Option Ptr)) : M Bool := return (← call).isSome

/-- Whether the call succeeds. A free always does. -/
def Allocator.perform (a : Allocator) : Method → M Bool
  | .allocate layout => succeeds (a.allocate layout)
  | .allocateZeroed layout => succeeds (a.allocateZeroed layout)
  | .deallocate ptr layout => do
    a.deallocate ptr layout
    return true
  | .grow ptr old new => succeeds (a.grow ptr old new)
  | .growZeroed ptr old new => succeeds (a.growZeroed ptr old new)
  | .shrink ptr old new => succeeds (a.shrink ptr old new)

def GlobalAlloc.perform (g : GlobalAlloc) : GlobalMethod → M Bool
  | .alloc layout => succeeds (g.alloc layout)
  | .allocZeroed layout => succeeds (g.allocZeroed layout)
  | .dealloc ptr layout => do
    g.dealloc ptr layout
    return true
  | .realloc ptr layout newSize => succeeds (g.realloc ptr layout newSize)

/-- A collection calls its allocator, or the program calls the global one. -/
inductive Request
  | through (route : Route) (method : Method)
  | globally (method : GlobalMethod)

def Request.perform (counts : Bool) : Request → M Bool
  | .through route method =>
    match routeAllocator counts route with
    | some a => a.perform method
    | none => refuse
  | .globally method => if counts then (registered counts).perform method else refuse

/-- One call through a counted route, with what the allocator under it answers. -/
def serve (counts : Bool) (w : World) (request : Request) (answer : Option Ptr) :
    Option (Bool × World) :=
  request.perform counts { w with answer }

def World.new : World := ⟨⟨0, 0, 0⟩, false, [], none⟩

def Serves (counts : Bool) (w w' : World) : Prop :=
  ∃ request answer ok, serve counts w request answer = some (ok, w')

/-- What any calls lead to. With `counts`, `Counting` is the global allocator from the first
allocation on; without, it is never used through `GlobalAlloc`. -/
def Served (counts : Bool) (w : World) : Prop := Reachable (· = World.new) (Serves counts) w

/-- The bytes in the blocks that are allocated. -/
def World.total (w : World) : Nat := (w.blocks.map Prod.snd).sum

end Gusset.Alloc
