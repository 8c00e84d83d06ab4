import Gusset.Alloc.Routes

/-! Each block is counted once: a property that the methods of a global allocator have passes to
the `Allocator` built on them, what is not counted below is counted once above, and what is counted
below is passed on. -/
namespace Gusset.Alloc
open Foundation

/-! ### Programs -/

section Programs
variable {α β : Type} {w w' : World}

theorem bind_outcome {m : M α} {f : α → M β} {b : β} (run : (m >>= f) w = some (b, w')) :
    ∃ a v, m w = some (a, v) ∧ f a v = some (b, w') := by
  obtain ⟨⟨a, v⟩, first, second⟩ := Option.bind_eq_some_iff.mp run
  exact ⟨a, v, first, second⟩

theorem pure_outcome {a b : α} (run : (pure a : M α) w = some (b, w')) : b = a ∧ w' = w := by
  cases run
  exact ⟨rfl, rfl⟩

theorem get_outcome {v : World} (run : (get : M World) w = some (v, w')) : v = w ∧ w' = w := by
  cases run
  exact ⟨rfl, rfl⟩

theorem set_outcome {v : World} {u : PUnit} (run : (set v : M PUnit) w = some (u, w')) : w' = v := by
  cases run
  rfl

theorem modify_outcome {f : World → World} {u : PUnit}
    (run : (modify f : M PUnit) w = some (u, w')) : w' = f w := by
  cases run
  rfl

theorem refuse_outcome {a : α} (run : (refuse : M α) w = some (a, w')) : False := by
  cases run

end Programs

/-! ### The counters -/

section Alone
variable {s u : State} {pc pc' : Pc} {c : Choice}

def State.counters (s : State) : Counters := ⟨s.live, s.count, s.peak⟩

def lone (s : State) (pc : Pc) : State := { s with threads := [pc] }

theorem threadStep_lone (s : State) (pc' pc : Pc) (c : Choice) :
    threadStep (lone s pc') pc c = (threadStep s pc c).map fun r => (lone r.1 pc', r.2) := by
  cases pc <;> cases c <;> simp only [threadStep, lone, State.finish] <;> (try rfl)
  case fetchAdd.go cell n => cases cell <;> rfl
  case exchange.go cell n current =>
    cases cell <;> simp only [State.stored, State.store] <;> grind -ring -linarith
  case exchange.spurious cell n current =>
    cases cell <;> simp only [State.stored] <;> grind -ring -linarith
  case loadPeak.go => grind -ring -linarith
  case exchangeDec.go => grind -ring -linarith

theorem lone_moves (went : threadStep s pc c = some (u, pc')) : Steps (lone s pc) (lone u pc') := by
  refine ⟨⟨0, c⟩, ?_⟩
  have here : (lone s pc).threads[0]? = some pc := rfl
  simp only [step, here, Option.bind_some, threadStep_lone, went, Option.map_some]
  rfl

/-- A thread with the counters to itself gets from one place to another. -/
def Alone (s : State) (pc : Pc) (u : State) (pc' : Pc) : Prop :=
  Relation.ReflTransGen Steps (lone s pc) (lone u pc')

theorem add_alone (s : State) (cell : Cell) (n : Nat) :
    ∃ u, Alone s (.load cell n) u (added n (addSaturating (s.stored cell) n).2 cell) ∧
      u = (if saturated ≤ s.stored cell then s
        else s.store (addSaturating (s.stored cell) n).1 cell) := by
  refine ⟨_, ?_, rfl⟩
  unfold addSaturating
  by_cases full : saturated ≤ s.stored cell
  · rw [if_pos full, if_neg (by omega), if_pos full]
    refine (Relation.ReflTransGen.single (lone_moves (c := .go) rfl)).tail ?_
    rw [if_neg (by omega)]
    exact lone_moves (c := .go) (by simp [threadStep, full])
  · rw [if_neg full]
    by_cases fast : s.stored cell < saturated ∧ n ≤ fastAddMax
    · rw [if_pos fast]
      refine (Relation.ReflTransGen.single (lone_moves (c := .go) rfl)).tail ?_
      rw [if_pos fast]
      exact lone_moves (c := .go) rfl
    · rw [if_neg fast, if_neg full]
      refine (Relation.ReflTransGen.single (lone_moves (c := .go) rfl)).tail ?_
      rw [if_neg fast]
      exact lone_moves (c := .go) (by simp [threadStep, full])

theorem counters_stored (s : State) (cell : Cell) (n : Nat) :
    (if saturated ≤ s.stored cell then s
      else s.store (addSaturating (s.stored cell) n).1 cell).counters =
    (s.store (addSaturating (s.stored cell) n).1 cell).counters := by
  split
  · rename_i full
    rw [addSaturating, if_neg (by omega), if_pos full]
    cases cell <;> rfl
  · rfl

/-- A call of a thread alone ends with the counters of its model. -/
theorem addLive_alone (s : State) (size : Nat) :
    ∃ u, Alone s (Call.pc (.addLive size)) u .idle ∧ u.counters = s.counters.addLive size := by
  unfold Call.pc Counters.addLive
  simp only
  split
  · exact ⟨s.finish 0 s.live, .single (lone_moves (c := .go) rfl), rfl⟩
  · obtain ⟨u, run, same⟩ := add_alone s .live size
    have counters : u.counters = _ := same ▸ counters_stored s .live size
    obtain ⟨live, count, peak⟩ := Counters.mk.inj counters
    generalize next : (addSaturating s.live size).2 = top at *
    have run : Alone s (.load .live size) u (.loadPeak size top) := next ▸ run
    by_cases higher : u.peak < top
    · refine ⟨{ u.finish size top with peak := max u.peak top }, ?_, ?_⟩
      · have load : threadStep u (.loadPeak size top) .go = some (u, .fetchMax size top) := by
          simp [threadStep, higher]
        exact (run.tail (lone_moves load)).tail (lone_moves (c := .go) rfl)
      · simp only [State.counters, State.finish, live, count, peak, next]
        rfl
    · refine ⟨u.finish size top, ?_, ?_⟩
      · have load : threadStep u (.loadPeak size top) .go = some (u.finish size top, .idle) := by
          simp [threadStep, higher]
        exact run.tail (lone_moves load)
      · have most : max s.peak top = s.peak := by
          rw [peak] at higher
          exact Nat.max_eq_left (Nat.le_of_not_lt higher)
        simp only [State.counters, State.finish, live, count, peak, next, most]
        rfl

theorem addCount_alone (s : State) :
    ∃ u, Alone s (Call.pc .addCount) u .idle ∧ u.counters = s.counters.addCount := by
  obtain ⟨u, run, same⟩ := add_alone s .count 1
  exact ⟨u, run, same ▸ counters_stored s .count 1⟩

theorem decLive_alone (s : State) (size : Nat) :
    ∃ u, Alone s (Call.pc (.decLive size)) u .idle ∧ u.counters = s.counters.decLive size := by
  unfold Call.pc Counters.decLive
  simp only
  split
  · exact ⟨s, .refl, rfl⟩
  · have first : threadStep s (.loadDec size) .go = some (s, .exchangeDec size s.live) := rfl
    have last : threadStep s (.exchangeDec size s.live) .go =
        some ({ s with live := saturatingSub s.live size, decs := s.decs + size
                       floored := s.floored || decide (s.live < size) }, .idle) := if_pos rfl
    exact ⟨_, (Relation.ReflTransGen.single (lone_moves first)).tail (lone_moves last), rfl⟩

end Alone

/-- The live counter gives `old` bytes back and takes `new`, unless it saturates. -/
structure Recounts (old new : Nat) (c c' : Counters) : Prop where
  rises : c.peak ≤ c'.peak
  moves : c'.peak < saturated → old ≤ c.live + new → c'.live + old = c.live + new

theorem addSaturating_exact {seen n : Nat} (below : (addSaturating seen n).2 < saturated) :
    (addSaturating seen n).1 = seen + n := by
  have top : saturated = 9223372036854775807 := by decide
  have most : usizeMax = 18446744073709551615 := by decide
  unfold addSaturating at below ⊢
  split
  · rename_i fast
    rw [if_pos fast] at below
    simp only [saturatingAdd, wrappingAdd] at below ⊢
    omega
  · rename_i slow
    rw [if_neg slow] at below
    split
    · rename_i full
      rw [if_pos full] at below
      exact absurd below (Nat.not_lt.mpr full)
    · rename_i room
      rw [if_neg room] at below
      simp only [saturatingAdd] at below ⊢
      omega

theorem addLive_recounts (c : Counters) (n : Nat) : Recounts 0 n c (c.addLive n) := by
  unfold Counters.addLive
  split
  · rename_i none
    exact ⟨Nat.le_refl _, fun _ _ => by omega⟩
  · refine ⟨Nat.le_max_left _ _, ?_⟩
    intro below _
    exact addSaturating_exact (Nat.lt_of_le_of_lt (Nat.le_max_right _ _) below)

theorem decLive_recounts (c : Counters) (n : Nat) : Recounts n 0 c (c.decLive n) := by
  unfold Counters.decLive
  split
  · rename_i none
    exact ⟨Nat.le_refl _, fun _ _ => by omega⟩
  · refine ⟨Nat.le_refl _, ?_⟩
    intro _ enough
    simp only [saturatingSub]
    split <;> omega

theorem Recounts.addCount {old new : Nat} {c c' : Counters} (recounts : Recounts old new c c') :
    Recounts old new c c'.addCount := ⟨recounts.rises, recounts.moves⟩

/-- The program moves the live counter and nothing else that counts. -/
def TalliesAt (w : World) (old new : Nat) (count : M Unit) : Prop :=
  ∀ u w', count w = some (u, w') →
    w'.blocks = w.blocks ∧ w'.active = w.active ∧ Recounts old new w.counters w'.counters

variable {w w' : World} {old new size : Nat}

theorem addLiveBytes_tallies (w : World) (size : Nat) : TalliesAt w 0 size (addLiveBytes size) := by
  intro u w' run
  rw [modify_outcome run]
  exact ⟨rfl, rfl, addLive_recounts _ _⟩

theorem decLiveBytes_tallies (w : World) (size : Nat) : TalliesAt w size 0 (decLiveBytes size) := by
  intro u w' run
  rw [modify_outcome run]
  exact ⟨rfl, rfl, decLive_recounts _ _⟩

theorem idle_tallies (w : World) (size : Nat) : TalliesAt w size size (pure ()) := by
  intro u w' run
  rw [(pure_outcome run).2]
  exact ⟨rfl, rfl, Nat.le_refl _, fun _ _ => rfl⟩

theorem TalliesAt.then_addAllocCount {count : M Unit} (tallies : TalliesAt w old new count) :
    TalliesAt w old new (count >>= fun _ => addAllocCount) := by
  intro u w' run
  obtain ⟨_, v, first, second⟩ := bind_outcome run
  obtain ⟨blocks, active, recounts⟩ := tallies _ _ first
  rw [modify_outcome second]
  exact ⟨blocks, active, recounts.addCount⟩

theorem countAllocAlways_tallies (w : World) (size : Nat) :
    TalliesAt w 0 size (countAllocAlways size) := by
  unfold countAllocAlways
  split
  · exact (addLiveBytes_tallies w size).then_addAllocCount
  · rename_i none
    rw [Nat.eq_zero_of_not_pos (by omega : ¬ 0 < size)]
    exact idle_tallies w 0

theorem moveLive_tallies (w : World) (old new : Nat) : TalliesAt w old new (moveLive old new) := by
  unfold moveLive
  split
  · intro u w' run
    obtain ⟨blocks, active, recounts⟩ := addLiveBytes_tallies _ _ _ _ run
    refine ⟨blocks, active, recounts.rises, fun below _ => ?_⟩
    have moved := recounts.moves below (by omega)
    omega
  · split
    · intro u w' run
      obtain ⟨blocks, active, recounts⟩ := decLiveBytes_tallies _ _ _ _ run
      refine ⟨blocks, active, recounts.rises, fun below _ => ?_⟩
      have moved := recounts.moves below (by omega)
      omega
    · rw [show old = new by omega]
      exact idle_tallies w new

theorem countResize_tallies (w : World) (old new : Nat) :
    TalliesAt w old new (countResize old new true) :=
  (moveLive_tallies w old new).then_addAllocCount

theorem countBufferAlloc_tallies (w : World) (size : Nat) :
    TalliesAt w 0 size (countBufferAlloc size) :=
  countAllocAlways_tallies w size

theorem countBufferDealloc_tallies (w : World) (size : Nat) :
    TalliesAt w size 0 (countBufferDealloc size) := by
  unfold countBufferDealloc
  split
  · exact decLiveBytes_tallies w size
  · rename_i none
    rw [Nat.eq_zero_of_not_pos (by omega : ¬ 0 < size)]
    exact idle_tallies w 0

/-! ### What a call does

A property says what happens from one world to another when a call gives `old` bytes back and takes
`new`, and whether it succeeds. -/

abbrev Property := Nat → Nat → World → Bool → World → Prop

def Meets {α : Type} (P : Property) (old new : Nat) (m : M α) (ok : α → Bool) : Prop :=
  ∀ w r w', m w = some (r, w') → P old new w (ok r) w'

structure GlobalMeets (P : Property) (g : GlobalAlloc) : Prop where
  alloc : ∀ layout, Meets P 0 layout.size (g.alloc layout) Option.isSome
  allocZeroed : ∀ layout, Meets P 0 layout.size (g.allocZeroed layout) Option.isSome
  dealloc : ∀ ptr layout, Meets P layout.size 0 (g.dealloc ptr layout) fun _ => true
  realloc : ∀ ptr layout newSize,
    Meets P layout.size newSize (g.realloc ptr layout newSize) Option.isSome

structure AllocatorMeets (P : Property) (a : Allocator) : Prop where
  allocate : ∀ layout, Meets P 0 layout.size (a.allocate layout) Option.isSome
  allocateZeroed : ∀ layout, Meets P 0 layout.size (a.allocateZeroed layout) Option.isSome
  deallocate : ∀ ptr layout, Meets P layout.size 0 (a.deallocate ptr layout) fun _ => true
  grow : ∀ ptr old new, Meets P old.size new.size (a.grow ptr old new) Option.isSome
  growZeroed : ∀ ptr old new, Meets P old.size new.size (a.growZeroed ptr old new) Option.isSome
  shrink : ∀ ptr old new, Meets P old.size new.size (a.shrink ptr old new) Option.isSome

/-- What a property needs to hold of calls made one after the other. -/
structure Composes (P : Property) : Prop where
  idle : ∀ w, P 0 0 w true w
  relay : ∀ old new w v w', P 0 new w true v → P old 0 v true w' → P old new w true w'
  fails : ∀ old new w w', P 0 new w false w' → P old new w false w'

section AsAllocator
variable {P : Property} (composes : Composes P) {g : GlobalAlloc} (meets : GlobalMeets P g)
include composes meets

theorem allocImpl_meets (zeroed : Bool) (layout : Layout) :
    Meets P 0 layout.size (allocImpl g zeroed layout) Option.isSome := by
  unfold allocImpl
  split
  · rename_i none
    intro w r w' run
    obtain ⟨rfl, rfl⟩ := pure_outcome run
    rw [none]
    exact composes.idle _
  · split
    · exact meets.allocZeroed layout
    · exact meets.alloc layout

theorem deallocImpl_meets (ptr : Ptr) (layout : Layout) :
    Meets P layout.size 0 (deallocImpl g ptr layout) fun _ => true := by
  unfold deallocImpl
  split
  · rename_i none
    intro w r w' run
    obtain ⟨rfl, rfl⟩ := pure_outcome run
    rw [none]
    exact composes.idle _
  · exact meets.dealloc ptr layout

theorem moveImpl_meets (zeroed : Bool) (ptr : Ptr) (old new : Layout) :
    Meets P old.size new.size (moveImpl g zeroed ptr old new) Option.isSome := by
  intro w r w' run
  obtain ⟨given, v, first, second⟩ := bind_outcome run
  have took := allocImpl_meets composes meets zeroed new w given v first
  cases given with
  | none =>
    obtain ⟨rfl, rfl⟩ := pure_outcome second
    exact composes.fails _ _ _ _ took
  | some block =>
    obtain ⟨_, u, freed, last⟩ := bind_outcome second
    obtain ⟨rfl, rfl⟩ := pure_outcome last
    exact composes.relay _ _ _ _ _ took (deallocImpl_meets composes meets ptr old v () _ freed)

theorem growImpl_meets (zeroed : Bool) (ptr : Ptr) (old new : Layout) :
    Meets P old.size new.size (growImpl g zeroed ptr old new) Option.isSome := by
  unfold growImpl
  split
  · rename_i none
    rw [none]
    exact allocImpl_meets composes meets zeroed new
  · split
    · exact meets.realloc ptr old new.size
    · exact moveImpl_meets composes meets zeroed ptr old new

theorem shrinkImpl_meets (ptr : Ptr) (old new : Layout) :
    Meets P old.size new.size (shrinkImpl g ptr old new) Option.isSome := by
  unfold shrinkImpl
  split
  · rename_i none
    intro w r w' run
    obtain ⟨_, v, freed, last⟩ := bind_outcome run
    obtain ⟨rfl, rfl⟩ := pure_outcome last
    rw [none]
    exact deallocImpl_meets composes meets ptr old w () _ freed
  · split
    · exact meets.realloc ptr old new.size
    · exact moveImpl_meets composes meets false ptr old new

/-- The `Allocator` of the standard library does to the world what the methods under it do. -/
theorem asAllocator_meets : AllocatorMeets P (asAllocator g) where
  allocate := allocImpl_meets composes meets false
  allocateZeroed := allocImpl_meets composes meets true
  deallocate := deallocImpl_meets composes meets
  grow := growImpl_meets composes meets false
  growZeroed := growImpl_meets composes meets true
  shrink := shrinkImpl_meets composes meets

end AsAllocator

/-! ### Memory that nobody counts -/

/-- The bytes move, and no counter does. -/
def Uncounted : Property := fun old new w ok w' =>
  w'.counters = w.counters ∧ w'.active = w.active ∧
  (ok = true → w'.total + old = w.total + new) ∧ (ok = false → w'.blocks = w.blocks)

theorem uncounted_composes : Composes Uncounted where
  idle w := ⟨rfl, rfl, fun _ => rfl, fun _ => rfl⟩
  relay old new w v w' := by
    rintro ⟨counters, active, took, _⟩ ⟨counters', active', freed, _⟩
    have took := took rfl
    have freed := freed rfl
    exact ⟨counters'.trans counters, active'.trans active, fun _ => by omega, nofun⟩
  fails old new w w' := by
    rintro ⟨counters, active, _, same⟩
    exact ⟨counters, active, nofun, same⟩

theorem total_erase {w : World} {block : Ptr × Nat} (member : block ∈ w.blocks) :
    World.total { w with blocks := w.blocks.erase block } + block.2 = w.total := by
  have sum := ((List.perm_cons_erase member).map Prod.snd).sum_eq
  rw [List.map_cons, List.sum_cons] at sum
  simp only [World.total]
  omega

theorem innerAlloc_uncounted (layout : Layout) :
    Meets Uncounted 0 layout.size (innerAlloc layout) Option.isSome := by
  intro w r w' run
  obtain ⟨v, u, first, rest⟩ := bind_outcome run
  obtain ⟨rfl, rfl⟩ := get_outcome first
  cases given : u.answer with
  | none =>
    rw [given] at rest
    obtain ⟨rfl, rfl⟩ := pure_outcome rest
    exact ⟨rfl, rfl, nofun, fun _ => rfl⟩
  | some ptr =>
    rw [given] at rest
    simp only at rest
    split at rest
    · exact (refuse_outcome rest).elim
    · obtain ⟨_, _, stored, last⟩ := bind_outcome rest
      obtain ⟨rfl, rfl⟩ := pure_outcome last
      rw [set_outcome stored]
      refine ⟨rfl, rfl, fun _ => ?_, nofun⟩
      simp only [World.total, List.map_cons, List.sum_cons]
      omega

theorem innerDealloc_uncounted (ptr : Ptr) (layout : Layout) :
    Meets Uncounted layout.size 0 (innerDealloc ptr layout) fun _ => true := by
  intro w r w' run
  obtain ⟨v, _, first, rest⟩ := bind_outcome run
  obtain ⟨rfl, rfl⟩ := get_outcome first
  split at rest
  · rename_i member
    rw [set_outcome rest]
    exact ⟨rfl, rfl, fun _ => total_erase member, nofun⟩
  · exact (refuse_outcome rest).elim

theorem innerRealloc_uncounted (ptr : Ptr) (layout : Layout) (newSize : Nat) :
    Meets Uncounted layout.size newSize (innerRealloc ptr layout newSize) Option.isSome := by
  intro w r w' run
  obtain ⟨v, u, first, rest⟩ := bind_outcome run
  obtain ⟨rfl, rfl⟩ := get_outcome first
  split at rest
  · rename_i member
    cases given : u.answer with
    | none =>
      rw [given] at rest
      obtain ⟨rfl, rfl⟩ := pure_outcome rest
      exact ⟨rfl, rfl, nofun, fun _ => rfl⟩
    | some new =>
      rw [given] at rest
      simp only at rest
      split at rest
      · exact (refuse_outcome rest).elim
      · obtain ⟨_, _, stored, last⟩ := bind_outcome rest
        obtain ⟨rfl, rfl⟩ := pure_outcome last
        rw [set_outcome stored]
        refine ⟨rfl, rfl, fun _ => ?_, nofun⟩
        have erased := total_erase member
        simp only [World.total, List.map_cons, List.sum_cons] at erased ⊢
        omega
  · exact (refuse_outcome rest).elim

theorem system_uncounted : GlobalMeets Uncounted system where
  alloc := innerAlloc_uncounted
  allocZeroed := innerAlloc_uncounted
  dealloc := innerDealloc_uncounted
  realloc := innerRealloc_uncounted

/-! ### Memory that is counted -/

/-- The live counter follows the bytes, unless it saturates. -/
structure Balanced (w w' : World) : Prop where
  rises : w.counters.peak ≤ w'.counters.peak
  even : w'.counters.peak < saturated → w.total ≤ w.counters.live →
    w'.counters.live + w.total = w.counters.live + w'.total

theorem Balanced.same {w w' : World} (counters : w'.counters = w.counters)
    (blocks : w'.blocks = w.blocks) : Balanced w w' := by
  refine ⟨by rw [counters], fun _ _ => ?_⟩
  rw [counters, World.total, World.total, blocks]

theorem Balanced.trans {w v w' : World} (first : Balanced w v) (second : Balanced v w') :
    Balanced w w' := by
  refine ⟨first.rises.trans second.rises, ?_⟩
  intro below enough
  have middle := first.even (Nat.lt_of_le_of_lt second.rises below) enough
  have last := second.even below (by omega)
  omega

/-- Bytes nobody has counted, and then their count. -/
theorem Uncounted.tally {w v w' : World} (uncounted : Uncounted old new w true v)
    (tallies : w'.blocks = v.blocks ∧ Recounts old new v.counters w'.counters) :
    Balanced w w' := by
  obtain ⟨counters, _, moved, _⟩ := uncounted
  obtain ⟨blocks, rises, moves⟩ := tallies
  rw [counters] at rises moves
  refine ⟨rises, ?_⟩
  intro below enough
  have moved := moved rfl
  have total : w'.total = v.total := by rw [World.total, World.total, blocks]
  have tallied := moves below (by omega)
  omega

/-- Whoever called has counted, or there was nothing to count. -/
def Noted : Property := fun old new w ok w' =>
  Balanced w w' ∧ (ok = false → w'.counters = w.counters) ∧ (w.active = true → w'.active = true) ∧
  (ok = true → w'.active = true ∨ (old = 0 ∧ new = 0))

theorem noted_composes : Composes Noted where
  idle w := ⟨.same rfl rfl, fun _ => rfl, id, fun _ => .inr ⟨rfl, rfl⟩⟩
  relay old new w v w' := by
    rintro ⟨even, _, stays, marks⟩ ⟨even', _, stays', marks'⟩
    refine ⟨even.trans even', nofun, fun active => stays' (stays active), fun _ => ?_⟩
    rcases marks rfl with active | ⟨_, none⟩
    · exact .inl (stays' active)
    · rcases marks' rfl with active | ⟨none', _⟩
      · exact .inl active
      · exact .inr ⟨none', none⟩
  fails old new w w' := by
    rintro ⟨even, same, stays, _⟩
    exact ⟨even, same, stays, nofun⟩

def World.marked (w : World) : World := { w with active := true }

theorem Uncounted.noted {w v w' : World} (uncounted : Uncounted old new w.marked true v)
    {count : M Unit} (tallies : TalliesAt v old new count) {u : Unit}
    (run : count v = some (u, w')) : Noted old new w true w' := by
  obtain ⟨blocks, active, recounts⟩ := tallies u w' run
  have even := uncounted.tally ⟨blocks, recounts⟩
  have marked : w'.active = true := active.trans uncounted.2.1
  exact ⟨⟨even.rises, even.even⟩, nofun, fun _ => marked, fun _ => .inl marked⟩

theorem Uncounted.noted_failed {w v : World} (uncounted : Uncounted old new w.marked false v) :
    Noted old new w false v := by
  obtain ⟨counters, active, _, blocks⟩ := uncounted
  exact ⟨.same counters (blocks rfl), fun _ => counters, fun _ => active, nofun⟩

-- A method of `Counting`: the flag, the inner call, and the count if it succeeds.
theorem marked_noted {call : M (Option Ptr)} {count : M Unit}
    (meets : Meets Uncounted old new call Option.isSome) (tallies : ∀ w, TalliesAt w old new count) :
    Meets Noted old new (markCountingActive >>= fun _ => counted call count) Option.isSome := by
  intro w r w' run
  obtain ⟨_, v, marked, rest⟩ := bind_outcome run
  cases modify_outcome marked
  obtain ⟨given, v, served, rest⟩ := bind_outcome rest
  have uncounted := meets w.marked given v served
  cases given with
  | none =>
    obtain ⟨rfl, rfl⟩ := pure_outcome rest
    exact uncounted.noted_failed
  | some ptr =>
    obtain ⟨_, u, counts, last⟩ := bind_outcome rest
    obtain ⟨rfl, rfl⟩ := pure_outcome last
    exact uncounted.noted (tallies v) counts

theorem counting_realloc (inner : GlobalAlloc) (ptr : Ptr) (layout : Layout) (newSize : Nat) :
    (counting inner).realloc ptr layout newSize = markCountingActive >>= fun _ =>
      counted (inner.realloc ptr layout newSize)
        (moveLive layout.size newSize >>= fun _ => addAllocCount) := by
  simp only [counting, counted, bind_assoc]

/-- `Counting` over an allocator nobody counts is counted. -/
theorem counting_noted {inner : GlobalAlloc} (meets : GlobalMeets Uncounted inner) :
    GlobalMeets Noted (counting inner) where
  alloc layout := marked_noted (meets.alloc layout)
    fun w => (addLiveBytes_tallies w layout.size).then_addAllocCount
  allocZeroed layout := marked_noted (meets.allocZeroed layout)
    fun w => (addLiveBytes_tallies w layout.size).then_addAllocCount
  dealloc ptr layout := by
    intro w r w' run
    obtain ⟨_, v, marked, rest⟩ := bind_outcome run
    cases modify_outcome marked
    obtain ⟨_, v, freed, rest⟩ := bind_outcome rest
    exact (meets.dealloc ptr layout w.marked _ v freed).noted (decLiveBytes_tallies v _) rest
  realloc ptr layout newSize := by
    rw [counting_realloc]
    exact marked_noted (meets.realloc ptr layout newSize)
      fun w => (moveLive_tallies w layout.size newSize).then_addAllocCount

/-! ### Every route -/

/-- What every call through a counted route does. Where `Counting` is not the global allocator,
nothing is ever marked. -/
def Exact (counts : Bool) : Property := fun _ _ w ok w' =>
  (counts = false → w.active = false) →
    Balanced w w' ∧ (ok = false → w'.counters = w.counters) ∧ (counts = false → w'.active = false)

theorem Noted.exact {ok : Bool} (noted : Noted old new w ok w') : Exact true old new w ok w' :=
  fun _ => ⟨noted.1, noted.2.1, nofun⟩

theorem Uncounted.exact {counts : Bool} {v : World} (uncounted : Uncounted old new w true v)
    {count : M Unit} (tallies : TalliesAt v old new count) {u : Unit}
    (run : count v = some (u, w')) : Exact counts old new w true w' := by
  intro unmarked
  obtain ⟨blocks, active, recounts⟩ := tallies u w' run
  refine ⟨uncounted.tally ⟨blocks, recounts⟩, nofun, fun off => ?_⟩
  exact (active.trans uncounted.2.1).trans (unmarked off)

theorem Uncounted.exact_failed {counts : Bool} (uncounted : Uncounted old new w false w') :
    Exact counts old new w false w' := by
  intro unmarked
  obtain ⟨counters, active, _, blocks⟩ := uncounted
  exact ⟨.same counters (blocks rfl), fun _ => counters, fun off => active.trans (unmarked off)⟩

theorem counted_exact {counts : Bool} {call : M (Option Ptr)} {count : M Unit}
    (meets : Meets Uncounted old new call Option.isSome)
    (tallies : ∀ v : World, (counts = false → v.active = false) → TalliesAt v old new count) :
    Meets (Exact counts) old new (counted call count) Option.isSome := by
  intro w r w' run unmarked
  obtain ⟨given, v, served, rest⟩ := bind_outcome run
  have uncounted := meets w given v served
  cases given with
  | none =>
    obtain ⟨rfl, rfl⟩ := pure_outcome rest
    exact uncounted.exact_failed unmarked
  | some block =>
    obtain ⟨_, u, counts, last⟩ := bind_outcome rest
    obtain ⟨rfl, rfl⟩ := pure_outcome last
    have still := fun off => uncounted.2.1.trans (unmarked off)
    exact uncounted.exact (tallies v still) counts unmarked

theorem bufferLayout_size {layout real : Layout} (found : bufferLayout layout = some real) :
    real.size = layout.size := by
  unfold bufferLayout at found
  split at found
  · cases found
    rfl
  · cases found

theorem failed_exact {counts : Bool} (w : World) : Exact counts old new w false w :=
  fun unmarked => ⟨.same rfl rfl, fun _ => rfl, unmarked⟩

theorem bufferAllocate_exact {counts : Bool} {allocate : Layout → M (Option Ptr)}
    (meets : ∀ layout, Meets Uncounted 0 layout.size (allocate layout) Option.isSome)
    (layout : Layout) :
    Meets (Exact counts) 0 layout.size (bufferAllocate allocate layout) Option.isSome := by
  unfold bufferAllocate
  cases found : bufferLayout layout with
  | none =>
    intro w r w' run
    obtain ⟨rfl, rfl⟩ := pure_outcome run
    exact failed_exact _
  | some real =>
    simp only
    rw [← bufferLayout_size found]
    exact counted_exact (meets real) fun v _ => countBufferAlloc_tallies v real.size

theorem pair_size {old new o n : Layout} (found : pair old new = some (o, n)) :
    o.size = old.size ∧ n.size = new.size := by
  obtain ⟨first, fits, rest⟩ := Option.bind_eq_some_iff.mp found
  obtain ⟨second, fits', same⟩ := Option.bind_eq_some_iff.mp rest
  cases same
  exact ⟨bufferLayout_size fits, bufferLayout_size fits'⟩

theorem bufferResize_exact {counts : Bool} {resize : Ptr → Layout → Layout → M (Option Ptr)}
    (meets : ∀ ptr old new, Meets Uncounted old.size new.size (resize ptr old new) Option.isSome)
    (ptr : Ptr) (old new : Layout) :
    Meets (Exact counts) old.size new.size (bufferResize resize ptr old new) Option.isSome := by
  unfold bufferResize
  cases found : pair old new with
  | none =>
    intro w r w' run
    obtain ⟨rfl, rfl⟩ := pure_outcome run
    exact failed_exact _
  | some both =>
    obtain ⟨o, n⟩ := both
    simp only
    rw [← (pair_size found).1, ← (pair_size found).2]
    exact counted_exact (meets ptr o n) fun v _ => countResize_tallies v o.size n.size

theorem systemAllocator_uncounted : AllocatorMeets Uncounted (asAllocator system) :=
  asAllocator_meets uncounted_composes system_uncounted

theorem bufferAlloc_exact (counts : Bool) : AllocatorMeets (Exact counts) bufferAlloc where
  allocate := bufferAllocate_exact systemAllocator_uncounted.allocate
  allocateZeroed := bufferAllocate_exact systemAllocator_uncounted.allocateZeroed
  deallocate ptr layout := by
    simp only [bufferAlloc]
    cases found : bufferLayout layout with
    | none =>
      intro w r w' run unmarked
      obtain ⟨_, rfl⟩ := pure_outcome run
      exact ⟨.same rfl rfl, nofun, unmarked⟩
    | some real =>
      simp only
      rw [← bufferLayout_size found]
      intro w r w' run
      obtain ⟨_, v, freed, counted⟩ := bind_outcome run
      exact (systemAllocator_uncounted.deallocate ptr real w () v freed).exact
        (countBufferDealloc_tallies v real.size) counted
  grow := bufferResize_exact systemAllocator_uncounted.grow
  growZeroed := bufferResize_exact systemAllocator_uncounted.growZeroed
  shrink := bufferResize_exact systemAllocator_uncounted.shrink

/-- `Counting` forwards uncounted. -/
def forwards (inner : Inner) (active : Bool) : Bool :=
  countsItself inner || (isGlobal inner && active)

section Wrapped
variable {inner : Inner} {u : Unit}

-- `count_new`, `count_moved` and the end of `deallocate`: the count, unless the bytes are counted.
theorem unless_counted {count : M Unit}
    (run : (forwardsToCountedGlobal inner >>= fun skip => if skip then pure () else count) w =
      some (u, w')) :
    (forwards inner w.active = true ∧ w' = w) ∨
    (forwards inner w.active = false ∧ count w = some (u, w')) := by
  obtain ⟨skip, v, asked, rest⟩ := bind_outcome run
  have same : skip = forwards inner w.active ∧ v = w := by
    cases asked
    exact ⟨rfl, rfl⟩
  obtain ⟨rfl, rfl⟩ := same
  cases skip : forwards inner v.active with
  | true =>
    rw [skip] at rest
    exact .inl ⟨rfl, (pure_outcome rest).2⟩
  | false =>
    rw [skip] at rest
    exact .inr ⟨rfl, rest⟩

theorem unless_counted_tallies {count : M Unit} (mine : forwards inner w.active = false)
    (tallies : TalliesAt w old new count) :
    TalliesAt w old new
      (forwardsToCountedGlobal inner >>= fun skip => if skip then pure () else count) := by
  intro u w' run
  rcases unless_counted run with ⟨theirs, _⟩ | ⟨_, run⟩
  · rw [mine] at theirs
    cases theirs
  · exact tallies u w' run

end Wrapped

/-- `Counting` counts what the allocator it wraps does not. -/
theorem countingAllocator_counts {counts : Bool} {inner : Inner} {a : Allocator}
    (meets : AllocatorMeets Uncounted a)
    (mine : ∀ active, (counts = false → active = false) → forwards inner active = false) :
    AllocatorMeets (Exact counts) (countingAllocator inner a) where
  allocate layout := counted_exact (meets.allocate layout)
    fun v off => unless_counted_tallies (mine v.active off) (countAllocAlways_tallies v layout.size)
  allocateZeroed layout := counted_exact (meets.allocateZeroed layout)
    fun v off => unless_counted_tallies (mine v.active off) (countAllocAlways_tallies v layout.size)
  deallocate ptr layout := by
    intro w r w' run unmarked
    obtain ⟨_, v, freed, rest⟩ := bind_outcome run
    have uncounted := meets.deallocate ptr layout w () v freed
    have off := mine v.active fun off => uncounted.2.1.trans (unmarked off)
    exact uncounted.exact (unless_counted_tallies off (decLiveBytes_tallies v layout.size)) rest
      unmarked
  grow ptr old new := counted_exact (meets.grow ptr old new)
    fun v off => unless_counted_tallies (mine v.active off)
      (countResize_tallies v old.size new.size)
  growZeroed ptr old new := counted_exact (meets.growZeroed ptr old new)
    fun v off => unless_counted_tallies (mine v.active off)
      (countResize_tallies v old.size new.size)
  shrink ptr old new := counted_exact (meets.shrink ptr old new)
    fun v off => unless_counted_tallies (mine v.active off)
      (countResize_tallies v old.size new.size)

/-- Counted already, in a way that `Counting` around it can see. -/
def Settled (counts : Bool) (inner : Inner) : Property := fun old new w ok w' =>
  Exact counts old new w ok w' ∧
  (ok = true → forwards inner w'.active = true ∨ (old = 0 ∧ new = 0))

theorem Settled.passed {counts : Bool} {inner : Inner} {v : World}
    (settled : Settled counts inner old new w true v) {count : M Unit}
    (tallies : TalliesAt v old new count) {u : Unit}
    (run : (forwardsToCountedGlobal inner >>= fun skip => if skip then pure () else count) v =
      some (u, w')) : Exact counts old new w true w' := by
  intro unmarked
  obtain ⟨even, _, off⟩ := settled.1 unmarked
  rcases unless_counted run with ⟨_, rfl⟩ | ⟨mine, run⟩
  · exact ⟨even, nofun, off⟩
  · rcases settled.2 rfl with theirs | ⟨rfl, rfl⟩
    · rw [mine] at theirs
      cases theirs
    · obtain ⟨blocks, active, recounts⟩ := tallies u w' run
      refine ⟨even.trans ⟨recounts.rises, fun below _ => ?_⟩, nofun, fun no => ?_⟩
      · have total : w'.total = v.total := by rw [World.total, World.total, blocks]
        have moved := recounts.moves below (Nat.zero_le _)
        omega
      · exact active.trans (off no)

theorem counted_passed {counts : Bool} {inner : Inner} {call : M (Option Ptr)} {count : M Unit}
    (meets : Meets (Settled counts inner) old new call Option.isSome)
    (tallies : ∀ v, TalliesAt v old new count) :
    Meets (Exact counts) old new (counted call
      (forwardsToCountedGlobal inner >>= fun skip => if skip then pure () else count))
      Option.isSome := by
  intro w r w' run
  obtain ⟨given, v, served, rest⟩ := bind_outcome run
  have settled := meets w given v served
  cases given with
  | none =>
    obtain ⟨rfl, rfl⟩ := pure_outcome rest
    exact settled.1
  | some block =>
    obtain ⟨_, u, counts, last⟩ := bind_outcome rest
    obtain ⟨rfl, rfl⟩ := pure_outcome last
    exact settled.passed (tallies v) counts

/-- `Counting` passes on what is counted below it. -/
theorem countingAllocator_passes {counts : Bool} {inner : Inner} {a : Allocator}
    (meets : AllocatorMeets (Settled counts inner) a) :
    AllocatorMeets (Exact counts) (countingAllocator inner a) where
  allocate layout := counted_passed (meets.allocate layout)
    fun v => countAllocAlways_tallies v layout.size
  allocateZeroed layout := counted_passed (meets.allocateZeroed layout)
    fun v => countAllocAlways_tallies v layout.size
  deallocate ptr layout := by
    intro w r w' run
    obtain ⟨_, v, freed, rest⟩ := bind_outcome run
    exact (meets.deallocate ptr layout w () v freed).passed (decLiveBytes_tallies v layout.size) rest
  grow ptr old new := counted_passed (meets.grow ptr old new)
    fun v => countResize_tallies v old.size new.size
  growZeroed ptr old new := counted_passed (meets.growZeroed ptr old new)
    fun v => countResize_tallies v old.size new.size
  shrink ptr old new := counted_passed (meets.shrink ptr old new)
    fun v => countResize_tallies v old.size new.size

theorem AllocatorMeets.mono {P Q : Property} {a : Allocator} (meets : AllocatorMeets P a)
    (weaker : ∀ old new w ok w', P old new w ok w' → Q old new w ok w') : AllocatorMeets Q a where
  allocate layout w r w' run := weaker _ _ _ _ _ (meets.allocate layout w r w' run)
  allocateZeroed layout w r w' run := weaker _ _ _ _ _ (meets.allocateZeroed layout w r w' run)
  deallocate ptr layout w r w' run := weaker _ _ _ _ _ (meets.deallocate ptr layout w r w' run)
  grow ptr old new w r w' run := weaker _ _ _ _ _ (meets.grow ptr old new w r w' run)
  growZeroed ptr old new w r w' run := weaker _ _ _ _ _ (meets.growZeroed ptr old new w r w' run)
  shrink ptr old new w r w' run := weaker _ _ _ _ _ (meets.shrink ptr old new w r w' run)

theorem counted_global_noted : AllocatorMeets Noted (asAllocator (counting system)) :=
  asAllocator_meets noted_composes (counting_noted system_uncounted)

theorem counted_global_settled :
    AllocatorMeets (Settled true .global) (asAllocator (counting system)) := by
  refine counted_global_noted.mono ?_
  rintro old new w ok w' noted
  exact ⟨noted.exact, noted.2.2.2⟩

theorem bufferAlloc_settled (counts : Bool) :
    AllocatorMeets (Settled counts .bufferAlloc) bufferAlloc := by
  refine (bufferAlloc_exact counts).mono ?_
  intro old new w ok w' exact
  exact ⟨exact, fun _ => .inl rfl⟩

theorem routeAllocator_exact {counts : Bool} {route : Route} {a : Allocator}
    (open_ : routeAllocator counts route = some a) : AllocatorMeets (Exact counts) a := by
  cases route with
  | global =>
    cases counts with
    | false => cases open_
    | true =>
      cases open_
      exact counted_global_noted.mono fun _ _ _ _ _ noted => noted.exact
  | buffer =>
    cases open_
    exact bufferAlloc_exact counts
  | counting inner =>
    cases open_
    cases inner with
    | system => exact countingAllocator_counts systemAllocator_uncounted fun _ _ => rfl
    | bufferAlloc => exact countingAllocator_passes (bufferAlloc_settled counts)
    | global =>
      cases counts with
      | false =>
        refine countingAllocator_counts systemAllocator_uncounted ?_
        intro active off
        rw [off rfl]
        rfl
      | true => exact countingAllocator_passes counted_global_settled

/-! ### Runs -/

theorem succeeds_exact {counts : Bool} {call : M (Option Ptr)} {ok : Bool}
    (meets : Meets (Exact counts) old new call Option.isSome)
    (run : succeeds call w = some (ok, w')) : Exact counts old new w ok w' := by
  obtain ⟨given, v, served, last⟩ := bind_outcome run
  obtain ⟨rfl, rfl⟩ := pure_outcome last
  exact meets w given _ served

theorem perform_exact {counts : Bool} {a : Allocator} (meets : AllocatorMeets (Exact counts) a)
    (method : Method) {ok : Bool} (run : a.perform method w = some (ok, w')) :
    Exact counts 0 0 w ok w' := by
  cases method with
  | allocate layout => exact succeeds_exact (meets.allocate layout) run
  | allocateZeroed layout => exact succeeds_exact (meets.allocateZeroed layout) run
  | deallocate ptr layout =>
    obtain ⟨_, v, freed, last⟩ := bind_outcome run
    obtain ⟨rfl, rfl⟩ := pure_outcome last
    exact meets.deallocate ptr layout w () _ freed
  | grow ptr old new => exact succeeds_exact (meets.grow ptr old new) run
  | growZeroed ptr old new => exact succeeds_exact (meets.growZeroed ptr old new) run
  | shrink ptr old new => exact succeeds_exact (meets.shrink ptr old new) run

theorem globally_exact (method : GlobalMethod) {ok : Bool}
    (run : (counting system).perform method w = some (ok, w')) : Exact true 0 0 w ok w' := by
  have meets := counting_noted system_uncounted
  have served : ∀ {old new call}, Meets Noted old new call Option.isSome →
      succeeds call w = some (ok, w') → Exact true 0 0 w ok w' := by
    intro old new call noted run
    exact succeeds_exact (fun w r w' run => (noted w r w' run).exact) run
  cases method with
  | alloc layout => exact served (meets.alloc layout) run
  | allocZeroed layout => exact served (meets.allocZeroed layout) run
  | dealloc ptr layout =>
    obtain ⟨_, v, freed, last⟩ := bind_outcome run
    obtain ⟨rfl, rfl⟩ := pure_outcome last
    exact (meets.dealloc ptr layout w () _ freed).exact
  | realloc ptr layout newSize => exact served (meets.realloc ptr layout newSize) run

theorem Exact.asked {counts ok : Bool} {answer : Option Ptr}
    (exact : Exact counts 0 0 { w with answer } ok w') : Exact counts 0 0 w ok w' := by
  intro unmarked
  obtain ⟨even, same, off⟩ := exact unmarked
  exact ⟨⟨even.rises, even.even⟩, same, off⟩

theorem serve_exact {counts : Bool} {request : Request} {answer : Option Ptr} {ok : Bool}
    (run : serve counts w request answer = some (ok, w')) : Exact counts 0 0 w ok w' := by
  cases request with
  | through route method =>
    simp only [serve, Request.perform] at run
    cases open_ : routeAllocator counts route with
    | none =>
      rw [open_] at run
      exact (refuse_outcome run).elim
    | some a =>
      rw [open_] at run
      exact (perform_exact (routeAllocator_exact open_) method run).asked
  | globally method =>
    cases counts with
    | false => exact (refuse_outcome (w := { w with answer }) run).elim
    | true => exact (globally_exact method run).asked

structure Tallied (counts : Bool) (w : World) : Prop where
  unmarked : counts = false → w.active = false
  exact : w.counters.peak < saturated → w.counters.live = w.total

theorem Served.tallied {counts : Bool} (served : Served counts w) : Tallied counts w := by
  refine served.invariant ?_ ?_
  · rintro _ rfl
    exact ⟨fun _ => rfl, fun _ => rfl⟩
  · rintro w w' tallied ⟨request, answer, ok, run⟩
    obtain ⟨even, _, off⟩ := serve_exact run tallied.unmarked
    refine ⟨off, fun below => ?_⟩
    have before := tallied.exact (Nat.lt_of_le_of_lt even.rises below)
    have after := even.even below (Nat.le_of_eq before.symm)
    omega

/-- Below saturation, which the peak tells, the live counter is the total size of the blocks that
are allocated; and a call that fails changes no counter. -/
theorem each_block_counted_once {counts : Bool} (served : Served counts w) :
    (w.counters.peak < saturated → w.counters.live = w.total) ∧
    ∀ request answer w', serve counts w request answer = some (false, w') →
      w'.counters = w.counters := by
  have tallied := served.tallied
  refine ⟨tallied.exact, ?_⟩
  intro request answer w' run
  exact (serve_exact run tallied.unmarked).2.1 rfl

def bytes100 : Layout := ⟨100, 8, ⟨3, rfl⟩, by decide⟩

def bytes300 : Layout := ⟨300, 16, ⟨4, rfl⟩, by decide⟩

def answered (counts : Bool) (w : World) (call : Request × Option Ptr) : Option World :=
  (serve counts w call.1 call.2).map Prod.snd

/-- With `Counting` as the global allocator: a block of `Counting<Global>` grows into another
alignment, one of `Counting<BufferAlloc>` stays, one of `Counting<System>` is freed as a block of
the global allocator, and a last one is refused. -/
def calls : List (Request × Option Ptr) :=
  [(.through (.counting .global) (.allocate bytes100), some 8),
    (.through (.counting .bufferAlloc) (.allocateZeroed bytes100), some 512),
    (.through (.counting .global) (.grow 8 bytes100 bytes300), some 1024),
    (.through (.counting .system) (.allocate bytes300), some 4096),
    (.globally (.dealloc 4096 bytes300), none),
    (.through .buffer (.allocate bytes300), none)]

theorem each_block_counted_once_calls :
    ∃ w, Served true w ∧ w.total = 400 ∧ w.counters.live = 400 := by
  have run : (follow (answered true) .new calls).map
      (fun w => (w.total, w.counters.peak)) = some (400, 700) := by decide +kernel
  obtain ⟨w, run, same⟩ := Option.map_eq_some_iff.mp run
  obtain ⟨total, peak⟩ := Prod.mk.inj same
  have served : Served true w := by
    refine Reachable.follow ?_ (.start rfl) run
    intro s a t went
    obtain ⟨⟨ok, after⟩, ran, rfl⟩ := Option.map_eq_some_iff.mp went
    exact ⟨a.1, a.2, ok, ran⟩
  refine ⟨w, served, total, ?_⟩
  rw [← total]
  apply (each_block_counted_once served).1
  rw [peak]
  decide

end Gusset.Alloc
