import Gusset.Alloc.Counters

/-! What every run of the counters keeps: the adds that passed their check fit above `saturated`,
live is the balance of adds and decrements, and the peak follows what the adds returned. -/
namespace Gusset.Alloc
open Foundation

namespace Pc

-- The room that a thread needs which saw room in the cell and has not added yet.
def reserve (cell : Cell) : Pc → Nat
  | .fetchAdd c _ => if c = cell then fastAddMax else 0
  | _ => 0

-- What a thread that saw room is about to add.
def brings : Pc → Nat
  | .fetchAdd _ n => n
  | _ => 0

-- The value of a counter that a thread carries.
def carried : Pc → Nat
  | .exchange _ _ current => current
  | .loadPeak _ next | .fetchMax _ next => next
  | _ => 0

-- The size of an add that is in live and has not returned.
def landed : Pc → Nat
  | .loadPeak n _ | .fetchMax n _ => n
  | _ => 0

-- What a thread is about to raise the peak to.
def raising : Pc → Nat
  | .loadPeak _ next | .fetchMax _ next => next
  | _ => 0

-- A thread that saw live at its top.
def sawTop : Pc → Bool
  | .exchange cell _ current => decide (cell = .live ∧ saturated ≤ current)
  | _ => false

end Pc

/-- The highest value that so many threads can store. -/
def top (threads : Nat) : Nat := saturated + threads * fastAddMax

theorem headroom {threads : Nat} (few : threads ≤ 2 ^ 25) : top threads < usizeMax := by
  have most : threads * fastAddMax ≤ 2 ^ 25 * fastAddMax := Nat.mul_le_mul_right _ few
  have whole : saturated + 2 ^ 25 * fastAddMax < usizeMax := by decide
  unfold top
  omega

section thread
variable {s s' : State} {pc pc' : Pc} {c : Choice}

theorem wrap_fits {a b : Nat} (fits : a + b ≤ usizeMax) :
    wrappingAdd a b = a + b ∧ saturatingAdd a b = a + b := by
  unfold wrappingAdd saturatingAdd
  refine ⟨Nat.mod_eq_of_lt ?_, Nat.min_eq_left fits⟩
  unfold usizeMax at fits
  omega

theorem stored_store (s : State) (v : Nat) (cell other : Cell) :
    (s.store v cell).stored other = if cell = other then v else s.stored other := by
  cases cell <;> cases other <;> rfl

theorem peak_store (s : State) (v : Nat) (cell : Cell) : (s.store v cell).peak = s.peak := by
  cases cell <;> rfl

theorem threads_store (s : State) (v : Nat) (cell : Cell) :
    (s.store v cell).threads = s.threads := by
  cases cell <;> rfl

theorem topped_store (s : State) (v : Nat) :
    (saturated ≤ v → (s.store v .live).topped = true) ∧
      (s.topped = true → (s.store v .live).topped = true) := by
  simp only [State.store, Bool.or_eq_true, decide_eq_true_eq]
  exact ⟨.inr, .inl⟩

theorem returned_store (s : State) (v : Nat) (cell : Cell) :
    (s.store v cell).returned = s.returned := by
  cases cell <;> rfl

/-- What one step of a thread does, with what it saw. -/
inductive Moves (s : State) : Pc → Choice → State → Pc → Prop
  | call (call : Call) : Moves s .idle (.call call) s call.pc
  | readLive : Moves s .loadLive .go (s.finish 0 s.live) .idle
  | small {cell : Cell} {n : Nat} (room : s.stored cell < saturated) (few : n ≤ fastAddMax) :
      Moves s (.load cell n) .go s (.fetchAdd cell n)
  | large {cell : Cell} {n : Nat} :
      Moves s (.load cell n) .go s (.exchange cell n (s.stored cell))
  | fetchAdd {cell : Cell} {n : Nat} :
      Moves s (.fetchAdd cell n) .go (s.store (wrappingAdd (s.stored cell) n) cell)
        (added n (saturatingAdd (s.stored cell) n) cell)
  | full {cell : Cell} {n current : Nat} (top : saturated ≤ current) :
      Moves s (.exchange cell n current) .go s (added n current cell)
  | exchange {cell : Cell} {n : Nat} (room : s.stored cell < saturated) :
      Moves s (.exchange cell n (s.stored cell)) .go
        (s.store (min (saturatingAdd (s.stored cell) n) saturated) cell)
        (added n (min (saturatingAdd (s.stored cell) n) saturated) cell)
  | reload {cell : Cell} {n current : Nat} {c : Choice} (room : current < saturated) :
      Moves s (.exchange cell n current) c s (.exchange cell n (s.stored cell))
  | reached {n next : Nat} (below : next ≤ s.peak) :
      Moves s (.loadPeak n next) .go (s.finish n next) .idle
  | higher {n next : Nat} : Moves s (.loadPeak n next) .go s (.fetchMax n next)
  | fetchMax {n next : Nat} :
      Moves s (.fetchMax n next) .go { s.finish n next with peak := max s.peak next } .idle
  | loadDec {n : Nat} : Moves s (.loadDec n) .go s (.exchangeDec n s.live)
  | takeOff {n : Nat} :
      Moves s (.exchangeDec n s.live) .go
        { s with live := saturatingSub s.live n, decs := s.decs + n
                 floored := s.floored || decide (s.live < n) } .idle
  | reloadDec {n current : Nat} {c : Choice} :
      Moves s (.exchangeDec n current) c s (.exchangeDec n s.live)

theorem thread_moves (went : threadStep s pc c = some (s', pc')) : Moves s pc c s' pc' := by
  unfold threadStep at went
  split at went
  · cases went
    exact .call _
  · cases went
    exact .readLive
  · cases went
    split
    · rename_i fast
      exact .small fast.1 fast.2
    · exact .large
  · cases went
    exact .fetchAdd
  · split at went
    · rename_i top
      cases went
      exact .full top
    · rename_i room
      have room := Nat.lt_of_not_le room
      split at went
      · rename_i same
        subst same
        cases went
        exact .exchange room
      · cases went
        exact .reload room
  · split at went
    · cases went
    · rename_i room
      cases went
      exact .reload (Nat.lt_of_not_le room)
  · split at went
    · cases went
      exact .higher
    · rename_i below
      cases went
      exact .reached (Nat.le_of_not_lt below)
  · cases went
    exact .fetchMax
  · cases went
    exact .loadDec
  · split at went
    · rename_i same
      subst same
      cases went
      exact .takeOff
    · cases went
      exact .reloadDec
  · cases went
    exact .reloadDec
  · cases went

theorem call_carries (call : Call) : call.pc.brings = 0 ∧ call.pc.carried = 0 ∧ call.pc.landed = 0 ∧
    call.pc.raising = 0 ∧ call.pc.sawTop = false ∧ ∀ cell, call.pc.reserve cell = 0 := by
  cases call with
  | addCount => exact ⟨rfl, rfl, rfl, rfl, rfl, fun _ => rfl⟩
  | addLive size | decLive size =>
    by_cases none : size = 0
    · simp only [Call.pc, if_pos none]
      exact ⟨rfl, rfl, rfl, rfl, rfl, fun _ => rfl⟩
    · simp only [Call.pc, if_neg none]
      exact ⟨rfl, rfl, rfl, rfl, rfl, fun _ => rfl⟩

theorem added_carries (n next : Nat) (own : Cell) : (added n next own).brings = 0 ∧
    (added n next own).sawTop = false ∧ (added n next own).carried ≤ next ∧
    ∀ cell, (added n next own).reserve cell = 0 := by
  cases own with
  | live => exact ⟨rfl, rfl, Nat.le_refl next, fun _ => rfl⟩
  | count => exact ⟨rfl, rfl, Nat.zero_le next, fun _ => rfl⟩

/-- What a step does to a cell: what is stored and the room that the thread needs do not grow, or
the cell is at most `saturated` after it. -/
theorem thread_room (fits : ∀ cell n, pc = .fetchAdd cell n → s.stored cell + n ≤ usizeMax)
    (small : pc.brings ≤ fastAddMax) (moves : Moves s pc c s' pc') (cell : Cell) :
    s'.stored cell + pc'.reserve cell ≤ s.stored cell + pc.reserve cell ∨
      s'.stored cell ≤ saturated := by
  cases moves with
  | call call =>
    rw [(call_carries call).2.2.2.2.2 cell]
    exact .inl (Nat.le_add_right _ _)
  | small room few =>
    rename_i own n
    by_cases mine : own = cell
    · exact .inr (mine ▸ room.le)
    · exact .inl (by simp [Pc.reserve, mine])
  | fetchAdd =>
    rename_i own n
    left
    rw [stored_store, (added_carries _ _ _).2.2.2 cell]
    by_cases mine : own = cell
    · subst mine
      simp only [Pc.brings] at small
      simp only [if_pos, (wrap_fits (fits _ _ rfl)).1, Pc.reserve]
      omega
    · rw [if_neg mine]
      exact Nat.le_add_right _ _
  | full top =>
    rw [(added_carries _ _ _).2.2.2 cell]
    exact .inl (Nat.le_add_right _ _)
  | exchange room =>
    rename_i own n
    rw [stored_store, (added_carries _ _ _).2.2.2 cell]
    by_cases mine : own = cell
    · right
      rw [if_pos mine]
      exact Nat.min_le_right _ _
    · left
      rw [if_neg mine]
      exact Nat.le_add_right _ _
  | takeOff =>
    left
    cases cell with
    | live =>
      simp only [State.stored, saturatingSub, Pc.reserve]
      split <;> omega
    | count => exact Nat.le_refl _
  | readLive | reached below | fetchMax => exact .inl (by cases cell <;> exact Nat.le_refl _)
  | large | reload room | higher | loadDec | reloadDec => exact .inl (Nat.le_refl _)

/-- A thread carries only what it read or stored, and a small add. -/
theorem thread_carries {bound : Nat} (low : saturated ≤ bound) (cells : ∀ cell, s.stored cell ≤ bound)
    (peak : s.peak ≤ bound) (fits : ∀ cell n, pc = .fetchAdd cell n → s.stored cell + n ≤ bound)
    (carried : pc.carried ≤ bound) (moves : Moves s pc c s' pc') :
    pc'.carried ≤ bound ∧ pc'.brings ≤ fastAddMax ∧ s'.peak ≤ bound ∧ s'.threads = s.threads := by
  have adds (n : Nat) {next : Nat} (own : Cell) (fits : next ≤ bound) :
      (added n next own).carried ≤ bound ∧ (added n next own).brings ≤ fastAddMax := by
    obtain ⟨brings, _, carries, _⟩ := added_carries n next own
    exact ⟨carries.trans fits, brings.trans_le (Nat.zero_le _)⟩
  cases moves with
  | call call =>
    obtain ⟨brings, carries, _⟩ := call_carries call
    rw [brings, carries]
    exact ⟨Nat.zero_le _, Nat.zero_le _, peak, rfl⟩
  | small room few => exact ⟨Nat.zero_le _, few, peak, rfl⟩
  | large | reload room => exact ⟨cells _, Nat.zero_le _, peak, rfl⟩
  | fetchAdd =>
    rename_i own n
    obtain ⟨carries, brings⟩ := adds n own ((Nat.min_le_left _ _).trans (fits own n rfl))
    exact ⟨carries, brings, (peak_store _ _ _).trans_le peak, threads_store _ _ _⟩
  | full top =>
    rename_i own n current
    obtain ⟨carries, brings⟩ := adds n own carried
    exact ⟨carries, brings, peak, rfl⟩
  | exchange room =>
    rename_i own n
    obtain ⟨carries, brings⟩ := adds n own ((Nat.min_le_right _ saturated).trans low)
    exact ⟨carries, brings, (peak_store _ _ _).trans_le peak, threads_store _ _ _⟩
  | higher => exact ⟨carried, Nat.zero_le _, peak, rfl⟩
  | fetchMax => exact ⟨Nat.zero_le _, Nat.zero_le _, Nat.max_le.mpr ⟨peak, carried⟩, rfl⟩
  | readLive | reached below | loadDec | takeOff | reloadDec =>
    exact ⟨Nat.zero_le _, Nat.zero_le _, peak, rfl⟩

/-- A step lands an add, returns one, or takes something off; at the top, or below zero, it may do
less. -/
theorem thread_books (fits : ∀ cell n, pc = .fetchAdd cell n → s.stored cell + n ≤ usizeMax)
    (top : saturated ≤ s.live → s.topped = true) (saw : pc.sawTop = true → s.topped = true)
    (moves : Moves s pc c s' pc') :
    (saturated ≤ s'.live → s'.topped = true) ∧ (pc'.sawTop = true → s'.topped = true) ∧
    (s.topped = true → s'.topped = true) ∧ (s.floored = true → s'.floored = true) ∧
    (s'.topped = false → s'.floored = false →
      s'.live + s'.decs + s.adds + pc.landed = s.live + s.decs + s'.adds + pc'.landed) := by
  -- What a thread saw of live, live is or was.
  have seen (n : Nat) (own : Cell) (now : (Pc.exchange own n (s.stored own)).sawTop = true) :
      s.topped = true := by
    simp only [Pc.sawTop, decide_eq_true_eq] at now
    obtain ⟨rfl, high⟩ := now
    exact top high
  cases moves with
  | call call =>
    obtain ⟨_, _, landed, _, sees, _⟩ := call_carries call
    rw [landed, sees]
    exact ⟨top, (fun no => by cases no), id, id, fun _ _ => rfl⟩
  | small room few => exact ⟨top, (fun no => by cases no), id, id, fun _ _ => rfl⟩
  | large | reload room => exact ⟨top, seen _ _, id, id, fun _ _ => rfl⟩
  | fetchAdd =>
    rename_i own n
    cases own with
    | live =>
      have sum : wrappingAdd s.live n = s.live + n := (wrap_fits (fits .live n rfl)).1
      obtain ⟨tops, keeps⟩ := topped_store s (wrappingAdd s.live n)
      refine ⟨tops, (fun no => by cases no), keeps, id, ?_⟩
      intro _ _
      simp only [State.store, State.stored, sum, added, Pc.landed]
      omega
    | count => exact ⟨top, (fun no => by cases no), id, id, fun _ _ => rfl⟩
  | full high =>
    rename_i own n current
    cases own with
    | live =>
      have was : s.topped = true := saw (by simp [Pc.sawTop, high])
      refine ⟨top, (fun no => by cases no), id, id, ?_⟩
      intro low
      rw [was] at low
      cases low
    | count => exact ⟨top, (fun no => by cases no), id, id, fun _ _ => rfl⟩
  | exchange room =>
    rename_i own n
    cases own with
    | live =>
      obtain ⟨tops, keeps⟩ := topped_store s (min (saturatingAdd s.live n) saturated)
      refine ⟨tops, (fun no => by cases no), keeps, id, ?_⟩
      -- Below the top nothing was cut off the sum.
      intro low _
      have below : saturated < usizeMax := by decide
      have low := of_decide_eq_false (Bool.or_eq_false_iff.mp low).2
      simp only [State.store, State.stored, saturatingAdd, added, Pc.landed] at low ⊢
      omega
    | count => exact ⟨top, (fun no => by cases no), id, id, fun _ _ => rfl⟩
  | takeOff =>
    rename_i n
    refine ⟨?_, (fun no => by cases no), id, ?_, ?_⟩
    · intro high
      apply top
      simp only [saturatingSub] at high
      split at high <;> omega
    · intro before
      simp only [before, Bool.true_or]
    · intro _ whole
      simp only [Bool.or_eq_false_iff, decide_eq_false_iff_not] at whole
      simp only [saturatingSub, if_neg whole.2, Pc.landed]
      omega
  | readLive | reached below | fetchMax =>
    refine ⟨top, (fun no => by cases no), id, id, fun _ _ => ?_⟩
    simp only [State.finish, Pc.landed]
    omega
  | higher | loadDec | reloadDec => exact ⟨top, (fun no => by cases no), id, id, fun _ _ => rfl⟩

/-- The peak follows: a step that returns a value first raised the peak to it, and what lives is
about to be raised to. -/
theorem thread_peaks (fits : ∀ cell n, pc = .fetchAdd cell n → s.stored cell + n ≤ usizeMax)
    (moves : Moves s pc c s' pc') :
    s.peak ≤ s'.peak ∧ pc.raising ≤ max s'.peak pc'.raising ∧
    (s'.live ≤ s.live ∨ s'.live ≤ pc'.raising) ∧
    (s'.returned = s.returned ∨ ∃ n next, s'.returned = (n, next) :: s.returned ∧
      ((n ≠ 0 ∧ next ≤ s'.peak) ∨ (n = 0 ∧ next = s.live) ∨ (n = 0 ∧ next ≤ s'.peak))) := by
  -- An add that returns with the peak at its value.
  have answers (n : Nat) {next peak : Nat} (below : next ≤ peak) :
      (n ≠ 0 ∧ next ≤ peak) ∨ (n = 0 ∧ next = s.live) ∨ (n = 0 ∧ next ≤ peak) := by
    by_cases none : n = 0
    · exact .inr (.inr ⟨none, below⟩)
    · exact .inl ⟨none, below⟩
  cases moves with
  | readLive =>
    exact ⟨Nat.le_refl _, Nat.zero_le _, .inl (Nat.le_refl _),
      .inr ⟨0, s.live, rfl, .inr (.inl ⟨rfl, rfl⟩)⟩⟩
  | fetchAdd =>
    rename_i own n
    refine ⟨(peak_store _ _ _).ge, Nat.zero_le _, ?_, .inl (returned_store _ _ _)⟩
    cases own with
    | live =>
      have sums := wrap_fits (fits .live n rfl)
      exact .inr (sums.1.trans sums.2.symm).le
    | count => exact .inl (Nat.le_refl _)
  | exchange room =>
    rename_i own n
    refine ⟨(peak_store _ _ _).ge, Nat.zero_le _, ?_, .inl (returned_store _ _ _)⟩
    cases own with
    | live => exact .inr (Nat.le_refl _)
    | count => exact .inl (Nat.le_refl _)
  | reached below =>
    exact ⟨Nat.le_refl _, le_max_of_le_left below, .inl (Nat.le_refl _),
      .inr ⟨_, _, rfl, answers _ below⟩⟩
  | higher => exact ⟨Nat.le_refl _, Nat.le_max_right _ _, .inl (Nat.le_refl _), .inl rfl⟩
  | fetchMax =>
    exact ⟨Nat.le_max_left _ _, le_max_of_le_left (Nat.le_max_right _ _), .inl (Nat.le_refl _),
      .inr ⟨_, _, rfl, answers _ (Nat.le_max_right _ _)⟩⟩
  | takeOff =>
    refine ⟨Nat.le_refl _, Nat.zero_le _, .inl ?_, .inl rfl⟩
    simp only [saturatingSub]
    split <;> omega
  | call | small room few | large | full top | reload room | loadDec | reloadDec =>
    exact ⟨Nat.le_refl _, Nat.zero_le _, .inl (Nat.le_refl _), .inl rfl⟩

end thread

/-- What a run of so many threads keeps. -/
structure Kept (threads : Nat) (s : State) : Prop where
  size : s.threads.length = threads
  room : ∀ cell, s.stored cell + census (Pc.reserve cell) s.threads ≤ top threads
  small : ∀ pc ∈ s.threads, pc.brings ≤ fastAddMax
  carried : ∀ pc ∈ s.threads, pc.carried ≤ top threads
  peak : s.peak ≤ top threads
  topped : saturated ≤ s.live → s.topped = true
  saw : ∀ pc ∈ s.threads, pc.sawTop = true → s.topped = true
  even : s.topped = false → s.floored = false →
    s.live + s.decs = s.adds + census Pc.landed s.threads

/-- A value that the peak has reached, or that a thread is about to raise it to. -/
def Covered (s : State) (v : Nat) : Prop := v ≤ s.peak ∨ ∃ pc ∈ s.threads, v ≤ pc.raising

structure Peaks (s : State) : Prop where
  live : Covered s s.live
  answers : ∀ r ∈ s.returned, Covered s r.2
  reached : ∀ r ∈ s.returned, r.1 ≠ 0 → r.2 ≤ s.peak

variable {T : Nat} {s s' : State}

theorem reserve_le (cell : Cell) (l : List Pc) :
    census (Pc.reserve cell) l ≤ l.length * fastAddMax := by
  induction l with
  | nil => exact Nat.zero_le _
  | cons pc rest ih =>
    have one : pc.reserve cell ≤ fastAddMax := by
      cases pc with
      | fetchAdd own n =>
        simp only [Pc.reserve]
        split <;> omega
      | _ => exact Nat.zero_le _
    rw [census_cons, List.length_cons, Nat.succ_mul]
    omega

theorem new_kept (T : Nat) : Kept T (.new T) ∧ Peaks (.new T) := by
  have idle : ∀ pc ∈ (State.new T).threads, pc = .idle := fun pc member =>
    (List.mem_replicate.mp member).2
  have none (f : Pc → Nat) (zero : f .idle = 0) : census f (State.new T).threads = 0 :=
    census_eq_zero _ fun pc member => by rw [idle pc member, zero]
  refine ⟨⟨List.length_replicate, ?_, ?_, ?_, Nat.zero_le _, ?_, ?_, ?_⟩, ?_, ?_, ?_⟩
  · intro cell
    rw [none _ rfl]
    cases cell <;> exact Nat.zero_le _
  · intro pc member
    rw [idle pc member]
    exact Nat.zero_le _
  · intro pc member
    rw [idle pc member]
    exact Nat.zero_le _
  · intro low
    have low : saturated ≤ 0 := low
    exact absurd low (by decide)
  · intro pc member saw
    rw [idle pc member] at saw
    cases saw
  · intro _ _
    rw [none _ rfl]
    rfl
  · exact .inl (Nat.le_refl 0)
  · exact fun _ member => nomatch member
  · exact fun _ member => nomatch member

/-- A thread past its check has room for its add. -/
theorem Kept.fits (kept : Kept T s) {i : Nat} {cell : Cell} {n : Nat}
    (here : s.threads[i]? = some (.fetchAdd cell n)) : s.stored cell + n ≤ top T := by
  have room := kept.room cell
  have mine := le_census (Pc.reserve cell) here
  have small := kept.small _ (List.mem_of_getElem? here)
  simp only [Pc.reserve, if_true, Pc.brings] at mine small
  omega

theorem Kept.stored_le (kept : Kept T s) (cell : Cell) : s.stored cell ≤ top T := by
  have room := kept.room cell
  omega

section step
variable {u : State} {i : Nat} {pc pc' : Pc} {c : Choice}

theorem Kept.nowrap (few : T ≤ 2 ^ 25) (kept : Kept T s) (here : s.threads[i]? = some pc)
    (cell : Cell) (n : Nat) (add : pc = .fetchAdd cell n) : s.stored cell + n ≤ usizeMax :=
  (kept.fits (add ▸ here)).trans (headroom few).le

theorem forall_set {P : Pc → Prop} {l : List Pc} (old : ∀ pc ∈ l, P pc) (new : P pc') :
    ∀ pc ∈ l.set i pc', P pc := by
  intro x inside
  rcases List.mem_or_eq_of_mem_set inside with before | rfl
  · exact old x before
  · exact new

theorem Kept.thread (few : T ≤ 2 ^ 25) (kept : Kept T s) (here : s.threads[i]? = some pc)
    (moves : Moves s pc c u pc') : Kept T { u with threads := s.threads.set i pc' } := by
  have member := List.mem_of_getElem? here
  have nowrap := kept.nowrap few here
  have size : (s.threads.set i pc').length = T := by rw [List.length_set, kept.size]
  obtain ⟨carries, small, peak, _⟩ := thread_carries (Nat.le_add_right _ _) kept.stored_le kept.peak
    (fun cell n add => kept.fits (add ▸ here)) (kept.carried pc member) moves
  obtain ⟨topped, saw, keeps, floors, even⟩ :=
    thread_books nowrap kept.topped (kept.saw pc member) moves
  refine ⟨size, ?_, forall_set kept.small small, forall_set kept.carried carries, peak, topped,
    ?_, ?_⟩
  · intro cell
    have moved := census_set (Pc.reserve cell) here pc'
    have room := kept.room cell
    have all := reserve_le cell (s.threads.set i pc')
    have same : (State.stored { u with threads := s.threads.set i pc' } cell) = u.stored cell := by
      cases cell <;> rfl
    rw [same]
    simp only
    rcases thread_room nowrap (kept.small pc member) moves cell with less | below
    · omega
    · rw [size] at all
      unfold top
      omega
  · exact forall_set (fun x inside seen => keeps (kept.saw x inside seen)) saw
  · intro low unfloored
    have moved := census_set Pc.landed here pc'
    have wasLow : s.topped = false := by
      by_contra high
      rw [keeps (by simpa using high)] at low
      cases low
    have wasEven : s.floored = false := by
      by_contra high
      rw [floors (by simpa using high)] at unfloored
      cases unfloored
    have before := kept.even wasLow wasEven
    have change := even low unfloored
    simp only
    omega

theorem mem_set (here : s.threads[i]? = some pc) : pc' ∈ s.threads.set i pc' :=
  List.mem_iff_getElem?.mpr ⟨i, by simp [List.getElem?_set_self', here]⟩

/-- A value stays covered: the thread that leaves has raised the peak. -/
theorem Covered.thread (here : s.threads[i]? = some pc) (rises : s.peak ≤ u.peak)
    (raising : pc.raising ≤ max u.peak pc'.raising) {v : Nat} (before : Covered s v) :
    Covered { u with threads := s.threads.set i pc' } v := by
  rcases before with below | ⟨x, inside, below⟩
  · exact .inl (below.trans rises)
  · obtain ⟨j, there⟩ := List.mem_iff_getElem?.mp inside
    by_cases same : j = i
    · subst same
      have equal : x = pc := by simpa [there] using here
      rw [equal] at below
      rcases le_max_iff.mp (below.trans raising) with peak | next
      · exact .inl peak
      · exact .inr ⟨pc', mem_set here, next⟩
    · exact .inr ⟨x, List.mem_iff_getElem?.mpr
        ⟨j, by rw [List.getElem?_set_ne (Ne.symm same)]; exact there⟩, below⟩

theorem Covered.mono {v w : Nat} (covered : Covered s w) (below : v ≤ w) : Covered s v := by
  rcases covered with high | ⟨x, inside, high⟩
  · exact .inl (below.trans high)
  · exact .inr ⟨x, inside, below.trans high⟩

theorem Peaks.thread (few : T ≤ 2 ^ 25) (kept : Kept T s) (peaks : Peaks s)
    (here : s.threads[i]? = some pc) (moves : Moves s pc c u pc') :
    Peaks { u with threads := s.threads.set i pc' } := by
  obtain ⟨rises, raising, live, answers⟩ := thread_peaks (kept.nowrap few here) moves
  have covers {v : Nat} (before : Covered s v) := before.thread here rises raising
  have old : ∀ r ∈ s.returned, Covered { u with threads := s.threads.set i pc' } r.2 ∧
      (r.1 ≠ 0 → r.2 ≤ u.peak) := fun r inside =>
    ⟨covers (peaks.answers r inside), fun some => (peaks.reached r inside some).trans rises⟩
  have every : ∀ r ∈ u.returned, Covered { u with threads := s.threads.set i pc' } r.2 ∧
      (r.1 ≠ 0 → r.2 ≤ u.peak) := by
    rcases answers with same | ⟨n, next, same, which⟩
    · rw [same]
      exact old
    · rw [same]
      refine List.forall_mem_cons.mpr ⟨?_, old⟩
      rcases which with ⟨_, below⟩ | ⟨zero, equal⟩ | ⟨zero, below⟩
      · exact ⟨.inl below, fun _ => below⟩
      · exact ⟨(covers peaks.live).mono equal.le, fun some => absurd zero some⟩
      · exact ⟨.inl below, fun some => absurd zero some⟩
  refine ⟨?_, fun r inside => (every r inside).1, fun r inside => (every r inside).2⟩
  rcases live with below | below
  · exact (covers peaks.live).mono below
  · exact .inr ⟨pc', mem_set here, below⟩

theorem step_kept (few : T ≤ 2 ^ 25) (kept : Kept T s) (peaks : Peaks s) (went : Steps s s') :
    Kept T s' ∧ Peaks s' := by
  obtain ⟨⟨i, c⟩, went⟩ := went
  simp only [Alloc.step, Option.bind_eq_some_iff, Option.map_eq_some_iff] at went
  obtain ⟨pc, here, ⟨u, pc'⟩, went, rfl⟩ := went
  have moves := thread_moves went
  obtain ⟨_, _, _, threads⟩ := thread_carries (Nat.le_add_right _ _) kept.stored_le kept.peak
    (fun cell n add => kept.fits (add ▸ here)) (kept.carried pc (List.mem_of_getElem? here)) moves
  simp only [threads]
  exact ⟨kept.thread few here moves, peaks.thread few kept here moves⟩

end step

theorem reaches_kept (few : T ≤ 2 ^ 25) (reach : Reaches T s) : Kept T s ∧ Peaks s := by
  apply reach.invariant
  · rintro _ rfl
    exact new_kept T
  · exact fun s s' kept went => step_kept few kept.1 kept.2 went

/-- The step in which a dec_live takes its bytes off. -/
def Takes (s : State) (a : Act) : Prop :=
  ∃ n, s.threads[a.thread]? = some (.exchangeDec n s.live) ∧ a.choice = .go

/-- A step in which no dec_live takes anything off. -/
def Spares (s s' : State) : Prop := ∃ a, step s a = some s' ∧ ¬ Takes s a

theorem le_exchanged {a : Nat} (room : a < saturated) (n : Nat) :
    a ≤ min (saturatingAdd a n) saturated := by
  have below : saturated < usizeMax := by decide
  unfold saturatingAdd
  omega

theorem thread_falls {u : State} {pc pc' : Pc} {c : Choice}
    (fits : ∀ cell n, pc = .fetchAdd cell n → s.stored cell + n ≤ usizeMax)
    (moves : Moves s pc c u pc') :
    s.count ≤ u.count ∧
      (s.live ≤ u.live ∨ ∃ n current, pc = .exchangeDec n current ∧ s.live = current ∧ c = .go) := by
  cases moves with
  | fetchAdd =>
    rename_i own n
    have sum := (wrap_fits (fits own n rfl)).1
    cases own with
    | live => exact ⟨Nat.le_refl _, .inl ((Nat.le_add_right _ n).trans_eq sum.symm)⟩
    | count => exact ⟨(Nat.le_add_right _ n).trans_eq sum.symm, .inl (Nat.le_refl _)⟩
  | exchange room =>
    rename_i own n
    cases own with
    | live => exact ⟨Nat.le_refl _, .inl (le_exchanged room n)⟩
    | count => exact ⟨le_exchanged room n, .inl (Nat.le_refl _)⟩
  | takeOff => exact ⟨Nat.le_refl _, .inr ⟨_, _, rfl, rfl, rfl⟩⟩
  | _ => exact ⟨Nat.le_refl _, .inl (Nat.le_refl _)⟩

theorem step_falls (few : T ≤ 2 ^ 25) (reach : Reaches T s) {a : Act} (went : step s a = some s') :
    s.count ≤ s'.count ∧ s.peak ≤ s'.peak ∧ (s.live ≤ s'.live ∨ Takes s a) := by
  have kept := (reaches_kept few reach).1
  obtain ⟨i, c⟩ := a
  simp only [step, Option.bind_eq_some_iff, Option.map_eq_some_iff] at went
  obtain ⟨pc, here, ⟨u, pc'⟩, moved, rfl⟩ := went
  obtain ⟨count, live⟩ := thread_falls (kept.nowrap few here) (thread_moves moved)
  refine ⟨count, (thread_peaks (kept.nowrap few here) (thread_moves moved)).1, live.imp_right ?_⟩
  rintro ⟨n, current, rfl, rfl, rfl⟩
  exact ⟨n, here, rfl⟩

theorem run_reaches (reach : Reaches T s) {u : State} (run : Relation.ReflTransGen Steps s u) :
    Reaches T u := by
  induction run with
  | refl => exact reach
  | tail _ went ih => exact ih.next went

/-- Count and peak never fall. -/
theorem run_rises (few : T ≤ 2 ^ 25) (reach : Reaches T s) {u : State}
    (run : Relation.ReflTransGen Steps s u) : s.count ≤ u.count ∧ s.peak ≤ u.peak := by
  induction run with
  | refl => exact ⟨Nat.le_refl _, Nat.le_refl _⟩
  | tail before went ih =>
    obtain ⟨a, went⟩ := went
    obtain ⟨count, peak, _⟩ := step_falls few (run_reaches reach before) went
    exact ⟨ih.1.trans count, ih.2.trans peak⟩

/-- Neither does live, as long as nothing is taken off it. -/
theorem spared_rises (few : T ≤ 2 ^ 25) (reach : Reaches T s) {u : State}
    (run : Relation.ReflTransGen Spares s u) : Reaches T u ∧ s.live ≤ u.live := by
  induction run with
  | refl => exact ⟨reach, Nat.le_refl _⟩
  | tail before went ih =>
    obtain ⟨a, went, spares⟩ := went
    exact ⟨ih.1.next ⟨a, went⟩, ih.2.trans ((step_falls few ih.1 went).2.2.resolve_right spares)⟩

theorem exchange_low {i n current : Nat} {cell : Cell} {c : Choice}
    (here : s.threads[i]? = some (.exchange cell n current)) (went : step s ⟨i, c⟩ = some s') :
    s'.stored cell = s.stored cell ∨ s'.stored cell ≤ saturated := by
  simp only [step, here, Option.bind_some, Option.map_eq_some_iff] at went
  obtain ⟨⟨u, pc'⟩, went, rfl⟩ := went
  have same : (State.stored { u with threads := u.threads.set i pc' } cell) = u.stored cell := by
    cases cell <;> rfl
  rw [same]
  cases thread_moves went with
  | full top => exact .inl rfl
  | exchange room =>
    right
    rw [stored_store, if_pos rfl]
    exact Nat.min_le_right _ _
  | reload room => exact .inl rfl

theorem dec_floors {i n current : Nat} {c : Choice}
    (here : s.threads[i]? = some (.exchangeDec n current)) (went : step s ⟨i, c⟩ = some s') :
    s'.live = s.live ∨ s'.live + min n s.live = s.live := by
  simp only [step, here, Option.bind_some, Option.map_eq_some_iff] at went
  obtain ⟨⟨u, pc'⟩, went, rfl⟩ := went
  cases thread_moves went with
  | takeOff =>
    right
    simp only [saturatingSub]
    split <;> omega
  | reloadDec => exact .inl rfl

/-- With at most `2 ^ 25` threads no counter wraps, whatever they add and take off, in whatever
order; a counter at its top reads as `usizeMax`, live is the balance of adds and decrements, and the
peak is at least what the adds returned. -/
theorem counters_never_wrap (few : T ≤ 2 ^ 25) (reach : Reaches T s) :
    ((∀ cell, s.stored cell ≤ saturated + T * fastAddMax) ∧ s.peak ≤ saturated + T * fastAddMax ∧
      saturated + T * fastAddMax < usizeMax) ∧
    (∀ (i : Nat) cell n, s.threads[i]? = some (.fetchAdd cell n) →
      wrappingAdd (s.stored cell) n = s.stored cell + n) ∧
    (∀ (i : Nat) cell n current c s', s.threads[i]? = some (.exchange cell n current) →
      step s ⟨i, c⟩ = some s' → s'.stored cell = s.stored cell ∨ s'.stored cell ≤ saturated) ∧
    (∀ (i : Nat) n current c s', s.threads[i]? = some (.exchangeDec n current) →
      step s ⟨i, c⟩ = some s' → s'.live = s.live ∨ s'.live + min n s.live = s.live) ∧
    (∀ u, Relation.ReflTransGen Steps s u →
      (saturated ≤ s.count → reported u.count = usizeMax) ∧
      (saturated ≤ s.peak → reported u.peak = usizeMax) ∧
      (saturated ≤ s.live → Relation.ReflTransGen Spares s u → reported u.live = usizeMax)) ∧
    (s.topped = false → s.floored = false →
      s.live + s.decs = s.adds + census Pc.landed s.threads) ∧
    (∀ r ∈ s.returned, r.1 ≠ 0 → r.2 ≤ s.peak) ∧
    ((∀ pc ∈ s.threads, pc.raising = 0) → ∀ r ∈ s.returned, r.2 ≤ s.peak) := by
  obtain ⟨kept, peaks⟩ := reaches_kept few reach
  refine ⟨⟨kept.stored_le, kept.peak, headroom few⟩, ?_, ?_, ?_, ?_, kept.even, peaks.reached, ?_⟩
  · intro i cell n here
    exact (wrap_fits (kept.nowrap few here cell n rfl)).1
  · exact fun i cell n current c s' here went => exchange_low here went
  · exact fun i n current c s' here went => dec_floors here went
  · intro u run
    obtain ⟨count, peak⟩ := run_rises few reach run
    refine ⟨?_, ?_, ?_⟩
    · exact fun high => if_pos (high.trans count)
    · exact fun high => if_pos (high.trans peak)
    · exact fun high spared => if_pos (high.trans (spared_rises few reach spared).2)
  · intro quiet r inside
    rcases peaks.answers r inside with below | ⟨pc, member, below⟩
    · exact below
    · rw [quiet pc member] at below
      omega

/-- One thread has added ten bytes and not raised the peak; another adds none, and reads ten. -/
def peeked : Option State :=
  follow step (.new 2)
    [⟨0, .call (.addLive 10)⟩, ⟨0, .go⟩, ⟨0, .go⟩, ⟨1, .call (.addLive 0)⟩, ⟨1, .go⟩]

theorem peeked_runs : peeked.isSome = true := by decide +kernel

theorem peeked_reaches : Reaches 2 (peeked.get peeked_runs) :=
  Reachable.follow (fun _ a _ went => ⟨a, went⟩) (.start rfl) (Option.some_get _).symm

theorem counters_never_wrap_peeked :
    ∃ s, peeked = some s ∧ s.live = 10 ∧ s.threads = [.loadPeak 10 10, .idle] ∧
      s.live + s.decs = s.adds + census Pc.landed s.threads := by
  refine ⟨peeked.get peeked_runs, by simp, by decide +kernel, by decide +kernel, ?_⟩
  exact (counters_never_wrap (by decide) peeked_reaches).2.2.2.2.2.1 (by decide +kernel)
    (by decide +kernel)

/-- An add of nothing may return a live value that the peak has not reached. -/
theorem peak_lags : ¬ ∀ s, Reaches 2 s → ∀ r ∈ s.returned, r.2 ≤ s.peak := by
  intro every
  exact absurd (every _ peeked_reaches (0, 10) (by decide +kernel)) (by decide +kernel)

end Gusset.Alloc
