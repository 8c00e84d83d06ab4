import Gusset.Descriptor.Joins

/-! The completion descriptor is closed once: never by a handle that failed to open, at the latest
when the last reference is gone and the threads have come to rest, and no write comes after. -/
namespace Gusset.Descriptor
open Foundation

variable {cfg : Config} {s : State} {i : Nat} {th : Thread} {c : Choice} {e : Effect}

/-- No thread can go on by itself: none has a step left in a call, none is left to exit. -/
def State.AtRest (cfg : Config) (s : State) : Prop :=
  ∀ i, (∀ c, s.step cfg (.thread i c) = none) ∧ s.step cfg (.move i .exit) = none

theorem step_thread (member : s.threads[i]? = some th) :
    s.step cfg (.thread i c) = (s.threadStep cfg i th c).map (s.apply i) := by
  simp only [State.step, member, Option.bind_some]

theorem write_moves (member : s.threads[i]? = some th) (went : writeStep s th th.pc c = some e) :
    s.step cfg (.thread i c) ≠ none := by
  rw [step_thread member]
  cases opens : openStep cfg s th th.pc c with
  | none => simp [State.threadStep, opens, went]
  | some _ => simp [State.threadStep, opens]

theorem close_moves (member : s.threads[i]? = some th) (went : closeStep s i th th.pc c = some e) :
    s.step cfg (.thread i c) ≠ none := by
  rw [step_thread member]
  cases opens : openStep cfg s th th.pc c with
  | none => cases writes : writeStep s th th.pc c <;> simp [State.threadStep, opens, writes, went]
  | some _ => simp [State.threadStep, opens]

/-- With the last reference gone, no duty left and nothing to swap or close, it was closed. -/
theorem released_closes (owned : Owned cfg s) (opened : s.handle.result = some true)
    (gone : s.strong = 0) (duty : census (fun th => th.pc.duty) s.threads = 0)
    (closing : census (fun th => th.pc.closing) s.threads = 0)
    (swaps : census (fun th => th.pc.swaps) s.threads = 0) : s.handle.closes = 1 := by
  have closed : s.handle.closed = true := by
    rcases owned.someone opened with closed | held | swapping
    · exact closed
    · omega
    · omega
  have released : s.handle.released = true := by
    have duties := owned.duties
    rw [duty] at duties
    simpa [Handle.owed, closed] using duties.symm
  have closings := owned.closings
  rw [closing, owned.sound.outcome true opened, released] at closings
  exact closings

theorem Owned.unopened_closes (owned : Owned cfg s) (failed : s.handle.result ≠ some true) :
    s.handle.closes = 0 := by
  have closings := owned.closings
  have idle : (s.handle.published && s.handle.released) = false := by
    cases answer : s.handle.result with
    | none =>
      cases released : s.handle.released with
      | false => simp
      | true =>
        have closed := owned.sound.ordered released
        rw [owned.sound.unopened answer] at closed
        cases closed
    | some ok =>
      cases ok with
      | false => simp [owned.sound.outcome false answer]
      | true => exact absurd answer failed
  rw [idle, Bool.toNat_false] at closings
  omega

theorem idle_counts {pc : Pc} (idle : pc.idle = true) :
    pc.duty = 0 ∧ pc.closing = 0 ∧ pc.swaps = 0 := by
  unfold Pc.idle at idle
  split at idle <;> first | exact ⟨rfl, rfl, rfl⟩ | cases idle

section Rest

variable (rest : s.AtRest cfg) (member : s.threads[i]? = some th)

include rest member

theorem rest_close (c : Choice) : closeStep s i th th.pc c = none := by
  by_contra some
  obtain ⟨e, went⟩ := Option.ne_none_iff_exists'.mp some
  exact close_moves member went ((rest i).1 c)

theorem rest_write (c : Choice) : writeStep s th th.pc c = none := by
  by_contra some
  obtain ⟨e, went⟩ := Option.ne_none_iff_exists'.mp some
  exact write_moves member went ((rest i).1 c)

/-- Whoever holds the lock can go on. -/
theorem rest_lock : th.pc.holdsLock = 0 := by
  have writes := rest_write rest member
  have closes := rest_close rest member .go
  unfold Pc.holdsLock
  split
  · rename_i raw here
    rw [here] at writes
    cases raw with
    | none => cases writes .go
    | some raw => cases writes .ok
  · rename_i here
    rw [here] at closes
    cases closes
  · rename_i here
    rw [here] at closes
    cases closes
  · rfl

theorem rest_swaps : th.pc.swaps = 0 := by
  have closes := rest_close rest member .go
  unfold Pc.swaps
  split
  · rename_i here
    rw [here] at closes
    simp only [closeStep] at closes
    split at closes <;> cases closes
  · rfl

end Rest

theorem closing_le {pc : Pc} (free : pc.holdsLock = 0) : pc.closing = 0 := by
  unfold Pc.closing
  split
  · cases free
  · rfl

/-- At rest, without a reference, only a join keeps a thread from its duty. -/
theorem rest_duty (owned : Owned cfg s) (rest : s.AtRest cfg) (member : s.threads[i]? = some th)
    (duty : th.pc.duty = 1) :
    ∃ who w more, th.pc = .joining who (w :: more) ∧ s.exited w = false := by
  have closes := rest_close rest member .go
  have free : s.handle.pipeWriteLock = false := by
    have none : census (fun th => th.pc.holdsLock) s.threads = 0 := census_eq_zero _ fun x found => by
      obtain ⟨j, here⟩ := List.mem_iff_getElem?.mp found
      exact rest_lock rest here
    have locks := owned.locks
    rw [none] at locks
    simpa using locks.symm
  unfold Pc.duty at duty
  split at duty
  all_goals
    rename_i here
    try rw [here] at closes
  · cases closes
  · cases closes
  · cases closes
  · cases closes
  · rename_i who foreign
    have fails := rest_close rest member .fail
    rw [here] at fails
    cases fails
  · rename_i who foreign
    cases foreign with
    | nil => cases closes
    | cons w more =>
      refine ⟨who, w, more, here, ?_⟩
      simp only [closeStep] at closes
      split at closes
      · cases closes
      · rename_i running
        simpa using running
  · simp only [closeStep, free] at closes
    cases closes
  · cases closes
  · cases duty

/-- At rest, without a reference, a worker that a close waits for has exited. -/
theorem rest_exited {j : Nat} {x : Thread} (owned : Owned cfg s) (waits : Waits s)
    (rest : s.AtRest cfg) (opened : s.handle.result = some true) (gone : s.strong = 0)
    (member : s.threads[i]? = some th) (duty : th.pc.duty = 1) (differ : j ≠ i)
    (old : s.threads[j]? = some x) : x.pc = .exited := by
  have none : x.arcs = 0 := by
    have held := le_census Thread.arcs old
    unfold State.strong at gone
    omega
  have needs := waits.needs j x old
  have free := rest_lock rest old
  have swaps := rest_swaps rest old
  have idle : x.pc.duty = 0 := by
    by_contra some
    have single : census (fun th => th.pc.duty) s.threads ≤ 1 := by
      rw [owned.duties]
      exact Bool.toNat_le _
    exact differ (index_unique (fun th => th.pc.duty) single old member (by omega) (by omega))
  have other : x.pc.opening ≠ 1 := by
    intro one
    have early := (owned.placed old).opening one
    rw [opened] at early
    cases early
  have leaves : x.pc ≠ .outside := by
    intro here
    have stays := (rest j).2
    simp [State.step, old, here, moveStep, none] at stays
  rw [none] at needs
  cases here : x.pc with
  | exited => rfl
  | outside => exact absurd here leaves
  | _ =>
    rw [here] at needs free swaps idle other
    simp [Pc.needs, Pc.holdsLock, Pc.swaps, Pc.duty, Pc.opening] at needs free swaps idle other

theorem rest_released (owned : Owned cfg s) (waits : Waits s) (rest : s.AtRest cfg)
    (opened : s.handle.result = some true) (gone : s.strong = 0) : s.handle.closes = 1 := by
  have swaps : census (fun th => th.pc.swaps) s.threads = 0 := census_eq_zero _ fun x found => by
    obtain ⟨j, here⟩ := List.mem_iff_getElem?.mp found
    exact rest_swaps rest here
  have closing : census (fun th => th.pc.closing) s.threads = 0 := census_eq_zero _ fun x found => by
    obtain ⟨j, here⟩ := List.mem_iff_getElem?.mp found
    exact closing_le (rest_lock rest here)
  have idle : census (fun th => th.pc.duty) s.threads = 0 := by
    by_contra some
    obtain ⟨i, th, member, duty⟩ :=
      exists_of_census_pos (fun th : Thread => th.pc.duty) (Nat.pos_of_ne_zero some)
    have one : th.pc.duty = 1 := by
      have most := le_census (fun th => th.pc.duty) member
      have owed := Bool.toNat_le s.handle.owed
      have duties := owned.duties
      omega
    obtain ⟨who, w, more, here, running⟩ := rest_duty owned rest member one
    have listed : w ∈ th.pc.awaits := by
      rw [here]
      exact List.mem_cons_self
    obtain ⟨inside, differ⟩ := waits.awaits i th member w listed
    have done := rest_exited owned waits rest opened gone member one differ
      (List.getElem?_eq_getElem inside)
    simp [State.exited, List.getElem?_eq_getElem inside, done] at running
  exact released_closes owned opened gone idle closing swaps

/-- A handle that did not open closes nothing; one that did closes its descriptor once, at the
latest when the last reference is gone and no thread is in a call or none can go on; no attempt
comes after that, and a call of `write_completion` makes at most one attempt once `closed` is set.
-/
theorem completion_descriptor_once (reach : Reaches cfg s) :
    (s.handle.result ≠ some true → s.handle.closes = 0) ∧ s.handle.closes ≤ 1 ∧
    (s.handle.result = some true → s.strong = 0 →
      (∀ th ∈ s.threads, th.pc.idle = true) ∨ s.AtRest cfg → s.handle.closes = 1) ∧
    s.handle.stray = 0 ∧ ∀ th ∈ s.threads, th.late ≤ 1 := by
  have owned := reach.owned
  refine ⟨?_, ?_, ?_, owned.sound.stray, ?_⟩
  · intro failed
    exact owned.unopened_closes failed
  · have closings := owned.closings
    have most := Bool.toNat_le (s.handle.published && s.handle.released)
    omega
  · intro opened gone halted
    rcases halted with idle | rest
    · exact released_closes owned opened gone
        (census_eq_zero _ fun x member => (idle_counts (idle x member)).1)
        (census_eq_zero _ fun x member => (idle_counts (idle x member)).2.1)
        (census_eq_zero _ fun x member => (idle_counts (idle x member)).2.2)
    · exact rest_released owned reach.waits rest opened gone
  · intro th member
    obtain ⟨i, here⟩ := List.mem_iff_getElem?.mp member
    exact (owned.stands i th here).late

/-- A worker finds the pipe full, tries again after `closed` is set and gives up; the close times
out, and `gusset-close` joins the worker and releases the pipe. -/
def timedOut : List Act :=
  [.thread 0 .go, .thread 0 .go, .thread 0 .go, .thread 0 .go, .thread 0 .go, .thread 0 .go,
    .thread 0 .go, .move 1 .upgrade, .move 1 .complete, .thread 1 .go, .thread 1 .wouldBlock,
    .thread 1 .go, .thread 1 .go, .thread 1 .go, .move 0 .close, .thread 0 .go,
    .thread 1 .wouldBlock, .thread 1 .go, .move 1 .drop, .thread 0 .go, .thread 0 .go,
    .thread 0 .go, .thread 0 .go, .thread 0 .go, .thread 0 .fail, .move 0 .drop, .move 1 .exit,
    .thread 2 .go, .thread 2 .go, .thread 2 .go, .thread 2 .go, .thread 2 .go, .thread 2 .go,
    .thread 2 .go, .thread 2 .go]

theorem completion_descriptor_once_timed_out :
    ∃ s, Reaches ⟨1, 7⟩ s ∧ s.handle.result = some true ∧ s.strong = 0 ∧
      s.threads.map Thread.late = [0, 1, 0] ∧ s.handle.closes = 1 := by
  have run : (follow (State.step ⟨1, 7⟩) .new timedOut).map (fun s => (s.handle.result, s.strong,
      s.threads.map Thread.late, s.threads.all fun th => th.pc.idle)) =
      some (some true, 0, [0, 1, 0], true) := by decide +kernel
  obtain ⟨s, run, same⟩ := Option.map_eq_some_iff.mp run
  simp only [Prod.mk.injEq] at same
  obtain ⟨opened, gone, late, idle⟩ := same
  have reach : Reaches ⟨1, 7⟩ s := Reachable.follow (fun _ a _ went => ⟨a, went⟩) (.start rfl) run
  obtain ⟨_, _, closed, _⟩ := completion_descriptor_once reach
  exact ⟨s, reach, opened, gone, late, closed opened gone (.inl (List.all_eq_true.mp idle))⟩

end Gusset.Descriptor
