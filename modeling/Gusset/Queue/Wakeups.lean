import Gusset.Queue.Handout

/-! No unit is left behind beside a worker that sleeps: whoever is on the way to the lock, or about
to be, is enough for what is queued. -/
namespace Gusset.Queue
open Foundation

variable {α : Type} {q q' : JobQueue α} {p p' : Thread α} {i j : Nat} {c : Choice} {w : Wake}

namespace Thread

-- Out of the polling phase, the lock still to be taken.
def arrives : Thread α → Nat
  | .locking => 1
  | _ => 0

-- Notified in its sleep and not running yet.
def notified : Thread α → Nat
  | .asleep told | .awake told => told.toNat
  | _ => 0

-- Decided to wake a sleeper and has not done it yet.
def notifies : Thread α → Nat
  | .notifying _ => 1
  | _ => 0

/-- Whether a unit is on a thread's account. A push has its own until it decides to leave it to the
pollers. -/
def covers : Thread α → Nat
  | .polling _ | .trying _ | .checking _ | .again _ | .leaving | .locking | .storing _
  | .deciding _ | .notifying _ => 1
  | .asleep told | .awake told | .unlocking _ told => told.toNat
  | _ => 0

theorem spins_le_covers (free : p.holds = 0) : p.spins ≤ p.covers := by
  cases p <;> simp_all [spins, holds, covers]

theorem covers_le (free : p.holds = 0) :
    p.covers ≤ p.spins + p.arrives + p.notified + p.notifies := by
  unfold covers
  split <;> simp_all [holds, spins, arrives, notified, notifies]

theorem outside_covers (outside : p.outside = true) : p.covers = 0 := by
  cases p <;> simp_all [Thread.outside, covers]

theorem step_waits (went : p.step q i c = some (q', p', w)) (waits : p'.waits = true) :
    q'.items = [] := by
  unfold Thread.step at went
  split at went <;>
    grind -ring -linarith [Thread.waits, JobQueue.admitItem, JobQueue.slow, JobQueue.enqueue,
      JobQueue.dequeue]

/-- What a step does to the units and to those who answer for them. -/
theorem step_covers (went : p.step q i c = some (q', p', w)) :
    q'.items = [] ∨ q'.items.length + p.covers ≤ q.items.length + p'.covers ∨
    (∃ item, p = .deciding item ∧ p' = .unlocking item false ∧ q' = q ∧ w = .nobody ∧
      (q.sleepers = 0 ∨ q.items.length ≤ q.spinning)) ∨
    ∃ item, p = .notifying item ∧ p' = .pushed item (.ok ()) ∧ q' = q ∧ w = .one c.target := by
  cases p with
  | deciding item =>
    simp only [Thread.step, Option.some.injEq, Prod.mk.injEq] at went
    obtain ⟨rfl, rfl, rfl⟩ := went
    cases decided : decide (0 < q.sleepers) && decide (q.spinning < q.items.length) with
    | true => exact .inr (.inl (Nat.le_refl _))
    | false =>
      refine .inr (.inr (.inl ⟨item, rfl, rfl, rfl, rfl, ?_⟩))
      simp only [Bool.and_eq_false_iff, decide_eq_false_iff_not] at decided
      omega
  | _ =>
    unfold Thread.step at went
    grind -ring -linarith [covers, JobQueue.admitItem, JobQueue.slow, JobQueue.enqueue,
      JobQueue.dequeue,
      JobQueue.store, JobQueue.handOut, Bool.toNat]

end Thread

namespace Wake

variable {l l' : List (Thread α)}

theorem apply_covers (told : w.apply l = some l') :
    census Thread.covers l ≤ census Thread.covers l' := by
  unfold apply at told
  split at told
  · cases told
    exact Nat.le_refl _
  · cases told
    rw [census_map]
    apply census_le
    intro p _
    unfold Thread.rouse
    split
    · cases ‹Bool› <;> simp [Thread.covers]
    · exact Nat.le_refl _
  · split at told
    · split at told
      · rename_i found
        cases told
        have count := census_set Thread.covers found (.asleep true)
        simp only [Thread.covers, Bool.toNat_true, Bool.toNat_false] at count
        omega
      · contradiction
    · cases told
      exact Nat.le_refl _

/-- `notify_one` reaches a thread that waits, if one is there. -/
theorem apply_one (told : (Wake.one j).apply l = some l') (waiting : ∃ p ∈ l', p.waits = true) :
    census Thread.covers l' = census Thread.covers l + 1 := by
  simp only [apply] at told
  split at told
  · split at told
    · rename_i found
      cases told
      have count := census_set Thread.covers found (.asleep true)
      simp only [Thread.covers, Bool.toNat_true, Bool.toNat_false] at count
      omega
    · contradiction
  · rename_i none
    cases told
    exact absurd (List.any_eq_true.mpr waiting) none

theorem apply_waits (told : w.apply l = some l') (waiting : ∃ p ∈ l', p.waits = true) :
    ∃ p ∈ l, p.waits = true := by
  obtain ⟨p, member, waits⟩ := waiting
  obtain ⟨j, found⟩ := List.mem_iff_getElem?.mp member
  rcases apply_getElem? told j with same | ⟨_, roused⟩
  · exact ⟨p, List.mem_of_getElem? (same ▸ found), waits⟩
  · rw [roused] at found
    cases found
    cases waits

end Wake

namespace State

variable {s t : State α} {cap : Nat}

/-- While somebody sleeps and was not called, every queued unit is on an account. -/
def Covered (s : State α) : Prop :=
  (∃ p ∈ s.threads, p.waits = true) → s.queue.items.length ≤ census Thread.covers s.threads

theorem Covered.thread {threads : List (Thread α)} (sound : Sound cap s) (h : s.Covered)
    (here : s.threads[i]? = some p) (went : p.step s.queue i c = some (q, p', w))
    (told : w.apply (s.threads.set i p') = some threads) : Covered ⟨q, threads⟩ := by
  intro waiting
  have count := census_set Thread.covers here p'
  have more := Wake.apply_covers told
  have still : p'.waits = false → s.queue.items.length ≤ census Thread.covers s.threads := by
    intro up
    obtain ⟨r, member, waits⟩ := Wake.apply_waits told waiting
    rcases mem_set_cases member with rfl | ⟨j, _, old⟩
    · rw [up] at waits
      cases waits
    · exact h ⟨r, List.mem_of_getElem? old, waits⟩
  rcases Thread.step_covers went with empty | fewer | decided | notified
  · simp only [empty, List.length_nil, Nat.zero_le]
  · cases asleep : p'.waits with
    | true => simp only [Thread.step_waits went asleep, List.length_nil, Nat.zero_le]
    | false =>
      have before := still asleep
      simp only
      omega
  · obtain ⟨item, rfl, rfl, rfl, rfl, enough⟩ := decided
    cases told
    rcases enough with nobody | few
    · obtain ⟨r, member, waits⟩ := waiting
      have sleeping : 0 < r.sleeps := by
        unfold Thread.waits at waits
        split at waits
        · exact Nat.one_pos
        · contradiction
      have counted := le_census_of_mem Thread.sleeps member
      have same := census_set_same Thread.sleeps (b := .unlocking item false) here rfl
      have total := sound.sleepers
      simp only at counted
      omega
    · have able : ∀ r ∈ s.threads.set i (.unlocking item false), r.spins ≤ r.covers := by
        intro r member
        rcases mem_set_cases member with rfl | ⟨j, other, old⟩
        · exact Nat.zero_le _
        · exact Thread.spins_le_covers (sound.alone here rfl old other)
      have enough := census_le Thread.spins Thread.covers able
      have same := census_set_same Thread.spins (b := .unlocking item false) here rfl
      have total := sound.spinning
      simp only
      omega
  · obtain ⟨item, rfl, rfl, rfl, rfl⟩ := notified
    have before := still rfl
    have one := Wake.apply_one told waiting
    simp only [Thread.covers] at count
    simp only [one]
    omega

theorem Covered.call (h : s.Covered) (here : s.threads[i]? = some p) (outside : p.outside = true)
    (called : Called s.queue q p') : Covered ⟨q, s.threads.set i p'⟩ := by
  rintro ⟨r, member, waits⟩
  have count := census_set Thread.covers here p'
  have none := Thread.outside_covers outside
  rcases mem_set_cases member with rfl | ⟨j, _, old⟩
  · cases called <;> cases waits
  · have before := h ⟨r, List.mem_of_getElem? old, waits⟩
    simp only [called.kept.2.2.1]
    omega

theorem Covered.move (sound : Sound cap s) (h : s.Covered) (move : Move s t) : t.Covered := by
  cases move with
  | spawn =>
    rintro ⟨r, member, waits⟩
    obtain old | new := List.mem_append.mp member
    · have before := h ⟨r, old, waits⟩
      simp only [census_concat]
      omega
    · rw [List.mem_singleton.mp new] at waits
      cases waits
  | call here outside called => exact h.call here outside called
  | thread here went told => exact h.thread sound here went told

end State

theorem reaches_covered {cap : Nat} {s : State α} (reach : Reaches cap s) : s.Covered := by
  apply reach.induction
  · rintro s rfl ⟨r, member, _⟩
    cases member
  · intro s t before h ⟨_, went⟩
    exact h.move (reaches_sound before) (State.step_moves went)

namespace State

variable {s : State α} {cap : Nat}

/-- While the lock is free and a worker sleeps un-notified, the units queued are no more than the
workers that poll, those that are done polling and come for the lock, the sleepers that were
notified and do not run yet, and the pushes that are about to notify one. -/
theorem none_stranded (reach : Reaches cap s) (free : s.queue.lock = false)
    (asleep : ∃ j : Nat, s.threads[j]? = some (.asleep false)) :
    s.queue.items.length ≤ census Thread.spins s.threads + census Thread.arrives s.threads +
      census Thread.notified s.threads + census Thread.notifies s.threads := by
  obtain ⟨j, there⟩ := asleep
  have enough := reaches_covered reach ⟨_, List.mem_of_getElem? there, rfl⟩
  have idle : ∀ r ∈ s.threads, r.holds = 0 := by
    intro r member
    have counted := le_census_of_mem Thread.holds member
    have none := (reaches_sound reach).holder
    rw [free, Bool.toNat_false] at none
    omega
  have within := census_le Thread.covers
    (fun r => r.spins + r.arrives + r.notified + r.notifies) fun r member =>
      Thread.covers_le (idle r member)
  simp only [census_add] at within
  exact Nat.le_trans enough within

end State

/-- Worker 0 sleeps, worker 1 polls, and thread 2 pushes a unit it leaves to worker 1. -/
def left : Option (State Nat) :=
  follows (.new 8) (([.spawn, .spawn, .spawn, .pop 0] : List (Act Nat)) ++
    (List.replicate 32 (List.replicate 3 (Act.thread 0 ⟨false, true, 0⟩ : Act Nat))).flatten ++
    ([.thread 0 ⟨false, false, 0⟩, .thread 0 ⟨false, false, 0⟩, .pop 1, .push 2 7] :
      List (Act Nat)) ++ List.replicate 4 (Act.thread 2 ⟨false, false, 0⟩ : Act Nat))

theorem left_runs : left.isSome = true := by decide +kernel

/-- The unit is not stranded: the poller is one of those the bound counts. -/
theorem none_stranded_left :
    (left.get left_runs).queue.items = [7] ∧ (left.get left_runs).threads[0]? = some (.asleep false) ∧
    (left.get left_runs).queue.items.length ≤ 1 := by
  have reach : Reaches 8 (left.get left_runs) :=
    follows_reaches (.start rfl) (Option.some_get _).symm
  have asleep : (left.get left_runs).threads[0]? = some (.asleep false) := by decide +kernel
  have within := State.none_stranded reach (by decide +kernel) ⟨0, asleep⟩
  have counted : census Thread.spins (left.get left_runs).threads +
      census Thread.arrives (left.get left_runs).threads +
      census Thread.notified (left.get left_runs).threads +
      census Thread.notifies (left.get left_runs).threads = 1 := by decide +kernel
  exact ⟨by decide +kernel, asleep, counted ▸ within⟩

end Gusset.Queue
