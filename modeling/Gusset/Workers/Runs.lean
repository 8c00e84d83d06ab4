import Gusset.Workers.Accounts

/-! The pool over whole runs. -/
namespace Gusset.Workers
open Foundation

variable {p p' : Thread} {i : Nat} {c : Choice} {n : Nat}

-- Where `exited` is lowered.
theorem Thread.step_exited {s s' : Pool} (went : p.step s c = some (s', p')) (known : p.Known s) :
    (s'.exited = s.exited ∧ s'.subtracted = s.subtracted) ∨
    ((∀ w ∈ p.held, s.halted w = true) ∧ s'.exited = s.exited - p.held.length ∧
      s'.subtracted = s.subtracted ++ p.held) := by
  unfold Thread.step at went
  split at went <;>
    grind -ring -linarith [held, Known, finish, refuse, Pool.uncount, Pool.spawn,
      Option.map_eq_some_iff]

namespace State

variable {s t : State}

def copies (s : State) (w : Nat) : Nat :=
  s.pool.workers.count w + census (fun p => p.held.count w) s.threads + s.pool.subtracted.count w

/-- The books of the pool over any number of callers. -/
structure Sound (n : Nat) (s : State) : Prop where
  size : s.pool.poolSize = n
  pool : s.pool.Sound
  known : ∀ p ∈ s.threads, p.Known s.pool
  locks : census Thread.locks s.threads = s.pool.workersLock.toNat
  inside : census Thread.inside s.threads = s.pool.respawnLock.toNat
  opener : census Thread.opens s.threads ≤ 1
  after : s.pool.opened = true → census Thread.opens s.threads = 0
  before : s.pool.opened = false → census Thread.ensures s.threads = 0
  once : ∀ w, s.copies w ≤ 1
  fresh : ∀ w, s.pool.started.length ≤ w → s.copies w = 0
  counted : s.pool.exited + s.pool.subtracted.length =
    census (fun v => v.halted.toNat) s.pool.started

theorem Sound.new (n : Nat) : Sound n (.new n) where
  size := rfl
  pool := ⟨Nat.zero_le _, nofun, by simp [State.new, Pool.new]⟩
  known := by simp [State.new, Pool.new, Thread.Known]
  locks := rfl
  inside := rfl
  opener := Nat.le_refl _
  after := nofun
  before _ := rfl
  once w := by simp [copies, State.new, Pool.new, Thread.held]
  fresh w _ := by simp [copies, State.new, Pool.new, Thread.held]
  counted := rfl

/-- One call repairs the pool at a time. -/
theorem Sound.repairs (h : Sound n s) :
    census (fun p => p.opens + p.inside) s.threads ≤ 1 := by
  rw [census_add]
  cases opened : s.pool.opened with
  | true =>
    have none := h.after opened
    have lock := h.inside
    have one := Bool.toNat_le s.pool.respawnLock
    omega
  | false =>
    have none := h.before opened
    have fewer := census_le Thread.inside Thread.ensures (l := s.threads) fun p _ =>
      p.inside_le_ensures
    have one := h.opener
    omega

theorem Sound.spawn (h : Sound n s) : Sound n { s with threads := s.threads ++ [.idle] } where
  size := h.size
  pool := h.pool
  known := by
    intro p member
    obtain old | new := List.mem_append.mp member
    · exact h.known p old
    · rw [List.mem_singleton.mp new]
      trivial
  locks := by simpa [Thread.locks] using h.locks
  inside := by simpa [Thread.inside] using h.inside
  opener := by simpa [Thread.opens] using h.opener
  after := by simpa [Thread.opens] using h.after
  before := by simpa [Thread.ensures, Thread.inside] using h.before
  once := by simpa [copies, Thread.held] using h.once
  fresh := by simpa [copies, Thread.held] using h.fresh
  counted := h.counted

/-- The workers that were subtracted, and those a call is about to subtract, all exited. -/
theorem Sound.enough (h : Sound n s) (here : s.threads[i]? = some p)
    (dead : ∀ w ∈ p.held, s.pool.halted w = true) : p.held.length ≤ s.pool.exited := by
  have different : (p.held ++ s.pool.subtracted).Nodup := by
    apply List.nodup_iff_count_le_one.mpr
    intro w
    have one := h.once w
    have mine := le_census (fun p => p.held.count w) here
    simp only [copies] at one
    simp only [List.count_append]
    omega
  have each : ∀ w ∈ p.held ++ s.pool.subtracted,
      (s.pool.started[w]?.map Worker.halted).getD false = true := by
    intro w member
    obtain mine | gone := List.mem_append.mp member
    · exact dead w mine
    · exact h.pool.gone w gone
  have within := length_le_census Worker.halted different each
  have counted := h.counted
  simp only [List.length_append] at within
  omega

theorem copies_set (here : s.threads[i]? = some p) (q : Pool) (p' : Thread) (w : Nat) :
    copies ⟨q, s.threads.set i p'⟩ w + s.pool.copies p w = s.copies w + q.copies p' w := by
  have count := census_set (fun p => p.held.count w) here p'
  simp only [copies, Pool.copies]
  omega

theorem Sound.thread_copies {q : Pool} (h : Sound n s) (here : s.threads[i]? = some p)
    (went : p.step s.pool c = some (q, p')) :
    (∀ w, copies ⟨q, s.threads.set i p'⟩ w ≤ 1) ∧
    ∀ w, q.started.length ≤ w → copies ⟨q, s.threads.set i p'⟩ w = 0 := by
  have change := copies_set here q p'
  rcases Thread.step_copies went with ⟨same, fewer⟩ | ⟨grown, more⟩
  · constructor
    · intro w
      have one := h.once w
      have less := fewer w
      have moved := change w
      omega
    · intro w high
      have none := h.fresh w (same ▸ high)
      have less := fewer w
      have moved := change w
      omega
  · constructor
    · intro w
      have one := h.once w
      have none := h.fresh w
      have added := more w
      have moved := change w
      split at added <;> omega
    · intro w high
      rw [grown, List.length_append, List.length_singleton] at high
      have none := h.fresh w (by omega)
      have added := more w
      have moved := change w
      rw [if_neg (by omega)] at added
      omega

theorem Sound.thread_counted {q : Pool} (h : Sound n s) (here : s.threads[i]? = some p)
    (went : p.step s.pool c = some (q, p')) :
    q.exited + q.subtracted.length = census (fun v => v.halted.toNat) q.started := by
  have counted := h.counted
  have started : census (fun v => v.halted.toNat) q.started =
      census (fun v => v.halted.toNat) s.pool.started := by
    rcases Thread.step_copies went with ⟨same, _⟩ | ⟨grown, _⟩
    · rw [same]
    · rw [grown, census_concat, Bool.toNat_false, Nat.add_zero]
  rcases Thread.step_exited went (h.known p (List.mem_of_getElem? here)) with
    ⟨exited, subtracted⟩ | ⟨dead, exited, subtracted⟩
  · rw [started, exited, subtracted, counted]
  · have enough := h.enough here dead
    rw [started, exited, subtracted, List.length_append]
    omega

theorem Sound.thread {q : Pool} (h : Sound n s) (here : s.threads[i]? = some p)
    (went : p.step s.pool c = some (q, p')) : Sound n ⟨q, s.threads.set i p'⟩ := by
  have held : p.locks ≤ s.pool.workersLock.toNat := h.locks ▸ le_census Thread.locks here
  have entered : p.inside ≤ s.pool.respawnLock.toNat := h.inside ▸ le_census Thread.inside here
  have knows := h.known p (List.mem_of_getElem? here)
  obtain ⟨locks, inside, opens, ensures, opened⟩ := Thread.step_counts went held entered
  obtain ⟨sound, known⟩ := Thread.step_sound went held h.pool knows
  have opening := census_set Thread.opens here p'
  constructor
  · exact (Thread.step_kept went).1.trans h.size
  · exact sound
  · intro r member
    rcases mem_set_cases member with rfl | ⟨j, other, old⟩
    · exact known
    · apply Thread.step_other went knows ?_ ?_ (h.known r (List.mem_of_getElem? old))
      · have both := add_le_census (fun p => p.opens + p.inside) here old (Ne.symm other)
        have one := h.repairs
        omega
      · rw [← h.locks]
        exact add_le_census Thread.locks here old (Ne.symm other)
  · have count := census_set Thread.locks here p'
    have before := h.locks
    simp only
    omega
  · have count := census_set Thread.inside here p'
    have before := h.inside
    simp only
    omega
  · have before := h.opener
    simp only
    omega
  · intro now
    have one := h.opener
    simp only
    rcases opened with same | ⟨was, _⟩
    · have none := h.after (same ▸ now)
      omega
    · omega
  · intro now
    have count := census_set Thread.ensures here p'
    have opening := le_census Thread.opens here
    have closed : s.pool.opened = false := by
      rcases opened with same | ⟨was, _⟩
      · exact same ▸ now
      · by_contra open_
        have none := h.after (by simpa using open_)
        omega
    have none := h.before closed
    simp only
    omega
  · exact (h.thread_copies here went).1
  · exact (h.thread_copies here went).2
  · exact h.thread_counted here went

theorem Sound.call (h : Sound n s) (here : s.threads[i]? = some p) (outside : p.outside = true)
    (called : (s.pool.opened = true ∧ p' = .fast) ∨ p' = .closing) :
    Sound n ⟨s.pool, s.threads.set i p'⟩ := by
  obtain ⟨locks, inside, opens, ensures, held⟩ : p.locks = 0 ∧ p.inside = 0 ∧ p.opens = 0 ∧
      p.ensures = 0 ∧ p.held = [] := by
    cases p <;> simp_all [Thread.outside, Thread.locks, Thread.inside, Thread.opens,
      Thread.ensures, Thread.held]
  obtain ⟨known', locks', inside', opens', held'⟩ : p'.Known s.pool ∧ p'.locks = 0 ∧
      p'.inside = 0 ∧ p'.opens = 0 ∧ p'.held = [] := by
    rcases called with ⟨_, rfl⟩ | rfl <;>
      simp [Thread.Known, Thread.locks, Thread.inside, Thread.opens, Thread.held]
  have same : ∀ w, copies ⟨s.pool, s.threads.set i p'⟩ w = s.copies w := by
    intro w
    have change := copies_set here s.pool p' w
    simp only [Pool.copies, held, held'] at change
    omega
  constructor
  · exact h.size
  · exact h.pool
  · intro r member
    rcases mem_set_cases member with rfl | ⟨j, _, old⟩
    · exact known'
    · exact h.known r (List.mem_of_getElem? old)
  · exact (census_set_same _ here (by omega)).trans h.locks
  · exact (census_set_same _ here (by omega)).trans h.inside
  · have same := census_set_same Thread.opens here (opens'.trans opens.symm)
    exact same ▸ h.opener
  · intro opened
    exact (census_set_same _ here (by omega)).trans (h.after opened)
  · intro opened
    have none := h.before opened
    rcases called with ⟨open_, _⟩ | rfl
    · rw [open_] at opened
      cases opened
    · have same : Thread.closing.ensures = p.ensures := ensures.symm
      exact (census_set_same Thread.ensures here same).trans none
  · intro w
    rw [same]
    exact h.once w
  · intro w high
    rw [same]
    exact h.fresh w high
  · exact h.counted

/-- What a worker does by itself: it writes its own record and, at its exit, counts. -/
theorem Sound.worker {w : Nat} {before after : Worker} {exited : Nat} (h : Sound n s)
    (here : s.pool.started[w]? = some before) (dies : before.halted = true → after.halted = true)
    (count : exited + before.halted.toNat = s.pool.exited + after.halted.toNat) :
    Sound n { s with pool := { s.pool with
      started := s.pool.started.set w after, exited := exited } } := by
  have dead : ∀ v, s.pool.halted v = true →
      { s.pool with started := s.pool.started.set w after, exited := exited }.halted v = true := by
    intro v was
    simp only [Pool.halted] at was ⊢
    grind -ring -linarith
  constructor
  · exact h.size
  · exact ⟨h.pool.most, h.pool.whole, fun v member => dead v (h.pool.gone v member)⟩
  · intro r member
    have known := h.known r member
    unfold Thread.Known at known ⊢
    split <;> grind -ring -linarith [Stage.Excused]
  · exact h.locks
  · exact h.inside
  · exact h.opener
  · exact h.after
  · exact h.before
  · exact h.once
  · intro v high
    exact h.fresh v (by simpa using high)
  · have marks := census_set (fun v => v.halted.toNat) here after
    have counted := h.counted
    simp only
    omega

theorem Sound.step {a : Act} (h : Sound n s) (went : s.step a = some t) : Sound n t := by
  cases a with
  | spawn =>
    cases went
    exact h.spawn
  | ensure i =>
    obtain ⟨opened, went⟩ := Option.ite_none_right_eq_some.mp went
    unfold State.call at went
    split at went
    · rename_i p here
      obtain ⟨outside, moved⟩ := Option.ite_none_right_eq_some.mp went
      cases moved
      exact h.call here outside (.inl ⟨opened, rfl⟩)
    · contradiction
  | close i =>
    simp only [State.step, State.call] at went
    split at went
    · rename_i p here
      obtain ⟨outside, moved⟩ := Option.ite_none_right_eq_some.mp went
      cases moved
      exact h.call here outside (.inr rfl)
    · contradiction
  | thread i c =>
    obtain ⟨p, here, rest⟩ := Option.bind_eq_some_iff.mp went
    obtain ⟨⟨q, p'⟩, moved, rfl⟩ := Option.map_eq_some_iff.mp rest
    exact h.thread here moved
  | report w ok =>
    simp only [State.step, State.reportStep] at went
    split at went
    · rename_i here
      cases went
      exact h.worker here nofun rfl
    · contradiction
  | exit w =>
    simp only [State.step, State.exitStep] at went
    split at went
    · rename_i here
      cases went
      exact h.worker here nofun rfl
    · contradiction

end State

theorem reaches_sound {s : State} (reach : Reaches n s) : s.Sound n :=
  reach.invariant (fun _ start => start ▸ .new n) fun _ _ sound ⟨_, went⟩ => sound.step went

namespace State

variable {s t : State}

/-- A worker is missing, or one of the vector is dead. -/
def Short (n : Nat) (s : State) : Prop :=
  s.pool.workers.length ≠ n ∨ ∃ w ∈ s.pool.workers, s.pool.halted w = true

-- What the fast path of `ensure_workers` looks for.
def Flagged (s : State) : Prop := s.pool.exited ≠ 0 ∨ s.pool.respawnPending = true

theorem Sound.different (h : Sound n s) :
    (s.pool.workers ++ s.pool.subtracted).Nodup := by
  apply List.nodup_iff_count_le_one.mpr
  intro w
  have one := h.once w
  simp only [copies] at one
  simp only [List.count_append]
  omega

/-- The dead workers of the vector are still counted. -/
theorem Sound.dead_counted (h : Sound n s) :
    (s.pool.workers.filter s.pool.halted).length ≤ s.pool.exited := by
  have different : (s.pool.workers.filter s.pool.halted ++ s.pool.subtracted).Nodup :=
    h.different.sublist (List.filter_sublist.append_right _)
  have each : ∀ w ∈ s.pool.workers.filter s.pool.halted ++ s.pool.subtracted,
      (s.pool.started[w]?.map Worker.halted).getD false = true := by
    intro w member
    obtain mine | gone := List.mem_append.mp member
    · exact (List.mem_filter.mp mine).2
    · exact h.pool.gone w gone
  have within := length_le_census Worker.halted different each
  have counted := h.counted
  simp only [List.length_append] at within
  omega

theorem Sound.flagged (h : Sound n s) (opened : s.pool.opened = true) (live : s.pool.closed = false)
    (short : s.Short n) : s.Flagged := by
  rcases short with missing | ⟨w, member, dead⟩
  · right
    by_contra lowered
    exact missing (h.size ▸ h.pool.whole opened live (by simpa using lowered))
  · left
    have counted := h.dead_counted
    have found := List.length_pos_of_mem (List.mem_filter.mpr ⟨member, dead⟩)
    omega

/-- `exited` is lowered by the workers that are taken off, and never below zero. -/
theorem Sound.subtracts (h : Sound n s) (went : s.step (.thread i c) = some t) :
    ∃ done, t.pool.subtracted = s.pool.subtracted ++ done ∧
      t.pool.exited + done.length = s.pool.exited := by
  obtain ⟨p, here, rest⟩ := Option.bind_eq_some_iff.mp went
  obtain ⟨⟨q, p'⟩, moved, rfl⟩ := Option.map_eq_some_iff.mp rest
  rcases Thread.step_exited moved (h.known p (List.mem_of_getElem? here)) with
    ⟨exited, subtracted⟩ | ⟨dead, exited, subtracted⟩
  · exact ⟨[], by rw [subtracted, List.append_nil], exited⟩
  · refine ⟨p.held, subtracted, ?_⟩
    have enough := h.enough here dead
    simp only [exited]
    omega

/-- A step after which nobody is in the slow path. -/
def Aside (s t : State) : Prop :=
  (∃ a, s.step a = some t) ∧ census Thread.inside t.threads = 0

/-- What a call that started on a flagged pool goes by. -/
structure Warned (i : Nat) (s : State) : Prop where
  opened : s.pool.opened = true
  flagged : s.Flagged
  quiet : census Thread.inside s.threads = 0
  call : ∀ p, s.threads[i]? = some p →
    p ≠ .skipped ∧ (p = .fastPending → s.pool.respawnPending = true)

theorem Warned.thread {q : Pool} {j : Nat} (h : Sound n s) (warned : Warned i s)
    (here : s.threads[j]? = some p) (went : p.step s.pool c = some (q, p'))
    (quiet : census Thread.inside (s.threads.set j p') = 0) : Warned i ⟨q, s.threads.set j p'⟩ := by
  have opens := h.after warned.opened
  have none := warned.quiet
  have mine := le_census Thread.opens here
  have entered := le_census Thread.inside here
  obtain ⟨exited, pending, opened, _, _⟩ := Thread.step_bystander went
    (h.known p (List.mem_of_getElem? here)) (by omega) (by omega)
  have flagged : q.exited ≠ 0 ∨ q.respawnPending = true := by
    rw [exited, pending]
    exact warned.flagged
  refine ⟨opened.trans warned.opened, flagged, quiet, ?_⟩
  intro r found
  rcases getElem?_set_cases found with ⟨rfl, rfl⟩ | ⟨_, old⟩
  · have before := warned.call p here
    have fault := warned.flagged
    unfold Thread.step at went
    split at went <;>
      grind -ring -linarith [Flagged, Thread.finish, Thread.refuse, Option.map_eq_some_iff]
  · rw [pending]
    exact warned.call r old

theorem Warned.call_made {j : Nat} (warned : Warned i s) (here : s.threads[j]? = some p)
    (fine : p' = .fast ∨ p' = .closing)
    (quiet : census Thread.inside (s.threads.set j p') = 0) :
    Warned i ⟨s.pool, s.threads.set j p'⟩ := by
  refine ⟨warned.opened, warned.flagged, quiet, ?_⟩
  intro r found
  rcases getElem?_set_cases found with ⟨rfl, rfl⟩ | ⟨_, old⟩
  · rcases fine with rfl | rfl <;> exact ⟨nofun, nofun⟩
  · exact warned.call r old

theorem Warned.step {a : Act} (h : Sound n s) (warned : Warned i s) (went : s.step a = some t)
    (quiet : census Thread.inside t.threads = 0) : Warned i t := by
  cases a with
  | spawn =>
    cases went
    refine ⟨warned.opened, warned.flagged, quiet, ?_⟩
    intro r found
    have old : s.threads[i]? = some r ∨ r = .idle := by grind -ring -linarith
    rcases old with old | rfl
    · exact warned.call r old
    · exact ⟨nofun, nofun⟩
  | ensure j =>
    obtain ⟨_, went⟩ := Option.ite_none_right_eq_some.mp went
    unfold State.call at went
    split at went
    · rename_i p here
      obtain ⟨_, moved⟩ := Option.ite_none_right_eq_some.mp went
      cases moved
      exact warned.call_made here (.inl rfl) quiet
    · contradiction
  | close j =>
    simp only [State.step, State.call] at went
    split at went
    · rename_i p here
      obtain ⟨_, moved⟩ := Option.ite_none_right_eq_some.mp went
      cases moved
      exact warned.call_made here (.inr rfl) quiet
    · contradiction
  | thread j c =>
    obtain ⟨p, here, rest⟩ := Option.bind_eq_some_iff.mp went
    obtain ⟨⟨q, p'⟩, moved, rfl⟩ := Option.map_eq_some_iff.mp rest
    exact warned.thread h here moved quiet
  | report w ok =>
    simp only [State.step, State.reportStep] at went
    split at went
    · cases went
      exact ⟨warned.opened, warned.flagged, quiet, warned.call⟩
    · contradiction
  | exit w =>
    simp only [State.step, State.exitStep] at went
    split at went
    · cases went
      exact ⟨warned.opened, .inl (Nat.succ_ne_zero _), quiet, warned.call⟩
    · contradiction

theorem Warned.run (h : Sound n s) (warned : Warned i s)
    (run : Relation.ReflTransGen Aside s t) : Sound n t ∧ Warned i t := by
  induction run with
  | refl => exact ⟨h, warned⟩
  | tail _ step ih =>
    obtain ⟨⟨a, went⟩, quiet⟩ := step
    exact ⟨ih.1.step went, ih.2.step ih.1 went quiet⟩

/-- The pool is never silently short. What was taken off `exited` were different workers whose exit
marks had fired, so `exited` is the number of marks fired and not taken off, and no subtraction
passes below zero. On an open handle with nobody in the slow path, the vector has `pool_size`
entries or `respawn_pending` is raised, and every dead entry is still counted; so while a worker is
missing or dead, no call of `ensure_workers` that starts returns by the fast path, as long as no
other is in the slow path. -/
theorem never_short (reach : Reaches n s) :
    s.pool.subtracted.Nodup ∧ (∀ w ∈ s.pool.subtracted, s.pool.halted w = true) ∧
    s.pool.exited + s.pool.subtracted.length =
      census (fun v => v.halted.toNat) s.pool.started ∧
    (∀ i c t, s.step (.thread i c) = some t → ∃ done,
      t.pool.subtracted = s.pool.subtracted ++ done ∧
      t.pool.exited + done.length = s.pool.exited) ∧
    (s.pool.opened = true → s.pool.closed = false → census Thread.inside s.threads = 0 →
      (s.pool.workers.length = n ∨ s.pool.respawnPending = true) ∧
      (∀ w ∈ s.pool.workers, s.pool.halted w = true → w ∉ s.pool.subtracted) ∧
      (s.pool.workers.filter s.pool.halted).length ≤ s.pool.exited ∧
      (s.Short n → s.Flagged ∧ ∀ (i : Nat) p t, s.threads[i]? = some p → p.outside = true →
        p ≠ .skipped → Relation.ReflTransGen Aside s t → t.threads[i]? ≠ some .skipped)) := by
  have sound := reaches_sound reach
  refine ⟨(List.nodup_append.mp sound.different).2.1, sound.pool.gone, sound.counted, ?_, ?_⟩
  · intro i c t went
    exact sound.subtracts went
  · intro opened live quiet
    refine ⟨?_, ?_, sound.dead_counted, ?_⟩
    · by_contra neither
      obtain ⟨missing, lowered⟩ := not_or.mp neither
      exact missing (sound.size ▸ sound.pool.whole opened live (by simpa using lowered))
    · intro w member _ gone
      exact (List.nodup_append.mp sound.different).2.2 w member w gone rfl
    · intro short
      have flagged := sound.flagged opened live short
      refine ⟨flagged, ?_⟩
      intro i p t here outside other run skipped
      have warned : Warned i s := by
        refine ⟨opened, flagged, quiet, ?_⟩
        intro q found
        rw [here] at found
        cases found
        refine ⟨other, ?_⟩
        rintro rfl
        cases outside
      exact ((warned.run sound run).2.call _ skipped).1 rfl

end State

/-- A pool of one worker that dies, as a submit comes. -/
def bereft : Option State :=
  follows (.new 1) (([.thread 0 ⟨[], false, false⟩, .thread 0 ⟨[], false, false⟩,
    .thread 0 ⟨[], false, false⟩, .report 0 true] : List Act) ++
    List.replicate 2 (Act.thread 0 ⟨[], false, false⟩) ++ ([.spawn, .exit 0] : List Act))

theorem bereft_runs : bereft.isSome = true := by decide

/-- The one worker is dead and in the vector, so the submit does not pass it by. -/
theorem never_short_bereft :
    (bereft.get bereft_runs).pool.workers = [0] ∧ (bereft.get bereft_runs).Flagged ∧
    ∀ t, Relation.ReflTransGen State.Aside (bereft.get bereft_runs) t →
      t.threads[1]? ≠ some .skipped := by
  have reach : Reaches 1 (bereft.get bereft_runs) :=
    follows_reaches (.start rfl) (Option.some_get _).symm
  obtain ⟨_, _, _, _, whole⟩ := State.never_short reach
  obtain ⟨_, _, _, short⟩ := whole (by decide) (by decide) (by decide)
  obtain ⟨flagged, slow⟩ := short (.inr ⟨0, by decide, by decide⟩)
  exact ⟨by decide, flagged, fun t run => slow 1 .idle t (by decide) rfl nofun run⟩

end Gusset.Workers
