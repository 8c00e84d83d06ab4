import Gusset.Workers.Program

/-! Who repairs the pool and which workers are still to be taken off `exited`. -/
namespace Gusset.Workers
open Foundation

variable {s s' : Pool} {p p' : Thread} {c : Choice}

namespace Stage

def opens : Stage → Nat
  | .opening => 1
  | .respawn => 0

def inside : Stage → Nat
  | .opening => 0
  | .respawn => 1

/-- Why the pool may be short: the handle is not open yet, or the next submit will look. -/
def Excused (s : Pool) : Stage → Prop
  | .opening => s.opened = false
  | .respawn => s.respawnPending = true

end Stage

namespace Thread

/-- The workers a call took out of the vector and has not subtracted yet. -/
def held : Thread → List Nat
  | .uncounting done => done
  | .joining _ w _ => [w]
  | _ => []

-- In the call of `open`.
def opens : Thread → Nat
  | .opening => 1
  | .spawning stage _ _ | .awaiting stage _ _ | .removing stage _ _ | .joining stage _ _
  | .flagging stage _ => stage.opens
  | _ => 0

-- In the slow path of `ensure_workers`, behind `respawn_lock`.
def inside : Thread → Nat
  | .recheck | .recheckPending | .entering | .checking | .raising | .reaping | .uncounting _
  | .clearing | .leaving _ => 1
  | .spawning stage _ _ | .awaiting stage _ _ | .removing stage _ _ | .joining stage _ _
  | .flagging stage _ => stage.inside
  | _ => 0

-- In a call of `ensure_workers`.
def ensures : Thread → Nat
  | .fast | .fastPending | .waiting => 1
  | p => p.inside

-- Behind the lock of `workers`.
def locks : Thread → Nat
  | .checking | .raising | .reaping | .uncounting _ | .spawning _ _ _ => 1
  | _ => 0

/-- What a call's place says about the pool. -/
def Known (s : Pool) : Thread → Prop
  | .reaping => s.respawnPending = true
  | .uncounting done =>
    s.respawnPending = true ∧ (∀ w ∈ done, s.halted w = true) ∧ s.workers.length ≤ s.poolSize
  | .spawning stage n _ => stage.Excused s ∧ s.workers.length + n = s.poolSize
  | .awaiting stage _ failed =>
    stage.Excused s ∧ (failed = false → s.closed = true ∨ s.workers.length = s.poolSize)
  | .removing stage _ _ | .joining stage _ _ | .flagging stage _ => stage.Excused s
  | .clearing =>
    s.respawnPending = true ∧ (s.closed = true ∨ s.workers.length = s.poolSize)
  | .draining => s.closed = true
  | .opening => s.opened = false ∧ s.workers = []
  | _ => True

theorem inside_le_ensures (p : Thread) : p.inside ≤ p.ensures := by
  unfold ensures
  split <;> simp [inside]

end Thread

/-- What holds of the pool, whoever moves. -/
structure Pool.Sound (s : Pool) : Prop where
  most : s.workers.length ≤ s.poolSize
  whole : s.opened = true → s.closed = false → s.respawnPending = false →
    s.workers.length = s.poolSize
  gone : ∀ w ∈ s.subtracted, s.halted w = true

/-- The locks and the calls, before and after a step. -/
theorem Thread.step_counts (went : p.step s c = some (s', p')) (held : p.locks ≤ s.workersLock.toNat)
    (entered : p.inside ≤ s.respawnLock.toNat) :
    p'.locks + s.workersLock.toNat = p.locks + s'.workersLock.toNat ∧
    p'.inside + s.respawnLock.toNat = p.inside + s'.respawnLock.toNat ∧
    p'.opens ≤ p.opens ∧ p'.ensures ≤ p.ensures ∧
    (s'.opened = s.opened ∨ (p.opens = 1 ∧ p'.opens = 0)) := by
  unfold Thread.step at went
  split at went <;>
    grind -ring -linarith [locks, inside, opens, ensures, finish, refuse, Stage.inside, Stage.opens,
      Pool.uncount, Pool.spawn, Bool.toNat, Option.map_eq_some_iff]

/-- How often a worker is in the vector, in the hands of a call and among those subtracted. -/
def Pool.copies (s : Pool) (p : Thread) (w : Nat) : Nat :=
  s.workers.count w + p.held.count w + s.subtracted.count w

theorem count_partition (l : List Nat) (f : Nat → Bool) (w : Nat) :
    (l.filter fun v => v ∉ l.filter f).count w + (l.filter f).count w = l.count w := by
  have rest : (l.filter fun v => v ∉ l.filter f) = l.filter fun v => !f v := by
    apply List.filter_congr
    intro v member
    simp [member]
  rw [rest]
  cases yes : f w with
  | true =>
    have here : (l.filter f).count w = l.count w := List.count_filter yes
    have gone : (l.filter fun v => !f v).count w = 0 :=
      List.count_eq_zero_of_not_mem (by simp [yes])
    omega
  | false =>
    have here : (l.filter fun v => !f v).count w = l.count w := List.count_filter (by simp [yes])
    have gone : (l.filter f).count w = 0 := List.count_eq_zero_of_not_mem (by simp [yes])
    omega

/-- A worker stays in one place, and only a spawn adds one, of a new id. -/
theorem Thread.step_copies (went : p.step s c = some (s', p')) :
    (s'.started = s.started ∧ ∀ w, s'.copies p' w ≤ s.copies p w) ∨
    (s'.started = s.started ++ [⟨none, false⟩] ∧
      ∀ w, s'.copies p' w = s.copies p w + if w = s.started.length then 1 else 0) := by
  cases p with
  | reaping =>
    cases went
    refine .inl ⟨rfl, fun w => ?_⟩
    have parts := count_partition s.workers (fun w => w ∈ c.finished ∧ s.halted w) w
    simp only [Pool.copies, held, List.count_nil]
    omega
  | spawning stage n starting =>
    unfold Thread.step at went
    grind -ring -linarith [held, finish, refuse, Pool.uncount, Pool.spawn, Pool.copies]
  | removing stage w rest =>
    unfold Thread.step at went
    grind -ring -linarith [held, Pool.copies]
  | _ =>
    unfold Thread.step at went
    grind -ring -linarith [held, finish, refuse, Pool.uncount, Pool.copies, Option.map_eq_some_iff]

theorem Thread.finish_sound {stage : Stage} {failed : Bool} (sound : s.Sound)
    (whole : failed = false → s.closed = true ∨ s.workers.length = s.poolSize)
    (excused : stage.Excused s) :
    (finish s failed stage).1.Sound ∧ (finish s failed stage).2.Known (finish s failed stage).1 := by
  obtain ⟨most, kept, gone⟩ := sound
  cases stage with
  | opening =>
    refine ⟨⟨most, ?_, gone⟩, trivial⟩
    intro opened alive _
    have fine : failed = false := by simpa [finish] using opened
    have still : ¬ s.closed = true := by simpa [finish] using alive
    exact (whole fine).resolve_left still
  | respawn =>
    cases failed with
    | true => exact ⟨⟨most, kept, gone⟩, trivial⟩
    | false => exact ⟨⟨most, kept, gone⟩, excused, whole rfl⟩

theorem Thread.step_sound (went : p.step s c = some (s', p')) (held : p.locks ≤ s.workersLock.toNat)
    (sound : s.Sound) (known : p.Known s) : s'.Sound ∧ p'.Known s' := by
  cases p with
  | awaiting stage starting failed =>
    cases starting with
    | nil =>
      obtain ⟨excused, whole⟩ := known
      have ended := finish_sound sound whole excused
      rwa [Option.some.inj went] at ended
    | cons w rest =>
      obtain ⟨ok, _, moved⟩ := Option.map_eq_some_iff.mp went
      cases moved
      cases ok with
      | true => exact ⟨sound, known⟩
      | false => exact ⟨sound, known.1⟩
  | _ =>
    obtain ⟨most, whole, gone⟩ := sound
    unfold Thread.step at went
    grind -ring -linarith [locks, Known, refuse, Pool.uncount, Pool.spawn, Bool.toNat, Pool.Sound, Pool.halted,
      Stage.Excused]

theorem Thread.step_kept (went : p.step s c = some (s', p')) :
    s'.poolSize = s.poolSize ∧ (s.closed = true → s'.closed = true) := by
  unfold Thread.step at went
  split at went <;>
    grind -ring -linarith [finish, refuse, Pool.uncount, Pool.spawn, Option.map_eq_some_iff]

/-- A call that does not repair the pool leaves it as it is, but for the one that takes the vector
of a closed handle. -/
theorem Thread.step_bystander (went : p.step s c = some (s', p')) (known : p.Known s)
    (aside : p.opens = 0) (outside : p.inside = 0) :
    s'.exited = s.exited ∧ s'.respawnPending = s.respawnPending ∧ s'.opened = s.opened ∧
    s'.started = s.started ∧
    (s'.workers = s.workers ∨ (s.closed = true ∧ s.workersLock = false ∧ s'.workers = [])) := by
  unfold Thread.step at went
  split at went <;>
    grind -ring -linarith [opens, inside, Stage.opens, Stage.inside, Known, finish, refuse,
      Option.map_eq_some_iff]

/-- What other calls see of a step: one call repairs the pool at a time, behind the lock of the
vector while it counts on what is in there. -/
theorem Thread.step_other {r : Thread} (went : p.step s c = some (s', p')) (knows : p.Known s)
    (one : p.opens + p.inside + r.opens + r.inside ≤ 1)
    (lock : p.locks + r.locks ≤ s.workersLock.toNat) (known : r.Known s) : r.Known s' := by
  obtain ⟨size, closed⟩ := step_kept went
  by_cases repairs : r.opens + r.inside = 0
  · unfold Known at known ⊢
    split <;> grind -ring -linarith [opens, inside, Stage.opens, Stage.inside]
  · obtain ⟨_, pending, opened, started, workers⟩ := step_bystander went knows (by omega) (by omega)
    have same : r.locks = 1 → s'.workers = s.workers := by
      intro locked
      apply workers.resolve_right
      rintro ⟨_, free, _⟩
      rw [free, Bool.toNat_false] at lock
      omega
    unfold Known at known ⊢
    split <;> grind -ring -linarith [locks, Stage.Excused, Pool.halted]

end Gusset.Workers
