import Gusset.Queue.Accounts

/-! The job queue hands out what it accepted, in order, once. -/
namespace Gusset.Queue
open Foundation

variable {α : Type} {q q' : JobQueue α} {p p' : Thread α} {i j : Nat} {c : Choice} {w : Wake}

-- Accesses left until the holder drops the lock.
def Thread.left : Thread α → Nat
  | .storing _ | .fastStore _ => 3
  | .deciding _ | .fastLeave _ | .slowStore _ => 2
  | _ => 1

/-- The holder of the lock waits for nothing. -/
theorem Thread.release (c : Choice) (holding : p.holds = 1) :
    ∃ q' p', p.step q j c = some (q', p', .nobody) ∧ q'.items = q.items ∧
      q'.accepted = q.accepted ∧ (∀ i, i ≠ j → share q'.handed i = share q.handed i) ∧
      (q'.lock = false ∨ (p'.holds = 1 ∧ p'.left < p.left)) := by
  unfold Thread.step
  split <;> grind -ring -linarith [holds, left, JobQueue.store, JobQueue.handOut, share_concat_ne]

theorem Thread.step_refused {item : α} {e : PushError α}
    (went : p.step q i c = some (q', .pushed item (.error e), w)) :
    p = .pushing item ∧ q' = q ∧
    ((e = .full item ∧ q.cap ≤ q.items.length) ∨ (e = .closed item ∧ q.closed = true)) := by
  unfold Thread.step at went
  split at went <;>
    grind -ring -linarith [JobQueue.admitItem, JobQueue.slow, JobQueue.enqueue, JobQueue.dequeue]

namespace State

variable {s t : State α} {cap : Nat}

def Step (s t : State α) : Prop := ∃ a, s.step a = some t

theorem Sound.run (sound : Sound cap s) (run : Relation.ReflTransGen Step s t) : Sound cap t := by
  induction run with
  | refl => exact sound
  | tail _ step ih =>
    obtain ⟨a, went⟩ := step
    exact ih.move (step_moves went)

/-- What the threads in the middle of a call leave alone when they drop the lock: the units queued,
what was accepted and what thread `i` has. -/
structure Spared (i : Nat) (s t : State α) : Prop where
  here : t.threads[i]? = s.threads[i]?
  items : t.queue.items = s.queue.items
  accepted : t.queue.accepted = s.queue.accepted
  handed : share t.queue.handed i = share s.queue.handed i

theorem Spared.trans {r : State α} (first : Spared i s t) (second : Spared i t r) :
    Spared i s r where
  here := second.here.trans first.here
  items := second.items.trans first.items
  accepted := second.accepted.trans first.accepted
  handed := second.handed.trans first.handed

/-- How a call of `push` is refused. -/
theorem Sound.refusal {a : Act α} {item : α} {e : PushError α} (sound : Sound cap s)
    (went : s.step a = some t) (ends : t.threads[i]? = some (.pushed item (.error e)))
    (began : s.threads[i]? ≠ t.threads[i]?) :
    s.threads[i]? = some (.pushing item) ∧ t.queue = s.queue ∧
    ((e = .full item ∧ s.queue.items.length = max cap 1) ∨
      (e = .closed item ∧ s.queue.closed = true ∧ 0 < s.queue.closes)) := by
  cases step_moves went with
  | spawn =>
    have still : (s.threads ++ [.idle])[i]? = s.threads[i]? := by grind -ring -linarith
    exact absurd still.symm began
  | call here outside called =>
    rcases getElem?_set_cases ends with ⟨_, same⟩ | ⟨other, _⟩
    · rw [← same] at called
      cases called
    · exact absurd (List.getElem?_set_ne (Ne.symm other)).symm began
  | thread here moved told =>
    rcases Wake.apply_getElem? told i with same | ⟨_, roused⟩
    · rcases getElem?_set_cases (same ▸ ends) with ⟨rfl, rfl⟩ | ⟨other, _⟩
      · obtain ⟨rfl, rfl, why⟩ := Thread.step_refused moved
        refine ⟨here, rfl, ?_⟩
        rcases why with ⟨full, most⟩ | ⟨halted, closed⟩
        · left
          exact ⟨full, sound.bound ▸ Nat.le_antisymm sound.sound.room most⟩
        · right
          exact ⟨halted, closed, sound.sound.asked closed⟩
      · exact absurd ((List.getElem?_set_ne (Ne.symm other)).symm.trans same.symm) began
    · rw [roused] at ends
      cases ends

end State

/-- One unit in a queue for one, whose pusher comes with a second one, beside an idle worker. -/
def full : Option (State Nat) :=
  follows (.new 0) (([.spawn, .spawn, .push 0 7] : List (Act Nat)) ++
    List.replicate 4 (Act.thread 0 ⟨false, false, 0⟩ : Act Nat) ++ ([.push 0 8] : List (Act Nat)))

end Gusset.Queue
