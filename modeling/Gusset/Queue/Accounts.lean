import Gusset.Queue.Program

/-! The books of the job queue: its counters are the numbers of threads that stand where the
counters say, and the lock has at most one holder. -/
namespace Gusset.Queue
open Foundation

variable {α : Type} {q q' : JobQueue α} {p p' : Thread α} {i : Nat} {c : Choice} {w : Wake}

namespace Thread

def holds : Thread α → Nat
  | .storing _ | .deciding _ | .unlocking _ _ | .fastStore _ | .fastLeave _ | .fastUnlock _
  | .slowStore _ | .slowUnlock _ => 1
  | _ => 0

def spins : Thread α → Nat
  | .polling _ | .trying _ | .checking _ | .again _ | .leaving | .fastStore _ | .fastLeave _ => 1
  | _ => 0

def sleeps : Thread α → Nat
  | .asleep _ | .awake _ => 1
  | _ => 0

/-- What the thread took and has not returned yet. -/
def inHand : Thread α → List α
  | .fastStore item | .fastLeave item | .fastUnlock item | .slowStore item | .slowUnlock item =>
    [item]
  | _ => []

@[simp] theorem rouse_holds (p : Thread α) : p.rouse.holds = p.holds := by cases p <;> rfl
@[simp] theorem rouse_spins (p : Thread α) : p.rouse.spins = p.spins := by cases p <;> rfl
@[simp] theorem rouse_sleeps (p : Thread α) : p.rouse.sleeps = p.sleeps := by cases p <;> rfl
@[simp] theorem rouse_inHand (p : Thread α) : p.rouse.inHand = p.inHand := by cases p <;> rfl

end Thread

/-- What a thread was handed, in order. -/
def share (l : List (Nat × α)) (i : Nat) : List α :=
  l.filterMap fun e => if e.1 = i then some e.2 else none

@[simp] theorem share_concat_self (l : List (Nat × α)) (i : Nat) (item : α) :
    share (l ++ [(i, item)]) i = share l i ++ [item] := by
  simp [share]

theorem share_concat_ne (l : List (Nat × α)) {i j : Nat} (item : α) (other : i ≠ j) :
    share (l ++ [(i, item)]) j = share l j := by
  simp [share, other]

/-- What holds of the queue, whoever moves. -/
structure JobQueue.Sound (q : JobQueue α) : Prop where
  room : q.items.length ≤ q.cap
  order : q.accepted = q.taken.map Prod.snd ++ q.items
  asked : q.closed = true → 0 < q.closes
  flagged : q.shut = true → q.closed = true
  free : q.lock = false → q.queued = q.items.length

/-- What a thread's place says about the queue. -/
def Thread.Known (q : JobQueue α) : Thread α → Prop
  | .storing _ => q.queued + 1 = q.items.length
  | .fastStore _ | .slowStore _ => q.queued = q.items.length + 1
  | .deciding _ | .unlocking _ _ | .fastLeave _ | .fastUnlock _ | .slowUnlock _ =>
    q.queued = q.items.length
  | .popped none => q.closed = true ∧ q.items = []
  | .closing => 0 < q.closes
  | .shutting => q.closed = true
  | _ => True

/-- The lock, the pollers and the sleepers, before and after a thread's step. -/
theorem Thread.step_counts (went : p.step q i c = some (q', p', w)) (held : p.holds ≤ q.lock.toNat)
    (counted : p.spins ≤ q.spinning) (sleeping : p.sleeps ≤ q.sleepers) :
    p'.holds + q.lock.toNat = p.holds + q'.lock.toNat ∧
    p'.spins + q.spinning = p.spins + q'.spinning ∧
    p'.sleeps + q.sleepers = p.sleeps + q'.sleepers := by
  unfold Thread.step at went
  split at went <;>
    grind -ring -linarith [holds, spins, sleeps, JobQueue.admitItem, JobQueue.slow, JobQueue.enqueue,
      JobQueue.dequeue, JobQueue.store, JobQueue.handOut, Bool.toNat]

theorem Thread.step_sound (went : p.step q i c = some (q', p', w)) (held : p.holds ≤ q.lock.toNat)
    (sound : q.Sound) (known : p.Known q) : q'.Sound ∧ p'.Known q' := by
  obtain ⟨room, order, asked, flagged, free⟩ := sound
  unfold Thread.step at went
  split at went <;>
    grind -ring -linarith [holds, Known, JobQueue.admitItem, JobQueue.slow, JobQueue.enqueue,
      JobQueue.dequeue, JobQueue.store, JobQueue.handOut, Bool.toNat, JobQueue.Sound]

/-- What no step undoes. Behind the lock only its holder moves. -/
theorem Thread.step_kept (went : p.step q i c = some (q', p', w)) :
    q'.cap = q.cap ∧ q'.closes = q.closes ∧ (q.closed = true → q'.closed = true) ∧
    (q.closed = true → q.items = [] → q'.items = []) ∧
    (q.lock = true → p.holds = 0 → q'.items = q.items ∧ q'.queued = q.queued) := by
  unfold Thread.step at went
  split at went <;>
    grind -ring -linarith [holds, JobQueue.admitItem, JobQueue.slow, JobQueue.enqueue,
      JobQueue.dequeue,
      JobQueue.store, JobQueue.handOut]

theorem Thread.Known.other {r : Thread α} (known : r.Known q) (closes : q'.closes = q.closes)
    (closed : q.closed = true → q'.closed = true)
    (halted : q.closed = true → q.items = [] → q'.items = [])
    (kept : r.holds = 1 → q'.items = q.items ∧ q'.queued = q.queued) : r.Known q' := by
  unfold Known at known ⊢
  split <;> grind -ring -linarith [holds]

theorem Thread.step_hands (went : p.step q i c = some (q', p', w))
    (hands : share q.taken i = share q.handed i ++ p.inHand) :
    share q'.taken i = share q'.handed i ++ p'.inHand ∧
    ∀ j, j ≠ i → share q'.taken j = share q.taken j ∧ share q'.handed j = share q.handed j := by
  unfold Thread.step at went
  split at went <;>
    grind -ring -linarith [inHand, JobQueue.admitItem, JobQueue.slow, JobQueue.enqueue,
      JobQueue.dequeue, JobQueue.store, JobQueue.handOut, share_concat_self, share_concat_ne]

namespace Wake

variable {l l' : List (Thread α)}

/-- A notification leaves every thread where it is, or tells one that waits. -/
theorem apply_getElem? (told : w.apply l = some l') (j : Nat) :
    l'[j]? = l[j]? ∨ (l[j]? = some (.asleep false) ∧ l'[j]? = some (.asleep true)) := by
  unfold apply at told
  split at told
  · grind -ring -linarith
  · cases told
    simp only [List.getElem?_map]
    cases found : l[j]? with
    | none => exact .inl rfl
    | some p => cases p <;> simp [Thread.rouse]
  · grind -ring -linarith

theorem apply_census (told : w.apply l = some l') (f : Thread α → Nat)
    (blind : f (.asleep true) = f (.asleep false)) : census f l' = census f l := by
  unfold apply at told
  split at told
  · cases told
    rfl
  · cases told
    rw [census_map]
    congr 1
    funext p
    cases p with
    | asleep notified => cases notified <;> simp [Thread.rouse, blind]
    | _ => rfl
  · split at told
    · split at told
      · rename_i found
        cases told
        exact census_set_same f found blind
      · contradiction
    · cases told
      rfl

end Wake

/-- What a call does before its first step. -/
inductive Called (q : JobQueue α) : JobQueue α → Thread α → Prop
  | push (item : α) : Called q q (.pushing item)
  | pop : Called q { q with spinning := q.spinning + 1 } (.polling 0)
  | close : Called q { q with closes := q.closes + 1 } .closing

theorem Called.kept (called : Called q q' p') :
    q'.cap = q.cap ∧ q'.lock = q.lock ∧ q'.items = q.items ∧ q'.closed = q.closed ∧
    q'.sleepers = q.sleepers ∧ q'.queued = q.queued ∧ q'.shut = q.shut ∧ q.closes ≤ q'.closes ∧
    q'.accepted = q.accepted ∧ q'.taken = q.taken ∧ q'.handed = q.handed ∧
    q'.spinning = q.spinning + p'.spins := by
  cases called <;> simp [Thread.spins]

theorem Called.place (called : Called q q' p') :
    p'.Known q' ∧ p'.holds = 0 ∧ p'.sleeps = 0 ∧ p'.inHand = [] := by
  cases called <;> simp [Thread.Known, Thread.holds, Thread.sleeps, Thread.inHand]

theorem Thread.outside_place (outside : p.outside = true) :
    p.holds = 0 ∧ p.spins = 0 ∧ p.sleeps = 0 ∧ p.inHand = [] := by
  cases p <;> simp_all [Thread.outside, Thread.holds, Thread.spins, Thread.sleeps, Thread.inHand]

/-- Everything that can happen to the queue and its threads. -/
inductive Move (s : State α) : State α → Prop
  | spawn : Move s ⟨s.queue, s.threads ++ [.idle]⟩
  | call {i : Nat} {p p' : Thread α} {q : JobQueue α} (here : s.threads[i]? = some p)
    (outside : p.outside = true) (called : Called s.queue q p') : Move s ⟨q, s.threads.set i p'⟩
  | thread {i : Nat} {c : Choice} {p p' : Thread α} {q : JobQueue α} {w : Wake}
    {threads : List (Thread α)} (here : s.threads[i]? = some p)
    (went : p.step s.queue i c = some (q, p', w))
    (told : w.apply (s.threads.set i p') = some threads) : Move s ⟨q, threads⟩

namespace State

variable {s t : State α} {cap : Nat}

theorem call_moves {q : JobQueue α} (called : Called s.queue q p') (went : s.call i q p' = some t) :
    Move s t := by
  unfold call at went
  split at went
  · rename_i p here
    obtain ⟨outside, moved⟩ := Option.ite_none_right_eq_some.mp went
    cases moved
    exact .call here outside called
  · contradiction

theorem step_moves {a : Act α} (went : s.step a = some t) : Move s t := by
  cases a with
  | spawn =>
    cases went
    exact .spawn
  | push i item => exact call_moves (.push item) went
  | pop i => exact call_moves .pop went
  | close i => exact call_moves .close went
  | thread i c =>
    obtain ⟨p, here, rest⟩ := Option.bind_eq_some_iff.mp went
    obtain ⟨⟨q, p', w⟩, moved, rest⟩ := Option.bind_eq_some_iff.mp rest
    obtain ⟨threads, told, rfl⟩ := Option.map_eq_some_iff.mp rest
    exact .thread here moved told

/-- The books of the queue over any number of threads. -/
structure Sound (cap : Nat) (s : State α) : Prop where
  bound : s.queue.cap = max cap 1
  sound : s.queue.Sound
  known : ∀ p ∈ s.threads, p.Known s.queue
  holder : census Thread.holds s.threads = s.queue.lock.toNat
  spinning : census Thread.spins s.threads = s.queue.spinning
  sleepers : census Thread.sleeps s.threads = s.queue.sleepers
  hands : ∀ i, share s.queue.taken i =
    share s.queue.handed i ++ (s.threads[i]?.map Thread.inHand).getD []

theorem Sound.new (cap : Nat) : Sound cap (.new cap : State α) where
  bound := rfl
  sound := ⟨Nat.zero_le _, rfl, nofun, nofun, fun _ => rfl⟩
  known := by simp [State.new]
  holder := rfl
  spinning := rfl
  sleepers := rfl
  hands i := by simp [State.new, JobQueue.new, share]

theorem Sound.spawn (h : Sound cap s) : Sound cap ⟨s.queue, s.threads ++ [.idle]⟩ where
  bound := h.bound
  sound := h.sound
  known := by
    intro p member
    obtain old | new := List.mem_append.mp member
    · exact h.known p old
    · rw [List.mem_singleton.mp new]
      trivial
  holder := by simpa [Thread.holds] using h.holder
  spinning := by simpa [Thread.spins] using h.spinning
  sleepers := by simpa [Thread.sleeps] using h.sleepers
  hands i := by
    have before := h.hands i
    have grown : ((s.threads ++ [.idle])[i]?.map Thread.inHand).getD [] =
        (s.threads[i]?.map Thread.inHand).getD [] := by
      grind -ring -linarith [Thread.inHand]
    simpa only [grown] using before

theorem Sound.call {q : JobQueue α} (h : Sound cap s) (here : s.threads[i]? = some p)
    (outside : p.outside = true) (called : Called s.queue q p') :
    Sound cap ⟨q, s.threads.set i p'⟩ := by
  obtain ⟨capped, lock, items, closed, sleepers, queued, shut, closes, accepted, taken, handed,
    spinning⟩ := called.kept
  obtain ⟨known, holds, sleeps, hand⟩ := called.place
  obtain ⟨holds', spins', sleeps', hand'⟩ := Thread.outside_place outside
  obtain ⟨room, order, asked, flagged, free⟩ := h.sound
  constructor
  · exact capped.trans h.bound
  · constructor <;> grind -ring -linarith
  · intro r member
    rcases mem_set_cases member with rfl | ⟨j, _, old⟩
    · exact known
    · have before := h.known r (List.mem_of_getElem? old)
      unfold Thread.Known at before ⊢
      split <;> grind -ring -linarith
  · have count := census_set Thread.holds here p'
    have before := h.holder
    simp only [lock]
    omega
  · have count := census_set Thread.spins here p'
    have before := h.spinning
    simp only [spinning]
    omega
  · have count := census_set Thread.sleeps here p'
    have before := h.sleepers
    simp only [sleepers]
    omega
  · intro j
    have before := h.hands j
    grind -ring -linarith

/-- The lock has one holder. -/
theorem Sound.alone {j : Nat} {r : Thread α} (h : Sound cap s) (here : s.threads[i]? = some p)
    (holding : p.holds = 1) (there : s.threads[j]? = some r) (other : j ≠ i) : r.holds = 0 := by
  by_contra both
  have one : census Thread.holds s.threads ≤ 1 := h.holder ▸ Bool.toNat_le _
  exact other (index_unique Thread.holds one there here (by omega) (by omega))

theorem Sound.locked (h : Sound cap s) (here : s.threads[i]? = some p) (holding : p.holds = 1) :
    s.queue.lock = true := by
  have counted := le_census Thread.holds here
  have whole := h.holder
  cases free : s.queue.lock with
  | true => rfl
  | false =>
    rw [free, Bool.toNat_false] at whole
    omega

theorem Sound.thread {q : JobQueue α} {threads : List (Thread α)} (h : Sound cap s)
    (here : s.threads[i]? = some p) (went : p.step s.queue i c = some (q, p', w))
    (told : w.apply (s.threads.set i p') = some threads) : Sound cap ⟨q, threads⟩ := by
  have held : p.holds ≤ s.queue.lock.toNat := h.holder ▸ le_census Thread.holds here
  have counts := Thread.step_counts went held (h.spinning ▸ le_census Thread.spins here)
    (h.sleepers ▸ le_census Thread.sleeps here)
  have knows := Thread.step_sound went held h.sound (h.known p (List.mem_of_getElem? here))
  obtain ⟨capped, closes, closed, halted, kept⟩ := Thread.step_kept went
  constructor
  · exact capped.trans h.bound
  · exact knows.1
  · intro r member
    obtain ⟨j, found⟩ := List.mem_iff_getElem?.mp member
    rcases Wake.apply_getElem? told j with same | ⟨_, roused⟩
    · rcases getElem?_set_cases (same ▸ found) with ⟨_, rfl⟩ | ⟨other, old⟩
      · exact knows.2
      · apply (h.known r (List.mem_of_getElem? old)).other closes closed halted
        intro holding
        exact kept (h.locked old holding) (h.alone old holding here (Ne.symm other))
    · rw [roused] at found
      cases found
      trivial
  · have count := census_set Thread.holds here p'
    have before := h.holder
    have same := Wake.apply_census told Thread.holds rfl
    simp only [same]
    omega
  · have count := census_set Thread.spins here p'
    have before := h.spinning
    have same := Wake.apply_census told Thread.spins rfl
    simp only [same]
    omega
  · have count := census_set Thread.sleeps here p'
    have before := h.sleepers
    have same := Wake.apply_census told Thread.sleeps rfl
    simp only [same]
    omega
  · intro j
    have before := h.hands j
    have mine := h.hands i
    rw [here] at mine
    obtain ⟨self, others⟩ := Thread.step_hands went mine
    have bound := (List.getElem?_eq_some_iff.mp here).1
    rcases Wake.apply_getElem? told j with same | ⟨slept, roused⟩
    · simp only [same]
      by_cases this : j = i
      · subst this
        simpa [List.getElem?_set_self bound] using self
      · rw [List.getElem?_set_ne (Ne.symm this), (others j this).1, (others j this).2]
        exact before
    · simp only [roused]
      rcases getElem?_set_cases slept with ⟨rfl, rfl⟩ | ⟨this, old⟩
      · exact self
      · rw [old] at before
        rw [(others j this).1, (others j this).2]
        exact before

theorem Sound.move (h : Sound cap s) (move : Move s t) : Sound cap t := by
  cases move with
  | spawn => exact h.spawn
  | call here outside called => exact h.call here outside called
  | thread here went told => exact h.thread here went told

end State

theorem reaches_sound {cap : Nat} {s : State α} (reach : Reaches cap s) : s.Sound cap :=
  reach.invariant (fun _ start => start ▸ .new cap)
    fun _ _ sound ⟨_, went⟩ => sound.move (State.step_moves went)

end Gusset.Queue
