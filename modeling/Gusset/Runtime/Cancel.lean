import Gusset.Runtime.Shutdown

/-! Cancellation reaches every unit, and a clean drain means that no engine runs. -/
namespace Gusset.Runtime
open Foundation

variable {g g' : Globals} {x x' : Handle} {p p' : Thread} {c : Choice} {readers : Nat → Nat}
  {h t i : Nat} {s u : State} {rest : List Nat}

namespace Thread

/-- The handle and the ticket of the unit a worker has. -/
def runs (p : Thread) : Option (Nat × Nat) := if p.submits then none else p.flagged

theorem runs_flagged (runs : p.runs = some (h, t)) : p.flagged = some (h, t) := by
  unfold Thread.runs at runs
  split at runs
  · contradiction
  · exact runs

theorem runs_iff (apart : p.submits = true → p.target ≠ some h) :
    p.flagged = some (h, t) ↔ p.runs = some (h, t) := by
  unfold runs
  split
  · rename_i submits
    constructor
    · intro flagged
      exact absurd (calls_target (flagged_calls flagged)) (apart submits)
    · exact nofun
  · rfl

theorem refused_owned (h : Nat) (ticket : Option Nat) (msg : String) :
    (Thread.refused h ticket msg).owned = ticket := rfl

theorem act_drained (went : p.act g x readers c = some (g', x', p')) (n : Nat) :
    p' ≠ .drained n := by
  unfold Thread.act at went
  split at went <;> grind -ring -linarith
    [Request.done_cases, materialize_cases, JobOutput.next_cases]

theorem act_runs (went : p.act g x readers c = some (g', x', p')) (target : p.target = some h)
    {k : Nat} (runs : p'.runs = some (k, t)) :
    k = h ∧ (p.runs = some (h, t) ∨ ∃ w ∈ x.items, w.ticket = t) := by
  unfold Thread.act at went
  split at went <;>
    grind -ring -linarith [Thread.runs, flagged, submits, Thread.target, Request.done_cases,
      materialize_cases,
      JobOutput.next_cases, Request.ticket, Option.map_eq_some_iff, Request.done_flagged]

theorem act_uses (went : p.act g x readers c = some (g', x', p')) (target : p.target = some h)
    {k : Nat} (uses : p'.uses k = true) : p.uses k = true ∨ (k = h ∧ x.live = true) := by
  unfold Thread.act at went
  split at went <;>
    grind -ring -linarith [Thread.uses, Thread.target, Request.done_cases, materialize_cases,
      JobOutput.next_cases]

theorem act_seals (went : p.act g x readers c = some (g', x', p')) (target : p.target = some h) :
    (x.queueClosed = true → x'.queueClosed = true) ∧
    (x.queueClosed = true → x'.items <:+ x.items) ∧
    (x.sealed = true → x'.sealed = true) ∧
    (x'.sealed = true → x.sealed = true ∨ (p = .cancellingAll h true ∧ x'.items = x.items ∧
      g' = g.cancelAll x ∧ p' = .idle)) ∧
    (∀ k, p' = .cancellingAll k true → k = h ∧ x'.queueClosed = true) := by
  unfold Thread.act at went
  split at went <;>
    grind -ring -linarith [Thread.target, Request.done_cases, materialize_cases, JobOutput.next_cases,
      Handle.claimOutput_ok, List.suffix_refl, List.suffix_cons]

end Thread

namespace State

/-- What a close leaves behind it, and that nobody works on a handle that is gone. -/
structure Seals (s : State) : Prop where
  held : ∀ p ∈ s.threads, ∀ h, p.uses h = true → ∃ x, s.handles[h]? = some x ∧ x.live = true
  shut : ∀ h, .cancellingAll h true ∈ s.threads →
    ∃ x, s.handles[h]? = some x ∧ x.queueClosed = true
  done : ∀ (h : Nat) x, s.handles[h]? = some x → x.sealed = true → x.queueClosed = true
  queued : ∀ (h : Nat) x, s.handles[h]? = some x → x.sealed = true →
    ∀ w ∈ x.items, w.ticket ∈ s.globals.cancelled
  running : ∀ (h : Nat) x, s.handles[h]? = some x → x.sealed = true →
    ∀ p ∈ s.threads, ∀ t, p.runs = some (h, t) → t ∈ s.globals.cancelled

/-- On a live handle the units queued and run have their flags in the map. -/
theorem Flags.queued (f : Flags s) (found : s.handles[h]? = some x) (live : x.live = true)
    {w : WorkUnit} (member : w ∈ x.items) : w.ticket ∈ x.cancelFlags := by
  have keys := f.keys h x found live w.ticket
  have counted : 0 < (x.items.map WorkUnit.ticket).count w.ticket :=
    List.count_pos_iff.mpr (List.mem_map_of_mem member)
  exact List.count_pos_iff.mp (by omega)

theorem Flags.running (f : Flags s) (found : s.handles[h]? = some x) (live : x.live = true)
    (member : p ∈ s.threads) (runs : p.runs = some (h, t)) : t ∈ x.cancelFlags := by
  obtain ⟨j, there⟩ := List.mem_iff_getElem?.mp member
  exact f.registered there found live (Thread.runs_flagged runs)

theorem Seals.act (f : Flags s) (l : Seals s) (here : s.threads[i]? = some p)
    (target : p.target = some h) (found : s.handles[h]? = some x)
    (went : p.act s.globals x s.readers c = some (g, x', p')) :
    Seals ⟨g, s.handles.set h x', s.threads.set i p'⟩ := by
  obtain ⟨live, _, _, _, _, _, _, more⟩ := Thread.act_kept went
  obtain ⟨closes, shrinks, _, seals, cancels⟩ := Thread.act_seals went target
  have member := List.mem_of_getElem? here
  have bound := (List.getElem?_eq_some_iff.mp found).1
  have keeps : ∀ (k : Nat) y, s.handles[k]? = some y → ∃ z, (s.handles.set h x')[k]? = some z ∧
      (y.live = true → z.live = true) ∧ (y.queueClosed = true → z.queueClosed = true) := by
    intro k y at_
    by_cases same : k = h
    · subst same
      rw [found] at at_
      cases at_
      exact ⟨x', List.getElem?_set_self bound, fun was => live ▸ was, closes⟩
    · exact ⟨y, (List.getElem?_set_ne (Ne.symm same)).trans at_, id, id⟩
  constructor
  · intro q member' k uses
    rcases mem_set_cases member' with rfl | ⟨j, _, old⟩
    · rcases Thread.act_uses went target uses with before | ⟨rfl, lives⟩
      · obtain ⟨y, at_, alive⟩ := l.held p member k before
        obtain ⟨z, there, still, _⟩ := keeps k y at_
        exact ⟨z, there, still alive⟩
      · obtain ⟨z, there, still, _⟩ := keeps k x found
        exact ⟨z, there, still lives⟩
    · obtain ⟨y, at_, alive⟩ := l.held q (List.mem_of_getElem? old) k uses
      obtain ⟨z, there, still, _⟩ := keeps k y at_
      exact ⟨z, there, still alive⟩
  · intro k member'
    rcases mem_set_cases member' with same | ⟨j, _, old⟩
    · obtain ⟨rfl, closed⟩ := cancels k same.symm
      exact ⟨x', List.getElem?_set_self bound, closed⟩
    · obtain ⟨y, at_, closed⟩ := l.shut k (List.mem_of_getElem? old)
      obtain ⟨z, there, _, still⟩ := keeps k y at_
      exact ⟨z, there, still closed⟩
  · intro k y at_ sealed
    rcases getElem?_set_cases at_ with ⟨rfl, rfl⟩ | ⟨_, old⟩
    · rcases seals sealed with before | ⟨rfl, _⟩
      · exact closes (l.done k x found before)
      · obtain ⟨y, at_, closed⟩ := l.shut k member
        rw [found] at at_
        cases at_
        exact closes closed
    · exact l.done k y old sealed
  · intro k y at_ sealed w queued
    rcases getElem?_set_cases at_ with ⟨rfl, rfl⟩ | ⟨_, old⟩
    · rcases seals sealed with before | ⟨rfl, same, rfl, _⟩
      · have suffix_ := shrinks (l.done k x found before)
        exact more (l.queued k x found before w (suffix_.subset queued))
      · obtain ⟨y, at_, alive⟩ := l.held _ member k (by simp [Thread.uses, Thread.target])
        rw [found] at at_
        cases at_
        exact List.mem_append_right _ (f.queued found alive (same ▸ queued))
    · exact more (l.queued k y old sealed w queued)
  · intro k y at_ sealed q member' t runs
    have fromOld : ∀ z, s.handles[k]? = some z → z.sealed = true → t ∈ g.cancelled := by
      intro z there was
      rcases mem_set_cases member' with rfl | ⟨j, _, old⟩
      · obtain ⟨rfl, before | ⟨w, queued, rfl⟩⟩ := Thread.act_runs went target runs
        · exact more (l.running k z there was p member t before)
        · rw [found] at there
          cases there
          exact more (l.queued k x found was w queued)
      · exact more (l.running k z there was q (List.mem_of_getElem? old) t runs)
    rcases getElem?_set_cases at_ with ⟨rfl, rfl⟩ | ⟨_, old⟩
    · rcases seals sealed with before | ⟨rfl, _, rfl, rfl⟩
      · exact fromOld x found before
      · obtain ⟨y, at_, alive⟩ := l.held _ member k (by simp [Thread.uses, Thread.target])
        rw [found] at at_
        cases at_
        rcases mem_set_cases member' with rfl | ⟨j, _, old⟩
        · cases runs
        · exact List.mem_append_right _
            (f.running found alive (List.mem_of_getElem? old) runs)
    · exact fromOld y old sealed

/-- One thread moves on handles that stay, into a place that runs nothing it did not run. -/
theorem Seals.retread (l : Seals s)
    (cancelled : g.cancelled = s.globals.cancelled)
    (uses : ∀ h, p'.uses h = true → ∃ x, s.handles[h]? = some x ∧ x.live = true)
    (closing : ∀ h, p' ≠ .cancellingAll h true) (runs : p'.runs = none) :
    Seals ⟨g, s.handles, s.threads.set i p'⟩ := by
  constructor
  · intro q member h used
    rcases mem_set_cases member with rfl | ⟨j, _, old⟩
    · exact uses h used
    · exact l.held q (List.mem_of_getElem? old) h used
  · intro h member
    rcases mem_set_cases member with same | ⟨j, _, old⟩
    · exact absurd same.symm (closing h)
    · exact l.shut h (List.mem_of_getElem? old)
  · exact l.done
  · simp only [cancelled]
    exact l.queued
  · intro h x found sealed q member t runs'
    simp only [cancelled]
    rcases mem_set_cases member with rfl | ⟨j, _, old⟩
    · rw [runs] at runs'
      cases runs'
    · exact l.running h x found sealed q (List.mem_of_getElem? old) t runs'

theorem Seals.grow (l : Seals s) (cap : Nat) :
    Seals { s with handles := s.handles ++ [.new cap] } := by
  have keeps : ∀ (k : Nat) y, s.handles[k]? = some y →
      (s.handles ++ [Handle.new cap])[k]? = some y := by
    intro k y at_
    exact (List.getElem?_append_left (List.getElem?_eq_some_iff.mp at_).1).trans at_
  constructor
  · intro q member h used
    obtain ⟨y, at_, alive⟩ := l.held q member h used
    exact ⟨y, keeps h y at_, alive⟩
  · intro h member
    obtain ⟨y, at_, closed⟩ := l.shut h member
    exact ⟨y, keeps h y at_, closed⟩
  · intro h x found sealed
    rcases grow_cases found with old | ⟨rfl, _⟩
    · exact l.done h x old sealed
    · cases sealed
  · intro h x found sealed
    rcases grow_cases found with old | ⟨rfl, _⟩
    · exact l.queued h x old sealed
    · cases sealed
  · intro h x found sealed
    rcases grow_cases found with old | ⟨rfl, _⟩
    · exact l.running h x old sealed
    · cases sealed

theorem Seals.drop (f : Flags s) (l : Seals s) (found : s.handles[h]? = some x)
    (live : x.live = true) (unused : ∀ p ∈ s.threads, p.uses h = false) :
    Seals ⟨s.globals.cancelAll x, s.handles.set h x.drop, s.threads⟩ := by
  have others : ∀ (k : Nat) y, k ≠ h → s.handles[k]? = some y →
      (s.handles.set h x.drop)[k]? = some y := by
    intro k y other at_
    exact (List.getElem?_set_ne (Ne.symm other)).trans at_
  constructor
  · intro q member k used
    obtain ⟨y, at_, alive⟩ := l.held q member k used
    have other : k ≠ h := by
      rintro rfl
      rw [unused q member] at used
      cases used
    exact ⟨y, others k y other at_, alive⟩
  · intro k member
    obtain ⟨y, at_, closed⟩ := l.shut k member
    have other : k ≠ h := by
      rintro rfl
      have used := unused _ member
      simp [Thread.uses, Thread.target] at used
    exact ⟨y, others k y other at_, closed⟩
  · intro k y at_ sealed
    rcases getElem?_set_cases at_ with ⟨_, rfl⟩ | ⟨_, old⟩
    · rfl
    · exact l.done k y old sealed
  · intro k y at_ sealed w queued
    rcases getElem?_set_cases at_ with ⟨rfl, rfl⟩ | ⟨_, old⟩
    · exact List.mem_append_right _ (f.queued found live queued)
    · exact List.mem_append_left _ (l.queued k y old sealed w queued)
  · intro k y at_ sealed q member t runs
    rcases getElem?_set_cases at_ with ⟨rfl, rfl⟩ | ⟨_, old⟩
    · exact List.mem_append_right _ (f.running found live member runs)
    · exact List.mem_append_left _ (l.running k y old sealed q member t runs)

theorem Seals.spawn (l : Seals s) : Seals { s with threads := s.threads ++ [.idle] } := by
  have cases_ : ∀ q ∈ s.threads ++ [.idle], q ∈ s.threads ∨ q = .idle := by
    intro q member
    simpa using member
  constructor
  · intro q member h used
    rcases cases_ q member with old | rfl
    · exact l.held q old h used
    · simp [Thread.uses, Thread.target] at used
  · intro h member
    rcases cases_ _ member with old | same
    · exact l.shut h old
    · cases same
  · exact l.done
  · exact l.queued
  · intro h x found sealed q member t runs
    rcases cases_ q member with old | rfl
    · exact l.running h x found sealed q old t runs
    · cases runs

theorem Seals.globalAct (l : Seals s) (here : s.threads[i]? = some p)
    (went : p.globalAct s c = some (g, p')) : Seals ⟨g, s.handles, s.threads.set i p'⟩ := by
  have enlisted : ∀ h, h ∈ s.enlisted → ∃ x, s.handles[h]? = some x ∧ x.live = true := by
    intro h member
    have bound : h < s.handles.length := by
      have inside := (List.mem_filter.mp member).1
      exact List.mem_range.mp inside
    have found := List.getElem?_eq_getElem bound
    exact ⟨_, found, ((mem_enlisted found).mp member).2⟩
  apply l.retread <;> unfold Thread.globalAct at went <;> split at went <;>
    grind -ring -linarith [Thread.uses, Thread.target, Thread.runs, Thread.flagged, Thread.submits]

theorem Seals.move (f : Flags s) (l : Seals s) (move : Move s u) : Seals u := by
  cases move with
  | spawn => exact l.spawn
  | opens here outside =>
    rename_i i cap p
    apply (l.grow cap).retread rfl
    · intro h used
      have same : s.handles.length = h := by simpa [Thread.uses, Thread.target] using used
      exact ⟨.new cap, by simp [← same], rfl⟩
    · intro h used
      cases used
    · rfl
  | call k here outside found registered live =>
    rename_i i h p x
    apply l.retread rfl
    · intro h' used
      have same : h = h' := by cases k <;> simpa [Thread.uses, Thread.target, Call.enter] using used
      exact ⟨x, same ▸ found, live⟩
    · cases k <;> (intro h used; cases used)
    · cases k <;> rfl
  | begin here outside which =>
    rcases which with rfl | rfl
    all_goals
      apply l.retread rfl
      · intro h used
        simp [Thread.uses, Thread.target] at used
      · intro h used
        cases used
      · rfl
  | work here outside bound =>
    apply l.retread rfl
    · intro h used
      simp [Thread.uses] at used
    · intro h used
      cases used
    · rfl
  | drop found registered live unused => exact l.drop f found live unused
  | act here target found went => exact l.act f here target found went
  | globalAct here aside went => exact l.globalAct here went

theorem Seals.new : Seals .new where
  held := by simp [State.new]
  shut := by simp [State.new]
  done h x found := by simp [State.new] at found
  queued h x found := by simp [State.new] at found
  running h x found := by simp [State.new] at found

end State

theorem reaches_seals (reach : Reaches s) : s.Seals :=
  reach.induction (fun _ start => start ▸ .new)
    fun _ _ before seals ⟨_, went⟩ => seals.move (reaches_flags before) (State.step_moves went)

namespace State

def Step (s t : State) : Prop := ∃ a, s.step a = some t

-- The store of `rearm`.
def Rearms (s : State) : Act → Prop
  | .thread i _ => s.threads[i]? = some .rearming
  | _ => False

/-- A step that is not a `rearm`. -/
def StaysDown (s t : State) : Prop := ∃ a, s.step a = some t ∧ ¬ s.Rearms a

theorem globalAct_stays (went : p.globalAct s c = some (g, p')) (not : p ≠ .rearming) :
    (s.globals.signalled = true → g.signalled = true) ∧
    (s.globals.drained = true → g.drained = true) := by
  unfold Thread.globalAct at went
  split at went <;> grind -ring -linarith

theorem globalAct_drained (went : p.globalAct s c = some (g, .drained 0)) : g.drained = true := by
  unfold Thread.globalAct at went
  split at went <;> grind -ring -linarith

theorem StaysDown.kept (down : StaysDown s u) :
    (s.globals.signalled = true → u.globals.signalled = true) ∧
    (s.globals.drained = true → u.globals.drained = true) := by
  obtain ⟨a, went, not⟩ := down
  cases a with
  | thread i c =>
    obtain ⟨p, here, ⟨h, x, g, x', p', target, found, moved, rfl⟩ | ⟨g, p', aside, moved, rfl⟩⟩ :=
      thread_cases went
    · obtain ⟨_, _, _, _, _, signalled, drained, _⟩ := Thread.act_kept moved
      exact ⟨fun yes => signalled.trans yes, fun yes => drained.trans yes⟩
    · apply globalAct_stays moved
      rintro rfl
      exact not here
  | _ =>
    obtain ⟨more, same⟩ := outer_globals went nofun
    rw [same]
    exact ⟨id, id⟩

theorem StaysDown.run (run : Relation.ReflTransGen StaysDown s u) :
    Relation.ReflTransGen Step s u ∧ (s.globals.signalled = true → u.globals.signalled = true) ∧
    (s.globals.drained = true → u.globals.drained = true) := by
  induction run with
  | refl => exact ⟨.refl, id, id⟩
  | tail _ step ih =>
    obtain ⟨run, signalled, drained⟩ := ih
    obtain ⟨a, went, _⟩ := id step
    exact ⟨run.tail ⟨a, went⟩, fun yes => step.kept.1 (signalled yes),
      fun yes => step.kept.2 (drained yes)⟩

theorem run_reaches (reach : Reaches s) (run : Relation.ReflTransGen Step s u) : Reaches u := by
  obtain ⟨a, start, before⟩ := reach
  exact ⟨a, start, before.trans run⟩

/-- After its seal a queue takes no unit. -/
theorem Seals.items (l : Seals s) (step : Step s u) (found : s.handles[h]? = some x)
    (sealed : x.sealed = true) :
    ∃ y, u.handles[h]? = some y ∧ y.sealed = true ∧ y.items <:+ x.items := by
  obtain ⟨a, went⟩ := step
  have bound := (List.getElem?_eq_some_iff.mp found).1
  have closed := l.done h x found sealed
  cases step_moves went with
  | opens here outside =>
    exact ⟨x, (List.getElem?_append_left bound).trans found, sealed, List.suffix_refl _⟩
  | drop there registered live unused =>
    rename_i k y
    by_cases same : k = h
    · subst same
      rw [found] at there
      cases there
      exact ⟨x.drop, List.getElem?_set_self bound, rfl, List.suffix_refl _⟩
    · exact ⟨x, (List.getElem?_set_ne same).trans found, sealed, List.suffix_refl _⟩
  | act here target there moved =>
    rename_i i k p p' y y' g c
    by_cases same : k = h
    · subst same
      rw [found] at there
      cases there
      obtain ⟨_, shrinks, stays, _⟩ := Thread.act_seals moved target
      exact ⟨y', List.getElem?_set_self bound, stays sealed, shrinks closed⟩
    · exact ⟨x, (List.getElem?_set_ne same).trans found, sealed, List.suffix_refl _⟩
  | spawn | call | begin | work | globalAct => exact ⟨x, found, sealed, List.suffix_refl _⟩

theorem items_run (reach : Reaches s) (run : Relation.ReflTransGen Step s u)
    (found : s.handles[h]? = some x) (sealed : x.sealed = true) :
    ∃ y, u.handles[h]? = some y ∧ y.sealed = true ∧ y.items <:+ x.items := by
  induction run with
  | refl => exact ⟨x, found, sealed, List.suffix_refl _⟩
  | tail before step ih =>
    obtain ⟨y, at_, still, suffix_⟩ := ih
    obtain ⟨z, there, stays, shorter⟩ :=
      (reaches_seals (run_reaches reach before)).items step at_ still
    exact ⟨z, there, stays, shorter.trans suffix_⟩

/-- The step of a close, or of a `Drop`, that runs `cancel_all`. -/
def CancelsAll (s : State) (h : Nat) : Act → Prop
  | .thread i _ => s.threads[i]? = some (.cancellingAll h true)
  | .drop k => k = h
  | _ => False

theorem CancelsAll.sealed {a : Act} (which : s.CancelsAll h a) (went : s.step a = some u) :
    ∃ x, u.handles[h]? = some x ∧ x.sealed = true := by
  cases a with
  | thread i c =>
    obtain ⟨p, here, ⟨k, x, g, x', p', target, found, moved, rfl⟩ | ⟨g, p', aside, moved, rfl⟩⟩ :=
      thread_cases went
    all_goals
      rw [show s.threads[i]? = some (.cancellingAll h true) from which] at here
      cases here
    · cases target
      cases moved
      exact ⟨_, List.getElem?_set_self (List.getElem?_eq_some_iff.mp found).1, by simp⟩
    · cases aside
  | drop k =>
    subst which
    simp only [step] at went
    split at went
    · rename_i x found
      obtain ⟨_, moved⟩ := Option.ite_none_right_eq_some.mp went
      cases moved
      exact ⟨x.drop, List.getElem?_set_self (List.getElem?_eq_some_iff.mp found).1, rfl⟩
    · contradiction
  | _ => cases which

-- The keys of the map: the queued units, and those a thread has.
theorem Flags.mem_iff (f : Flags s) (found : s.handles[h]? = some x) (live : x.live = true) :
    t ∈ x.cancelFlags ↔
      (∃ w ∈ x.items, w.ticket = t) ∨ ∃ p ∈ s.threads, p.flagged = some (h, t) := by
  have keys := f.keys h x found live t
  have queued : (∃ w ∈ x.items, w.ticket = t) ↔ 0 < (x.items.map WorkUnit.ticket).count t := by
    rw [List.count_pos_iff, List.mem_map]
  constructor
  · intro member
    have counted := List.count_pos_iff.mpr member
    by_cases none : s.carriers h t = 0
    · exact .inl (queued.mpr (by omega))
    · right
      obtain ⟨j, p, there, flagged⟩ := exists_of_census_pos _ (Nat.pos_of_ne_zero none)
      refine ⟨p, List.mem_of_getElem? there, ?_⟩
      by_contra other
      simp [other] at flagged
  · rintro (some_ | ⟨p, member, flagged⟩)
    · have counted := queued.mp some_
      exact List.count_pos_iff.mp (by omega)
    · obtain ⟨j, there⟩ := List.mem_iff_getElem?.mp member
      exact f.registered there found live flagged

/-- A submit that was refused has nothing in the map. -/
theorem Flags.refused (f : Flags s) {ticket : Option Nat} {msg : String}
    (here : s.threads[i]? = some (.refused h ticket msg)) (found : s.handles[h]? = some x)
    (live : x.live = true) (member : t ∈ x.cancelFlags) :
    ticket ≠ some t ∧ ((∃ w ∈ x.items, w.ticket = t) ∨
      ∃ j p, j ≠ i ∧ s.threads[j]? = some p ∧ p.flagged = some (h, t)) := by
  have one := f.once t
  unfold owners at one
  rcases (f.mem_iff found live).mp member with ⟨w, queued, rfl⟩ | ⟨p, there, flagged⟩
  · refine ⟨?_, .inl ⟨w, queued, rfl⟩⟩
    rintro rfl
    have mine := le_census (fun p : Thread => if p.owned = some w.ticket then 1 else 0) here
    rw [Thread.refused_owned, if_pos rfl] at mine
    have his := le_census (fun x : Handle => (x.items.map WorkUnit.ticket).count w.ticket) found
    have counted : 0 < (x.items.map WorkUnit.ticket).count w.ticket :=
      List.count_pos_iff.mpr (List.mem_map_of_mem queued)
    omega
  · obtain ⟨j, at_⟩ := List.mem_iff_getElem?.mp there
    have other : j ≠ i := by
      rintro rfl
      rw [here] at at_
      cases at_
      cases flagged
    refine ⟨?_, .inr ⟨j, p, other, at_, flagged⟩⟩
    rintro rfl
    have both := add_le_census (fun p : Thread => if p.owned = some t then 1 else 0) at_ here other
    rw [if_pos (Thread.flagged_owned flagged), Thread.refused_owned, if_pos rfl] at both
    omega

/-- Cancellation reaches every unit. From the return of `begin_shutdown` until a `rearm`, all flags
of live handles are set; from `cancel_all` in a close on, the flags of all units of the handle
are, and its queue only shrinks. What a submit that was refused finds in the map is not its own,
and while no submit has an entry in it, the keys are the tickets queued and in a worker's hands. -/
theorem cancellation_reaches (reach : Reaches s) :
    (∀ i c r u, s.threads[i]? = some (.signalling []) → s.step (.thread i c) = some r →
      Relation.ReflTransGen StaysDown r u → u.Settled []) ∧
    (∀ a h r v u, s.CancelsAll h a → s.step a = some r → Relation.ReflTransGen Step r v →
      Relation.ReflTransGen Step v u → ∃ x y, v.handles[h]? = some x ∧ u.handles[h]? = some y ∧
        y.items <:+ x.items ∧ (∀ w ∈ x.items, w.ticket ∈ v.globals.cancelled) ∧
        ∀ p ∈ v.threads, ∀ t, p.runs = some (h, t) → t ∈ v.globals.cancelled) ∧
    (∀ (i h : Nat) ticket msg x, s.threads[i]? = some (.refused h ticket msg) →
      s.handles[h]? = some x → x.live = true → ∀ t ∈ x.cancelFlags, ticket ≠ some t ∧
        ((∃ w ∈ x.items, w.ticket = t) ∨
          ∃ j p, j ≠ i ∧ s.threads[j]? = some p ∧ p.flagged = some (h, t))) ∧
    (∀ (h : Nat) x, s.handles[h]? = some x → x.live = true →
      (∀ p ∈ s.threads, p.submits = true → p.target ≠ some h) → ∀ t, t ∈ x.cancelFlags ↔
        (∃ w ∈ x.items, w.ticket = t) ∨ ∃ p ∈ s.threads, p.runs = some (h, t)) := by
  have f := reaches_flags reach
  refine ⟨?_, ?_, ?_, ?_⟩
  · intro i c r u here went run
    have signalled : r.globals.signalled = true := by
      simp only [step, threadStep, here, Option.bind_some] at went
      cases went
      rfl
    obtain ⟨steps, kept, _⟩ := StaysDown.run run
    have reach' := run_reaches (reach.next ⟨_, went⟩) steps
    exact (reaches_signals reach').settled (kept signalled)
  · intro a h r v u which went first second
    obtain ⟨z, there, sealed⟩ := which.sealed went
    have reached := run_reaches (reach.next ⟨a, went⟩) first
    obtain ⟨x, found, still, _⟩ := items_run (reach.next ⟨a, went⟩) first there sealed
    obtain ⟨y, at_, _, shorter⟩ := items_run reached second found still
    have l := reaches_seals reached
    exact ⟨x, y, found, at_, shorter, l.queued h x found still, l.running h x found still⟩
  · intro i h ticket msg x here found live t member
    exact f.refused here found live member
  · intro h x found live apart t
    rw [f.mem_iff found live]
    apply or_congr Iff.rfl
    apply exists_congr
    intro p
    apply and_congr_right
    intro there
    exact Thread.runs_iff fun submits => apart p there submits

end State

/-- Nothing is refused, nothing unwinds and no deadline passes. -/
def plainly : Choice := ⟨none, .ok (.bytes []), none, true, false⟩

/-- A submit has passed the early check as `begin_shutdown` runs to its end. -/
def overtaken : Option State :=
  follows .new (([.spawn, .spawn, .opens 0 4, .thread 0 plainly, .call 0 0 (.submit 0)] : List Act) ++
    List.replicate 5 (Act.thread 0 plainly) ++ ([.shutdown 1] : List Act) ++
    List.replicate 4 (Act.thread 1 plainly))

theorem overtaken_runs : overtaken.isSome = true := by decide

/-- The submit then puts its flag in the map, and the flag is set. -/
theorem cancellation_reaches_overtaken :
    ∃ r u, (overtaken.get overtaken_runs).step (.thread 1 plainly) = some r ∧
      r.step (.thread 0 plainly) = some u ∧ (u.handles.map Handle.cancelFlags) = [[1]] ∧
      u.Settled [] := by
  have reach : Reaches (overtaken.get overtaken_runs) :=
    follows_reaches (.start rfl) (Option.some_get _).symm
  have settled := (State.cancellation_reaches reach).1
  refine ⟨_, _, rfl, rfl, rfl, settled 1 plainly _ _ rfl rfl (.single ⟨.thread 0 plainly, rfl, ?_⟩)⟩
  exact nofun

namespace State

/-- A clean drain means that no engine runs: after a `shutdown` that returns 0 and until a `rearm`,
none does on a live handle. -/
theorem clean_drain (reach : Reaches s) {r : State} (went : s.step (.thread i c) = some r)
    (clean : r.threads[i]? = some (.drained 0)) (run : Relation.ReflTransGen StaysDown r u) :
    u.Quiet [] := by
  have drained : r.globals.drained = true := by
    obtain ⟨p, here, ⟨h, x, g, x', p', target, found, moved, rfl⟩ | ⟨g, p', aside, moved, rfl⟩⟩ :=
      thread_cases went
    all_goals
      rw [List.getElem?_set_self (List.getElem?_eq_some_iff.mp here).1] at clean
      cases clean
    · exact absurd rfl (Thread.act_drained moved 0)
    · exact globalAct_drained moved
  obtain ⟨steps, _, kept⟩ := StaysDown.run run
  have reach' := run_reaches (reach.next ⟨_, went⟩) steps
  exact (reaches_signals reach').quiet (kept drained)

end State

/-- The one handle is empty when `shutdown` counts, and a submit has passed the early check. -/
def emptied : Option State :=
  follows .new (([.spawn, .spawn, .spawn, .opens 0 4, .thread 0 plainly, .work 2 0,
      .call 0 0 (.submit 0)] : List Act) ++ List.replicate 5 (Act.thread 0 plainly) ++
    ([.shutdown 1] : List Act) ++ List.replicate 7 (Act.thread 1 plainly))

theorem emptied_runs : emptied.isSome = true := by decide

/-- The unit it queues afterwards is popped and not dispatched. -/
theorem clean_drain_emptied :
    ∃ r u, (emptied.get emptied_runs).step (.thread 1 plainly) = some r ∧
      r.threads[1]? = some (.drained 0) ∧ follows r ([.thread 0 plainly, .thread 0 plainly,
        .thread 2 plainly]) = some u ∧ u.threads[2]? = some (.popped 0 ⟨1, 0⟩) ∧ u.Quiet [] := by
  have reach : Reaches (emptied.get emptied_runs) :=
    follows_reaches (.start rfl) (Option.some_get _).symm
  refine ⟨_, _, rfl, rfl, rfl, rfl, ?_⟩
  apply State.clean_drain (i := 1) (c := plainly) reach rfl rfl
  refine .tail (.tail (.single ⟨.thread 0 plainly, rfl, ?_⟩) ⟨.thread 0 plainly, rfl, ?_⟩)
    ⟨.thread 2 plainly, rfl, ?_⟩
  all_goals exact nofun

end Gusset.Runtime
