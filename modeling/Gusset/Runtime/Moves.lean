import Gusset.Runtime.Program

/-! Everything that can happen in the runtime, and what one step on a handle changes. -/
namespace Gusset.Runtime
open Foundation

variable {g g' : Globals} {x x' : Handle} {p p' : Thread} {c : Choice} {readers : Nat → Nat}
  {h t : Nat}

/-- Everything that can happen to the process. -/
inductive Move (s : State) : State → Prop
  | spawn : Move s { s with threads := s.threads ++ [.idle] }
  | opens {i cap : Nat} {p : Thread} (here : s.threads[i]? = some p) (outside : p.outside = true) :
    Move s ⟨s.globals, s.handles ++ [.new cap], s.threads.set i (.enrolling s.handles.length)⟩
  | call {i h : Nat} {p : Thread} {x : Handle} (k : Call) (here : s.threads[i]? = some p)
    (outside : p.outside = true) (found : s.handles[h]? = some x) (registered : x.registered = true)
    (live : x.live = true) : Move s { s with threads := s.threads.set i (k.enter h) }
  | begin {i : Nat} {p p' : Thread} (here : s.threads[i]? = some p) (outside : p.outside = true)
    (which : p' = .shutdown ∨ p' = .rearming) : Move s { s with threads := s.threads.set i p' }
  | work {i h : Nat} {p : Thread} (here : s.threads[i]? = some p) (outside : p.outside = true)
    (bound : h < s.handles.length) : Move s { s with threads := s.threads.set i (.waiting h) }
  | drop {h : Nat} {x : Handle} (found : s.handles[h]? = some x) (registered : x.registered = true)
    (live : x.live = true) (unused : ∀ p ∈ s.threads, p.uses h = false) :
    Move s ⟨s.globals.cancelAll x, s.handles.set h x.drop, s.threads⟩
  | act {i h : Nat} {p p' : Thread} {x x' : Handle} {g : Globals} {c : Choice}
    (here : s.threads[i]? = some p) (target : p.target = some h) (found : s.handles[h]? = some x)
    (went : p.act s.globals x s.readers c = some (g, x', p')) :
    Move s ⟨g, s.handles.set h x', s.threads.set i p'⟩
  | globalAct {i : Nat} {p p' : Thread} {g : Globals} {c : Choice} (here : s.threads[i]? = some p)
    (aside : p.target = none) (went : p.globalAct s c = some (g, p')) :
    Move s ⟨g, s.handles, s.threads.set i p'⟩

namespace State

variable {s u : State}

theorem enter_cases {i : Nat} (went : s.enter i p' = some u) :
    ∃ p, s.threads[i]? = some p ∧ p.outside = true ∧
      u = { s with threads := s.threads.set i p' } := by
  unfold enter at went
  split at went
  · rename_i p here
    obtain ⟨outside, moved⟩ := Option.ite_none_right_eq_some.mp went
    exact ⟨p, here, outside, (Option.some.inj moved).symm⟩
  · contradiction

/-- A thread's step is one on its handle or one on none. -/
theorem thread_cases {i : Nat} (went : s.step (.thread i c) = some u) :
    ∃ p, s.threads[i]? = some p ∧
      ((∃ h x g x' p', p.target = some h ∧ s.handles[h]? = some x ∧
          p.act s.globals x s.readers c = some (g, x', p') ∧
          u = ⟨g, s.handles.set h x', s.threads.set i p'⟩) ∨
        ∃ g p', p.target = none ∧ p.globalAct s c = some (g, p') ∧
          u = ⟨g, s.handles, s.threads.set i p'⟩) := by
  obtain ⟨p, here, rest⟩ := Option.bind_eq_some_iff.mp went
  refine ⟨p, here, ?_⟩
  split at rest
  · rename_i h target
    obtain ⟨x, found, rest⟩ := Option.bind_eq_some_iff.mp rest
    obtain ⟨⟨g, x', p'⟩, moved, rfl⟩ := Option.map_eq_some_iff.mp rest
    exact .inl ⟨h, x, g, x', p', target, found, moved, rfl⟩
  · rename_i aside
    obtain ⟨⟨g, p'⟩, moved, rfl⟩ := Option.map_eq_some_iff.mp rest
    exact .inr ⟨g, p', aside, moved, rfl⟩

/-- Outside the threads' steps only a `Drop` touches the statics: it sets flags. -/
theorem outer_globals {a : Act} (went : s.step a = some u) (outer : ∀ i c, a ≠ .thread i c) :
    ∃ more, u.globals = { s.globals with cancelled := s.globals.cancelled ++ more } := by
  cases a with
  | thread i c => exact absurd rfl (outer i c)
  | spawn =>
    cases went
    exact ⟨[], by simp⟩
  | opens i cap =>
    obtain ⟨_, _, _, rfl⟩ := enter_cases went
    exact ⟨[], by simp⟩
  | call i h k =>
    simp only [step] at went
    split at went
    · obtain ⟨_, moved⟩ := Option.ite_none_right_eq_some.mp went
      obtain ⟨_, _, _, rfl⟩ := enter_cases moved
      exact ⟨[], by simp⟩
    · contradiction
  | shutdown i | rearm i =>
    obtain ⟨_, _, _, rfl⟩ := enter_cases went
    exact ⟨[], by simp⟩
  | work i h =>
    obtain ⟨_, moved⟩ := Option.ite_none_right_eq_some.mp went
    obtain ⟨_, _, _, rfl⟩ := enter_cases moved
    exact ⟨[], by simp⟩
  | drop h =>
    simp only [step] at went
    split at went
    · rename_i x _
      obtain ⟨_, moved⟩ := Option.ite_none_right_eq_some.mp went
      cases moved
      exact ⟨x.cancelFlags, rfl⟩
    · contradiction

theorem step_moves {a : Act} (went : s.step a = some u) : Move s u := by
  cases a with
  | spawn =>
    cases went
    exact .spawn
  | opens i cap =>
    obtain ⟨p, here, outside, rfl⟩ := enter_cases went
    exact .opens here outside
  | call i h k =>
    simp only [step] at went
    split at went
    · rename_i x found
      obtain ⟨fine, moved⟩ := Option.ite_none_right_eq_some.mp went
      obtain ⟨registered, live⟩ := (Bool.and_eq_true _ _).mp fine
      obtain ⟨p, here, outside, rfl⟩ := enter_cases moved
      exact .call k here outside found registered live
    · contradiction
  | shutdown i =>
    obtain ⟨p, here, outside, rfl⟩ := enter_cases went
    exact .begin here outside (.inl rfl)
  | rearm i =>
    obtain ⟨p, here, outside, rfl⟩ := enter_cases went
    exact .begin here outside (.inr rfl)
  | work i h =>
    obtain ⟨bound, moved⟩ := Option.ite_none_right_eq_some.mp went
    obtain ⟨p, here, outside, rfl⟩ := enter_cases moved
    exact .work here outside bound
  | drop h =>
    simp only [step] at went
    split at went
    · rename_i x found
      obtain ⟨fine, moved⟩ := Option.ite_none_right_eq_some.mp went
      cases moved
      obtain ⟨fine, unused⟩ := (Bool.and_eq_true _ _).mp fine
      obtain ⟨registered, live⟩ := (Bool.and_eq_true _ _).mp fine
      exact .drop found registered live fun p member => by
        simpa using List.all_eq_true.mp unused p member
    · contradiction
  | thread i c =>
    obtain ⟨p, here, ⟨h, x, g, x', p', target, found, moved, rfl⟩ | ⟨g, p', aside, moved, rfl⟩⟩ :=
      thread_cases went
    · exact .act here target found moved
    · exact .globalAct here aside moved

end State

-- The ticket a worker registers a buffer for.
def Request.ticket : Request → Option Nat
  | .adopt u => some u.ticket
  | .materialize t => some t
  | _ => none

namespace Thread

/-- The handle and the ticket of a unit whose flag is in the map: a submit that has put it there, or
a worker that has the unit. -/
def flagged : Thread → Option (Nat × Nat)
  | .sending h u | .unregistering h u _ | .popped h u | .dispatching h u | .answered h u _
  | .claiming h u _ | .caught h u _ | .finished h u _ => some (h, u.ticket)
  | .registering h r | .minting h r | .storing h r _ => r.ticket.map (h, ·)
  | .unwound h t _ | .delivering h t _ | .publishing h t _ | .faulted h t | .removing h t =>
    some (h, t)
  | _ => none

-- In a submit with its flag in the map.
def submits : Thread → Bool
  | .sending _ _ | .unregistering _ _ _ => true
  | _ => false

/-- The ticket a thread answers for: one it reserved and has not queued, or that of the unit it
runs. -/
def owned : Thread → Option Nat
  | .inserting _ u => some u.ticket
  | .refused _ t _ => t
  | p => p.flagged.map Prod.snd

end Thread

@[simp, grind =] theorem Request.done_flagged (h : Nat) (id : Except String Nat) (r : Request) :
    (r.done h id).flagged = r.ticket.map (h, ·) := by
  cases r <;> rfl

@[simp, grind =] theorem JobOutput.next_flagged (h : Nat) (live : Bool) (u : WorkUnit)
    (out : JobOutput) : (out.next h live u).flagged = some (h, u.ticket) := by
  cases out <;> simp only [JobOutput.next] <;> repeat' split
  all_goals rfl

@[simp, grind =] theorem materialize_flagged (h t : Nat) (r : JobResult) :
    (materialize h t r).flagged = some (h, t) := by
  cases r <;> simp only [materialize] <;> repeat' split
  all_goals rfl

theorem Request.done_cases (h : Nat) (id : Except String Nat) (r : Request) :
    r.done h id = .allocated h id ∨ (∃ u, r.done h id = .finished h u (registered id)) ∨
    ∃ t, r.done h id = .publishing h t (registered id) := by
  cases r <;> simp [Request.done]

theorem JobOutput.next_cases (h : Nat) (live : Bool) (u : WorkUnit) (out : JobOutput) :
    (∃ result, out.next h live u = .finished h u result) ∨
    (∃ id, out.next h live u = .claiming h u id ∧ live = true ∧ id ≠ 0 ∧ id ≠ u.input) ∨
    (out.next h live u = .registering h (.adopt u) ∧ live = true) := by
  cases out <;> grind -ring -linarith [JobOutput.next]

theorem materialize_cases (h t : Nat) (r : JobResult) :
    (∃ result, materialize h t r = .publishing h t result) ∨
    materialize h t r = .registering h (.materialize t) := by
  cases r <;> grind -ring -linarith [materialize]

/-- A claim changes the one slot. -/
theorem Handle.claimOutput_ok {id n : Nat} (fine : x.claimOutput id n = .ok x') :
    ∃ slot, x.buffers.lookup id = some slot ∧ slot.outputClaimed = false ∧
      slot.callerHeld = false ∧ n = 0 ∧
      x' = { x with buffers := x.buffers.insert id { slot with outputClaimed := true } } := by
  unfold claimOutput at fine
  split at fine
  · contradiction
  · rename_i slot found
    split at fine
    · contradiction
    · split at fine
      · contradiction
      · split at fine
        · contradiction
        · exact ⟨slot, found, by simp_all, by simp_all, by omega, (Except.ok.inj fine).symm⟩

theorem Thread.act_keys (went : p.act g x readers c = some (g', x', p')) (target : p.target = some h)
    (registered : ∀ t, p.flagged = some (h, t) → t ∈ x.cancelFlags) (t : Nat) :
    (x.live = true → x'.cancelFlags.count t + ((x.items.map WorkUnit.ticket).count t +
        if p.flagged = some (h, t) then 1 else 0) =
      x.cancelFlags.count t + ((x'.items.map WorkUnit.ticket).count t +
        if p'.flagged = some (h, t) then 1 else 0)) := by
  unfold Thread.act at went
  split at went <;> grind -ring -linarith
    [flagged, Thread.target, Handle.claimOutput_ok, Request.ticket]

end Gusset.Runtime
