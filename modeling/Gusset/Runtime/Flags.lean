import Gusset.Runtime.Moves

/-! The cancel flags of a handle are those of the units it has. -/
namespace Gusset.Runtime
open Foundation

variable {g g' : Globals} {x x' : Handle} {p p' : Thread} {c : Choice} {readers : Nat → Nat}
  {h t i : Nat} {s u : State}

/-- The handle a thread has a call or a unit of. -/
def Thread.calls : Thread → Option Nat
  | .enrolling _ | .waiting _ | .signalling _ | .counting _ _ => none
  | p => p.target

theorem Thread.flagged_calls (flagged : p.flagged = some (h, t)) : p.calls = some h := by
  cases p <;> grind -ring -linarith [Thread.flagged, calls, target, Option.map_eq_some_iff]

theorem Thread.calls_target (calls : p.calls = some h) : p.target = some h := by
  cases p <;> simp_all [Thread.calls]

theorem Thread.flagged_owned (flagged : p.flagged = some (h, t)) : p.owned = some t := by
  cases p <;> grind -ring -linarith [Thread.flagged, owned]

theorem Thread.outside_flagged (outside : p.outside = true) : p.flagged = none := by
  cases p <;> simp_all [Thread.outside, flagged]

@[grind =] theorem Request.done_calls (h : Nat) (id : Except String Nat) (r : Request) :
    (r.done h id).calls = r.ticket.map fun _ => h := by
  cases r <;> rfl

@[grind =] theorem Request.done_owned (h : Nat) (id : Except String Nat) (r : Request) :
    (r.done h id).owned = r.ticket := by
  cases r <;> rfl

@[grind =] theorem JobOutput.next_calls (h : Nat) (live : Bool) (u : WorkUnit) (out : JobOutput) :
    (out.next h live u).calls = some h :=
  Thread.flagged_calls (JobOutput.next_flagged h live u out)

@[grind =] theorem JobOutput.next_owned (h : Nat) (live : Bool) (u : WorkUnit) (out : JobOutput) :
    (out.next h live u).owned = some u.ticket :=
  Thread.flagged_owned (JobOutput.next_flagged h live u out)

@[grind =] theorem materialize_calls (h t : Nat) (r : JobResult) :
    (materialize h t r).calls = some h :=
  Thread.flagged_calls (materialize_flagged h t r)

@[grind =] theorem materialize_owned (h t : Nat) (r : JobResult) :
    (materialize h t r).owned = some t :=
  Thread.flagged_owned (materialize_flagged h t r)

/-- What no step on a handle undoes. -/
theorem Thread.act_kept (went : p.act g x readers c = some (g', x', p')) :
    x'.live = x.live ∧ (x.registered = true → x'.registered = true) ∧
    g.nextTicket ≤ g'.nextTicket ∧ g'.shuttingDown = g.shuttingDown ∧ g'.serial = g.serial ∧
    g'.signalled = g.signalled ∧ g'.drained = g.drained ∧ g.cancelled ⊆ g'.cancelled := by
  unfold Thread.act at went
  split at went <;>
    grind -ring -linarith [Handle.claimOutput_ok, Globals.cancelAll, Globals.mint, Globals.produce,
      List.subset_append_left, List.Subset.refl]

/-- A ticket stays with one owner, and only `reserve_id` gives out a new one. -/
theorem Thread.act_owned (went : p.act g x readers c = some (g', x', p')) (t : Nat) :
    (x'.items.map WorkUnit.ticket).count t + (if p'.owned = some t then 1 else 0) ≤
      (x.items.map WorkUnit.ticket).count t + (if p.owned = some t then 1 else 0) +
      if t = g.nextTicket ∧ g.nextTicket < g'.nextTicket then 1 else 0 := by
  unfold Thread.act at went
  split at went <;>
    grind -ring -linarith [flagged, owned, Handle.claimOutput_ok, Request.ticket, Globals.cancelAll, Globals.mint,
      Globals.produce]

theorem Thread.act_calls (went : p.act g x readers c = some (g', x', p')) (target : p.target = some h)
    {k : Nat} (calls : p'.calls = some k) : k = h ∧ (p.calls = some h ∨ x.items ≠ []) := by
  unfold Thread.act at went
  split at went <;>
    grind -ring -linarith [Thread.calls, Thread.target, Handle.claimOutput_ok, Request.ticket,
      Option.map_eq_some_iff]

/-- Nothing happens on a handle nobody calls but that it is registered. -/
theorem Thread.act_blank (went : p.act g x readers c = some (g', x', p')) (none : p.calls = none)
    (items : x.items = []) (flags : x.cancelFlags = []) : x'.items = [] ∧ x'.cancelFlags = [] := by
  unfold Thread.act at went
  split at went <;> grind -ring -linarith [Thread.calls, Thread.target]

namespace State

-- The units with this ticket that a queue has or a thread answers for.
def owners (s : State) (t : Nat) : Nat :=
  census (fun x => (x.items.map WorkUnit.ticket).count t) s.handles +
    census (fun p => if p.owned = some t then 1 else 0) s.threads

def carriers (s : State) (h t : Nat) : Nat :=
  census (fun p => if p.flagged = some (h, t) then 1 else 0) s.threads

/-- The cancel flags are those of the units queued, run or about to be queued, and every ticket is
of one of them. -/
structure Flags (s : State) : Prop where
  keys : ∀ (h : Nat) x, s.handles[h]? = some x → x.live = true → ∀ t,
    x.cancelFlags.count t = (x.items.map WorkUnit.ticket).count t + s.carriers h t
  once : ∀ t, s.owners t ≤ 1
  fresh : ∀ t, s.globals.nextTicket ≤ t → s.owners t = 0
  enrolled : ∀ p ∈ s.threads, ∀ h, p.calls = some h →
    ∃ x, s.handles[h]? = some x ∧ x.registered = true
  blank : ∀ (h : Nat) x, s.handles[h]? = some x → x.registered = false →
    x.items = [] ∧ x.cancelFlags = []

theorem Flags.new : Flags .new where
  keys h x found := by simp [State.new] at found
  once t := by simp [owners, State.new]
  fresh t _ := by simp [owners, State.new]
  enrolled := by simp [State.new]
  blank h x found := by simp [State.new] at found

theorem Flags.registered (f : Flags s) (here : s.threads[i]? = some p)
    (found : s.handles[h]? = some x)
    (live : x.live = true) (flagged : p.flagged = some (h, t)) : t ∈ x.cancelFlags := by
  have mine := le_census (fun p => if p.flagged = some (h, t) then 1 else 0) here
  have keys := f.keys h x found live t
  simp only [flagged, if_pos, carriers] at mine keys
  exact List.count_pos_iff.mp (by omega)

theorem Flags.act_keys (f : Flags s) (here : s.threads[i]? = some p) (target : p.target = some h)
    (found : s.handles[h]? = some x) (went : p.act s.globals x s.readers c = some (g, x', p'))
    {k : Nat} {y : Handle} (at_ : (s.handles.set h x')[k]? = some y) (live : y.live = true) (t : Nat) :
    y.cancelFlags.count t = (y.items.map WorkUnit.ticket).count t +
      carriers ⟨g, s.handles.set h x', s.threads.set i p'⟩ k t := by
  have moved := census_set (fun p => if p.flagged = some (k, t) then 1 else 0) here p'
  simp only [carriers]
  rcases getElem?_set_cases at_ with ⟨rfl, rfl⟩ | ⟨other, old⟩
  · have before : x.live = true := (Thread.act_kept went).1 ▸ live
    have keys := f.keys k x found before t
    have change := Thread.act_keys went target
      (fun t flagged => f.registered here found before flagged) t before
    simp only [carriers] at keys
    omega
  · have keys := f.keys k y old live t
    have mine : p.flagged ≠ some (k, t) := by
      intro flagged
      have calls := Thread.calls_target (Thread.flagged_calls flagged)
      rw [target] at calls
      exact other (Option.some.inj calls).symm
    have his : p'.flagged ≠ some (k, t) := by
      intro flagged
      exact other (Thread.act_calls went target (Thread.flagged_calls flagged)).1
    simp only [mine, his, if_false, carriers] at moved keys
    omega

theorem owners_act (here : s.threads[i]? = some p) (found : s.handles[h]? = some x) (g : Globals)
    (x' : Handle) (p' : Thread) (t : Nat) :
    owners ⟨g, s.handles.set h x', s.threads.set i p'⟩ t +
        ((x.items.map WorkUnit.ticket).count t + if p.owned = some t then 1 else 0) =
      s.owners t + ((x'.items.map WorkUnit.ticket).count t + if p'.owned = some t then 1 else 0) := by
  have threads := census_set (fun p => if p.owned = some t then 1 else 0) here p'
  have handles := census_set (fun x => (x.items.map WorkUnit.ticket).count t) found x'
  simp only [owners]
  omega

theorem Flags.act (f : Flags s) (here : s.threads[i]? = some p) (target : p.target = some h)
    (found : s.handles[h]? = some x) (went : p.act s.globals x s.readers c = some (g, x', p')) :
    Flags ⟨g, s.handles.set h x', s.threads.set i p'⟩ := by
  obtain ⟨_, enrols, tickets, _⟩ := Thread.act_kept went
  have owned := Thread.act_owned went
  have change := owners_act here found g x' p'
  have bound := (List.getElem?_eq_some_iff.mp found).1
  constructor
  · intro k y at_ live t
    exact f.act_keys here target found went at_ live t
  · intro t
    have one := f.once t
    have none := f.fresh t
    have more := owned t
    have moved := change t
    by_cases reserved : t = s.globals.nextTicket ∧ s.globals.nextTicket < g.nextTicket
    · rw [if_pos reserved] at more
      omega
    · rw [if_neg reserved] at more
      omega
  · intro t high
    simp only at high
    have none := f.fresh t (Nat.le_trans tickets high)
    have more := owned t
    have moved := change t
    have reserved : ¬ (t = s.globals.nextTicket ∧ s.globals.nextTicket < g.nextTicket) := by omega
    rw [if_neg reserved] at more
    omega
  · intro q member k calls
    have lifts : ∀ y, s.handles[k]? = some y → y.registered = true →
        ∃ y, (s.handles.set h x')[k]? = some y ∧ y.registered = true := by
      intro y at_ registered
      by_cases same : k = h
      · subst same
        rw [found] at at_
        cases at_
        exact ⟨x', List.getElem?_set_self bound, enrols registered⟩
      · exact ⟨y, (List.getElem?_set_ne (Ne.symm same)).trans at_, registered⟩
    rcases mem_set_cases member with rfl | ⟨j, _, old⟩
    · obtain ⟨rfl, before | busy⟩ := Thread.act_calls went target calls
      · obtain ⟨y, at_, registered⟩ := f.enrolled p (List.mem_of_getElem? here) k before
        exact lifts y at_ registered
      · apply lifts x found
        by_contra unregistered
        exact busy (f.blank k x found (by simpa using unregistered)).1
    · obtain ⟨y, at_, registered⟩ := f.enrolled q (List.mem_of_getElem? old) k calls
      exact lifts y at_ registered
  · intro k y at_ unregistered
    rcases getElem?_set_cases at_ with ⟨rfl, rfl⟩ | ⟨_, old⟩
    · have before : x.registered = false := by
        by_contra registered
        rw [enrols (by simpa using registered)] at unregistered
        cases unregistered
      have calls : p.calls = none := by
        by_contra some_
        obtain ⟨k', calls⟩ := Option.ne_none_iff_exists'.mp some_
        have same := Thread.calls_target calls
        rw [target] at same
        cases same
        obtain ⟨y, at_, registered⟩ := f.enrolled p (List.mem_of_getElem? here) k calls
        rw [found] at at_
        cases at_
        rw [before] at registered
        cases registered
      obtain ⟨items, flags⟩ := f.blank k x found before
      exact Thread.act_blank went calls items flags
    · exact f.blank k y old unregistered

/-- A step that moves one thread and no unit, on the handles as they are. -/
theorem Flags.retread (f : Flags s) (here : s.threads[i]? = some p)
    (next : g.nextTicket = s.globals.nextTicket)
    (flagged : p'.flagged = p.flagged) (owned : p'.owned = p.owned ∨ p'.owned = none)
    (calls : ∀ k, p'.calls = some k → ∃ x, s.handles[k]? = some x ∧ x.registered = true) :
    Flags ⟨g, s.handles, s.threads.set i p'⟩ := by
  have carriers : ∀ h t, State.carriers ⟨g, s.handles, s.threads.set i p'⟩ h t = s.carriers h t := by
    intro h t
    exact census_set_same _ here (by rw [flagged])
  have owners : ∀ t, State.owners ⟨g, s.handles, s.threads.set i p'⟩ t ≤ s.owners t := by
    intro t
    have moved := census_set (fun p => if p.owned = some t then 1 else 0) here p'
    simp only [State.owners]
    rcases owned with same | none
    · rw [same] at moved
      omega
    · simp only [none, reduceCtorEq, if_false] at moved
      omega
  constructor
  · intro h x found live t
    rw [carriers]
    exact f.keys h x found live t
  · intro t
    exact Nat.le_trans (owners t) (f.once t)
  · intro t high
    exact Nat.eq_zero_of_le_zero (f.fresh t (next ▸ high) ▸ owners t)
  · intro q member k called
    rcases mem_set_cases member with rfl | ⟨j, _, old⟩
    · exact calls k called
    · exact f.enrolled q (List.mem_of_getElem? old) k called
  · exact f.blank

theorem Flags.spawn (f : Flags s) : Flags { s with threads := s.threads ++ [.idle] } where
  keys h x found live t := by
    simpa [carriers, Thread.flagged] using f.keys h x found live t
  once := by simpa [owners, Thread.owned, Thread.flagged] using f.once
  fresh := by simpa [owners, Thread.owned, Thread.flagged] using f.fresh
  enrolled p member := by
    obtain old | new := List.mem_append.mp member
    · exact f.enrolled p old
    · rw [List.mem_singleton.mp new]
      intro h calls
      cases calls
  blank := f.blank

theorem grow_cases {cap : Nat} (found : (s.handles ++ [Handle.new cap])[h]? = some x) :
    s.handles[h]? = some x ∨ (x = .new cap ∧ s.handles.length ≤ h) := by
  by_cases below : h < s.handles.length
  · rw [List.getElem?_append_left below] at found
    exact .inl found
  · right
    grind -ring -linarith

/-- Nobody has a unit of a handle that does not exist. -/
theorem Flags.bounded (f : Flags s) (high : s.handles.length ≤ h) (member : p ∈ s.threads) :
    p.calls ≠ some h := by
  intro calls
  obtain ⟨x, found, _⟩ := f.enrolled p member h calls
  exact absurd (List.getElem?_eq_some_iff.mp found).1 (by omega)

theorem Flags.grow (f : Flags s) (cap : Nat) :
    Flags { s with handles := s.handles ++ [.new cap] } := by
  constructor
  · intro h x found live t
    rcases grow_cases found with old | ⟨rfl, high⟩
    · exact f.keys h x old live t
    · have none : census (fun p => if p.flagged = some (h, t) then 1 else 0) s.threads = 0 := by
        apply census_eq_zero
        intro p member
        apply if_neg
        intro flagged
        exact f.bounded high member (Thread.flagged_calls flagged)
      simp [carriers, none, Handle.new]
  · simpa [owners, Handle.new] using f.once
  · simpa [owners, Handle.new] using f.fresh
  · intro p member h calls
    obtain ⟨x, found, registered⟩ := f.enrolled p member h calls
    have bound := (List.getElem?_eq_some_iff.mp found).1
    exact ⟨x, (List.getElem?_append_left bound).trans found, registered⟩
  · intro h x found unregistered
    rcases grow_cases found with old | ⟨rfl, _⟩
    · exact f.blank h x old unregistered
    · exact ⟨rfl, rfl⟩

theorem Flags.drop (f : Flags s) (found : s.handles[h]? = some x) (registered : x.registered = true) :
    Flags ⟨s.globals.cancelAll x, s.handles.set h x.drop, s.threads⟩ := by
  have owners : ∀ t, State.owners ⟨s.globals.cancelAll x, s.handles.set h x.drop, s.threads⟩ t =
      s.owners t := by
    intro t
    have same := census_set_same (fun x => (x.items.map WorkUnit.ticket).count t)
      (b := x.drop) found rfl
    simp only [State.owners, same]
  constructor
  · intro k y at_ live t
    rcases getElem?_set_cases at_ with ⟨_, rfl⟩ | ⟨_, old⟩
    · cases live
    · exact f.keys k y old live t
  · intro t
    rw [owners]
    exact f.once t
  · intro t high
    rw [owners]
    exact f.fresh t high
  · intro p member k calls
    obtain ⟨y, at_, enrolled⟩ := f.enrolled p member k calls
    by_cases same : k = h
    · subst same
      have bound := (List.getElem?_eq_some_iff.mp found).1
      exact ⟨x.drop, List.getElem?_set_self bound, registered⟩
    · exact ⟨y, (List.getElem?_set_ne (Ne.symm same)).trans at_, enrolled⟩
  · intro k y at_ unregistered
    rcases getElem?_set_cases at_ with ⟨_, rfl⟩ | ⟨_, old⟩
    · exact absurd (registered.symm.trans unregistered) nofun
    · exact f.blank k y old unregistered

theorem Flags.globalAct (f : Flags s) (here : s.threads[i]? = some p)
    (went : p.globalAct s c = some (g, p')) : Flags ⟨g, s.handles, s.threads.set i p'⟩ := by
  apply f.retread here <;> unfold Thread.globalAct at went <;> split at went <;>
    grind -ring -linarith [Thread.flagged, Thread.owned, Thread.calls, Thread.target]

theorem Call.enter_place (k : Call) (h : Nat) :
    (k.enter h).flagged = none ∧ (k.enter h).owned = none ∧ (k.enter h).calls = some h := by
  cases k <;> exact ⟨rfl, rfl, rfl⟩

theorem Flags.move (f : Flags s) (move : Move s u) : Flags u := by
  cases move with
  | spawn => exact f.spawn
  | opens here outside =>
    rename_i i cap p
    apply (f.grow cap).retread (g := s.globals) here rfl
    · rw [Thread.outside_flagged outside]
      rfl
    · exact .inr rfl
    · exact nofun
  | call k here outside found registered live =>
    rename_i i h p x
    obtain ⟨flagged, owned, calls⟩ := Call.enter_place k h
    apply f.retread here rfl
    · rw [flagged, Thread.outside_flagged outside]
    · exact .inr owned
    · intro k' called
      rw [calls] at called
      cases called
      exact ⟨x, found, registered⟩
  | begin here outside which =>
    rcases which with rfl | rfl
    all_goals
      apply f.retread here rfl
      · rw [Thread.outside_flagged outside]
        rfl
      · exact .inr rfl
      · exact nofun
  | work here outside bound =>
    apply f.retread here rfl
    · rw [Thread.outside_flagged outside]
      rfl
    · exact .inr rfl
    · exact nofun
  | drop found registered live unused => exact f.drop found registered
  | act here target found went => exact f.act here target found went
  | globalAct here aside went => exact f.globalAct here went

end State

theorem reaches_flags (reach : Reaches s) : s.Flags :=
  reach.invariant (fun _ start => start ▸ .new)
    fun _ _ flags ⟨_, went⟩ => flags.move (State.step_moves went)

end Gusset.Runtime
