import Gusset.Runtime.Flags

/-! `begin_shutdown` and the drain: from the last cancellation on, no flag is left unset and no
engine starts. -/
namespace Gusset.Runtime
open Foundation

variable {g g' : Globals} {x x' : Handle} {p p' : Thread} {c : Choice} {readers : Nat → Nat}
  {h t i : Nat} {s u : State} {rest : List Nat}

/-- While the runtime is shutting down, a flag enters the map set. -/
theorem Thread.act_flags (went : p.act g x readers c = some (g', x', p'))
    (down : g.shuttingDown = true) (t : Nat) (member : t ∈ x'.cancelFlags) :
    t ∈ x.cancelFlags ∨ t ∈ g'.cancelled := by
  unfold Thread.act at went
  split at went <;>
    grind -ring -linarith [Handle.claimOutput_ok, Globals.cancelAll, Globals.mint, Globals.produce,
      List.mem_of_mem_erase]

theorem Thread.act_signals
    (went : (Thread.signalling (h :: rest)).act g x readers c = some (g', x', p')) :
    p' = .signalling rest ∧ x' = x ∧ g' = g.cancelAll x := by
  cases went
  exact ⟨rfl, rfl, rfl⟩

theorem Thread.act_dispatch {k : Nat} {w : WorkUnit}
    (went : p.act g x readers c = some (g', x', .dispatching k w)) :
    p = .popped k w ∧ w.ticket ∉ g.cancelled := by
  unfold Thread.act at went
  split at went <;>
    grind -ring -linarith [Request.done_cases, materialize_cases, JobOutput.next_cases]

namespace Thread

-- Behind `INIT_SHUTDOWN`.
def serial : Thread → Nat
  | .beginning | .enlisting | .signalling _ | .surveying | .counting _ _ => 1
  | _ => 0

/-- What a place in `shutdown` says about the statics. -/
def Knows (g : Globals) : Thread → Prop
  | .enlisting | .signalling _ => g.shuttingDown = true
  | .surveying | .counting _ _ => g.signalled = true
  | _ => True

theorem act_serial (went : p.act g x readers c = some (g', x', p')) : p'.serial = p.serial := by
  unfold Thread.act at went
  split at went <;>
    grind -ring -linarith [serial, Request.done_cases, materialize_cases, JobOutput.next_cases]

/-- On a handle, `shutdown` only goes on down its list. -/
theorem act_list (went : p.act g x readers c = some (g', x', p')) :
    (∀ rest, p' = .signalling rest → ∃ h, p = .signalling (h :: rest)) ∧
    (∀ rest, p' = .counting rest 0 → ∃ h, p = .counting (h :: rest) 0 ∧ x.cancelFlags = []) ∧
    (p.Knows g → p'.Knows g) := by
  unfold Thread.act at went
  split at went <;>
    grind -ring -linarith [Knows, Request.done_cases, materialize_cases, JobOutput.next_cases,
      List.length_eq_zero_iff]

end Thread

namespace State

/-- Every flag of every live handle is set, but of those handles. -/
def Settled (s : State) (rest : List Nat) : Prop :=
  ∀ (h : Nat) x, s.handles[h]? = some x → x.live = true → h ∉ rest →
    ∀ t ∈ x.cancelFlags, t ∈ s.globals.cancelled

/-- No engine runs on a live handle, but on those. -/
def Quiet (s : State) (rest : List Nat) : Prop :=
  ∀ (h : Nat) x, s.handles[h]? = some x → x.live = true → h ∉ rest →
    ∀ p ∈ s.threads, ∀ w, p ≠ .dispatching h w

structure Signals (s : State) : Prop where
  serial : census Thread.serial s.threads = s.globals.serial.toNat
  shut : s.globals.signalled = true → s.globals.shuttingDown = true
  after : s.globals.drained = true → s.globals.signalled = true
  knows : ∀ p ∈ s.threads, p.Knows s.globals
  settled : s.globals.signalled = true → s.Settled []
  signalling : ∀ rest, .signalling rest ∈ s.threads → s.Settled rest
  quiet : s.globals.drained = true → s.Quiet []
  counting : ∀ rest, .counting rest 0 ∈ s.threads → s.Quiet rest

theorem Settled.act (settled : s.Settled rest) (down : s.globals.shuttingDown = true)
    (found : s.handles[h]? = some x) (went : p.act s.globals x s.readers c = some (g, x', p')) :
    Settled ⟨g, s.handles.set h x', s.threads.set i p'⟩ rest := by
  obtain ⟨live, _, _, _, _, _, _, more⟩ := Thread.act_kept went
  intro k y at_ alive out t member
  rcases getElem?_set_cases at_ with ⟨rfl, rfl⟩ | ⟨_, old⟩
  · rcases Thread.act_flags went down t member with was | set_
    · exact more (settled k x found (live ▸ alive) out t was)
    · exact set_
  · exact more (settled k y old alive out t member)

theorem Quiet.act (quiet : s.Quiet rest) (f : Flags s) (settled : s.Settled [])
    (here : s.threads[i]? = some p) (target : p.target = some h) (found : s.handles[h]? = some x)
    (went : p.act s.globals x s.readers c = some (g, x', p')) :
    Quiet ⟨g, s.handles.set h x', s.threads.set i p'⟩ rest := by
  obtain ⟨live, _⟩ := Thread.act_kept went
  have unchanged : ∀ (k : Nat) y, (s.handles.set h x')[k]? = some y → y.live = true →
      ∃ z, s.handles[k]? = some z ∧ z.live = true := by
    intro k y at_ alive
    rcases getElem?_set_cases at_ with ⟨rfl, rfl⟩ | ⟨_, old⟩
    · exact ⟨x, found, live ▸ alive⟩
    · exact ⟨y, old, alive⟩
  intro k y at_ alive out q member w
  obtain ⟨z, there, lives⟩ := unchanged k y at_ alive
  rcases mem_set_cases member with rfl | ⟨j, _, old⟩
  · rintro rfl
    obtain ⟨rfl, unset⟩ := Thread.act_dispatch went
    have flag := f.registered here there lives (t := w.ticket) rfl
    exact unset (settled k z there lives List.not_mem_nil _ flag)
  · exact quiet k z there lives out q (List.mem_of_getElem? old) w

/-- Where no flag is registered, no engine runs. -/
theorem Flags.idle (f : Flags s) (found : s.handles[h]? = some x) (live : x.live = true)
    (none : x.cancelFlags = []) {q : Thread} (member : q ∈ s.threads) (w : WorkUnit) :
    q ≠ .dispatching h w := by
  rintro rfl
  obtain ⟨j, there⟩ := List.mem_iff_getElem?.mp member
  have flag := f.registered there found live (t := w.ticket) rfl
  rw [none] at flag
  cases flag

theorem Signals.act (f : Flags s) (n : Signals s) (here : s.threads[i]? = some p)
    (target : p.target = some h) (found : s.handles[h]? = some x)
    (went : p.act s.globals x s.readers c = some (g, x', p')) :
    Signals ⟨g, s.handles.set h x', s.threads.set i p'⟩ := by
  obtain ⟨live, _, _, down, serial, signalled, drained, more⟩ := Thread.act_kept went
  obtain ⟨signals, counts, knows⟩ := Thread.act_list went
  constructor
  · have same := census_set_same Thread.serial here (Thread.act_serial went)
    simp only [same, serial]
    exact n.serial
  · simp only [signalled, down]
    exact n.shut
  · simp only [signalled, drained]
    exact n.after
  · intro q member
    have same : q.Knows g ↔ q.Knows s.globals := by
      cases q <;> simp [Thread.Knows, down, signalled]
    rw [same]
    rcases mem_set_cases member with rfl | ⟨j, _, old⟩
    · exact knows (n.knows p (List.mem_of_getElem? here))
    · exact n.knows q (List.mem_of_getElem? old)
  · intro yes
    simp only [signalled] at yes
    exact (n.settled yes).act (n.shut yes) found went
  · intro rest member
    rcases mem_set_cases member with same | ⟨j, _, old⟩
    · obtain ⟨k, rfl⟩ := signals rest same.symm
      cases target
      have down := n.knows _ (List.mem_of_getElem? here)
      have before := (n.signalling _ (List.mem_of_getElem? here)).act (i := i) down found went
      obtain ⟨_, rfl, rfl⟩ := Thread.act_signals went
      intro k y at_ alive out t flag
      by_cases head : k = h
      · subst head
        rcases getElem?_set_cases at_ with ⟨_, rfl⟩ | ⟨differ, _⟩
        · exact List.mem_append_right _ flag
        · exact absurd rfl differ
      · exact before k y at_ alive (by simp [head, out]) t flag
    · have down := n.knows _ (List.mem_of_getElem? old)
      exact (n.signalling rest (List.mem_of_getElem? old)).act down found went
  · intro yes
    simp only [drained] at yes
    exact (n.quiet yes).act f (n.settled (n.after yes)) here target found went
  · intro rest member
    rcases mem_set_cases member with same | ⟨j, _, old⟩
    · obtain ⟨k, rfl, empty⟩ := counts rest same.symm
      cases target
      have signalled := n.knows _ (List.mem_of_getElem? here)
      have before := (n.counting _ (List.mem_of_getElem? here)).act f (n.settled signalled) here rfl
        found went
      intro k y at_ alive out q found' w
      by_cases head : k = h
      · subst head
        rcases mem_set_cases found' with rfl | ⟨j, _, old⟩
        · rw [← same]
          exact nofun
        · rcases getElem?_set_cases at_ with ⟨_, rfl⟩ | ⟨differ, _⟩
          · exact f.idle found (live ▸ alive) empty (List.mem_of_getElem? old) w
          · exact absurd rfl differ
      · exact before k y at_ alive (by simp [head, out]) q found' w
    · have signalled := n.knows _ (List.mem_of_getElem? old)
      exact (n.counting rest (List.mem_of_getElem? old)).act f (n.settled signalled) here target
        found went

theorem mem_enlisted (found : s.handles[h]? = some x) :
    h ∈ s.enlisted ↔ x.registered = true ∧ x.live = true := by
  obtain ⟨bound, stands⟩ := List.getElem?_eq_some_iff.mp found
  simp [enlisted, stands, bound]

/-- A step of one thread that starts no engine and changes no handle. -/
theorem Quiet.retread (quiet : s.Quiet rest) (none : ∀ k w, p' ≠ .dispatching k w) :
    Quiet ⟨g, s.handles, s.threads.set i p'⟩ rest := by
  intro k y at_ alive out q member w
  rcases mem_set_cases member with rfl | ⟨j, _, old⟩
  · exact none k w
  · exact quiet k y at_ alive out q (List.mem_of_getElem? old) w

/-- A handle outside the registry has no flag and no engine. -/
theorem Flags.settled_enlisted (f : Flags s) : s.Settled s.enlisted := by
  intro h x found live out t member
  rw [mem_enlisted found] at out
  have unregistered : x.registered = false := by
    by_contra registered
    exact out ⟨by simpa using registered, live⟩
  rw [(f.blank h x found unregistered).2] at member
  cases member

theorem Flags.quiet_enlisted (f : Flags s) : s.Quiet s.enlisted := by
  intro h x found live out q member w
  rw [mem_enlisted found] at out
  have unregistered : x.registered = false := by
    by_contra registered
    exact out ⟨by simpa using registered, live⟩
  exact f.idle found live (f.blank h x found unregistered).2 member w

theorem Signals.locked (n : Signals s) (here : s.threads[i]? = some p) (holds : p.serial = 1) :
    s.globals.serial = true := by
  have counted := le_census Thread.serial here
  have whole := n.serial
  cases free : s.globals.serial with
  | true => rfl
  | false =>
    rw [free, Bool.toNat_false] at whole
    omega

theorem Signals.update (n : Signals s) (here : s.threads[i]? = some p)
    (cancelled : g.cancelled = s.globals.cancelled)
    (serial : p'.serial + s.globals.serial.toNat = p.serial + g.serial.toNat)
    (shut : g.signalled = true → g.shuttingDown = true)
    (after : g.drained = true → g.signalled = true)
    (knows : p'.Knows g) (others : ∀ q ∈ s.threads, q.Knows g)
    (settled : g.signalled = true → s.Settled [])
    (signalling : ∀ rest, p' = .signalling rest → s.Settled rest)
    (quiet : g.drained = true → s.Quiet [])
    (counting : ∀ rest, p' = .counting rest 0 → s.Quiet rest)
    (none : ∀ k w, p' ≠ .dispatching k w) : Signals ⟨g, s.handles, s.threads.set i p'⟩ := by
  have keep : ∀ rest, s.Settled rest → Settled ⟨g, s.handles, s.threads.set i p'⟩ rest := by
    intro rest all h x found live out t member
    simp only [cancelled]
    exact all h x found live out t member
  constructor
  · have moved := census_set Thread.serial here p'
    have count := n.serial
    simp only
    omega
  · exact shut
  · exact after
  · intro q member
    rcases mem_set_cases member with rfl | ⟨j, _, old⟩
    · exact knows
    · exact others q (List.mem_of_getElem? old)
  · exact fun yes => keep [] (settled yes)
  · intro rest member
    rcases mem_set_cases member with same | ⟨j, _, old⟩
    · exact keep rest (signalling rest same.symm)
    · exact keep rest (n.signalling rest (List.mem_of_getElem? old))
  · exact fun yes => (quiet yes).retread none
  · intro rest member
    rcases mem_set_cases member with same | ⟨j, _, old⟩
    · exact (counting rest same.symm).retread none
    · exact (n.counting rest (List.mem_of_getElem? old)).retread none

theorem knows_mono {q : Thread} (knows : q.Knows g)
    (down : g.shuttingDown = true → g'.shuttingDown = true)
    (signalled : g.signalled = true → g'.signalled = true) : q.Knows g' := by
  cases q <;> simp_all [Thread.Knows]

/-- Nobody is in `shutdown` while its lock is free. -/
theorem Signals.free (n : Signals s) (free : s.globals.serial = false) {q : Thread}
    (member : q ∈ s.threads) (g : Globals) : q.Knows g := by
  have none := n.serial
  have counted := le_census_of_mem Thread.serial member
  rw [free, Bool.toNat_false] at none
  cases q <;> simp_all [Thread.Knows, Thread.serial]

theorem Signals.globalAct (f : Flags s) (n : Signals s) (here : s.threads[i]? = some p)
    (went : p.globalAct s c = some (g, p')) : Signals ⟨g, s.handles, s.threads.set i p'⟩ := by
  have knows := n.knows p (List.mem_of_getElem? here)
  have member := List.mem_of_getElem? here
  unfold Thread.globalAct at went
  split at went
  · split at went
    · contradiction
    · rename_i free
      cases went
      exact n.update here rfl (by simp [Thread.serial, free]) n.shut n.after trivial n.knows
        n.settled nofun n.quiet nofun nofun
  · cases went
    refine n.update here rfl rfl (fun _ => rfl) n.after rfl ?_ n.settled nofun n.quiet nofun nofun
    exact fun q at_ => knows_mono (n.knows q at_) (fun _ => rfl) id
  · cases went
    refine n.update here rfl rfl n.shut n.after knows n.knows n.settled ?_ n.quiet nofun nofun
    rintro rest same
    cases same
    exact f.settled_enlisted
  · cases went
    refine n.update here rfl rfl (fun _ => knows) (fun _ => rfl) rfl ?_
      (fun _ => n.signalling [] member) nofun n.quiet nofun nofun
    exact fun q at_ => knows_mono (n.knows q at_) id (fun _ => rfl)
  · cases went
    refine n.update here rfl rfl n.shut n.after knows n.knows n.settled nofun n.quiet ?_ nofun
    rintro rest same
    cases same
    exact f.quiet_enlisted
  · cases went
    exact n.update here rfl (by simp [Thread.serial, n.locked here rfl]) n.shut (fun _ => knows)
      trivial n.knows n.settled nofun (fun _ => n.counting [] member) nofun nofun
  · split at went
    · cases went
      exact n.update here rfl (by simp [Thread.serial, n.locked here rfl]) n.shut n.after trivial
        n.knows n.settled nofun n.quiet nofun nofun
    · cases went
      exact n.update here rfl rfl n.shut n.after knows n.knows n.settled nofun n.quiet nofun nofun
  · split at went
    · contradiction
    · rename_i free
      cases went
      exact n.update here rfl (by simp [Thread.serial]) nofun nofun trivial
        (fun q at_ => n.free (by simpa using free) at_ _) nofun nofun nofun nofun nofun
  · contradiction

theorem Signals.grow (f : Flags s) (n : Signals s) (cap : Nat) :
    Signals { s with handles := s.handles ++ [.new cap] } := by
  have settled : ∀ rest, s.Settled rest →
      Settled { s with handles := s.handles ++ [.new cap] } rest := by
    intro rest all h x found live out t member
    rcases grow_cases found with old | ⟨rfl, _⟩
    · exact all h x old live out t member
    · cases member
  have quiet : ∀ rest, s.Quiet rest → Quiet { s with handles := s.handles ++ [.new cap] } rest := by
    intro rest all h x found live out q member w
    rcases grow_cases found with old | ⟨_, high⟩
    · exact all h x old live out q member w
    · rintro rfl
      exact f.bounded high member rfl
  exact ⟨n.serial, n.shut, n.after, n.knows, fun yes => settled [] (n.settled yes),
    fun rest at_ => settled rest (n.signalling rest at_), fun yes => quiet [] (n.quiet yes),
    fun rest at_ => quiet rest (n.counting rest at_)⟩

theorem Signals.drop (n : Signals s) (h : Nat) (x : Handle) :
    Signals ⟨s.globals.cancelAll x, s.handles.set h x.drop, s.threads⟩ := by
  have settled : ∀ rest, s.Settled rest →
      Settled ⟨s.globals.cancelAll x, s.handles.set h x.drop, s.threads⟩ rest := by
    intro rest all k y at_ live out t member
    rcases getElem?_set_cases at_ with ⟨_, rfl⟩ | ⟨_, old⟩
    · cases live
    · exact List.mem_append_left _ (all k y old live out t member)
  have quiet : ∀ rest, s.Quiet rest →
      Quiet ⟨s.globals.cancelAll x, s.handles.set h x.drop, s.threads⟩ rest := by
    intro rest all k y at_ live out q member w
    rcases getElem?_set_cases at_ with ⟨_, rfl⟩ | ⟨_, old⟩
    · cases live
    · exact all k y old live out q member w
  exact ⟨n.serial, n.shut, n.after, fun q at_ => knows_mono (n.knows q at_) id id,
    fun yes => settled [] (n.settled yes),
    fun rest at_ => settled rest (n.signalling rest at_), fun yes => quiet [] (n.quiet yes),
    fun rest at_ => quiet rest (n.counting rest at_)⟩

theorem Signals.spawn (n : Signals s) : Signals { s with threads := s.threads ++ [.idle] } := by
  have quiet : ∀ rest, s.Quiet rest → Quiet { s with threads := s.threads ++ [.idle] } rest := by
    intro rest all h x found live out q member w
    obtain old | new := List.mem_append.mp member
    · exact all h x found live out q old w
    · rw [List.mem_singleton.mp new]
      exact nofun
  constructor
  · simpa [Thread.serial] using n.serial
  · exact n.shut
  · exact n.after
  · intro q member
    obtain old | new := List.mem_append.mp member
    · exact n.knows q old
    · rw [List.mem_singleton.mp new]
      trivial
  · exact n.settled
  · intro rest member
    exact n.signalling rest (by simpa using member)
  · exact fun yes => quiet [] (n.quiet yes)
  · intro rest member
    exact quiet rest (n.counting rest (by simpa using member))

/-- A thread outside `shutdown` that begins a call, and no engine with it. -/
theorem Signals.enter (n : Signals s) (here : s.threads[i]? = some p) (outside : p.outside = true)
    (serial : p'.serial = 0) (none : ∀ k w, p' ≠ .dispatching k w) :
    Signals { s with threads := s.threads.set i p' } := by
  have before : p.serial = 0 := by
    cases p <;> simp_all [Thread.outside, Thread.serial]
  apply n.update here rfl (by omega) n.shut n.after ?_ n.knows n.settled ?_ n.quiet ?_ none
  · cases p' <;> simp_all [Thread.serial, Thread.Knows]
  · rintro rest rfl
    cases serial
  · rintro rest rfl
    cases serial

theorem Signals.move (f : Flags s) (n : Signals s) (move : Move s u) : Signals u := by
  cases move with
  | spawn => exact n.spawn
  | opens here outside => exact (n.grow f _).enter here outside rfl nofun
  | call k here outside found registered live =>
    apply n.enter here outside
    · cases k <;> rfl
    · cases k <;> exact nofun
  | begin here outside which =>
    rcases which with rfl | rfl
    · exact n.enter here outside rfl nofun
    · exact n.enter here outside rfl nofun
  | work here outside bound => exact n.enter here outside rfl nofun
  | drop found registered live unused => exact n.drop _ _
  | act here target found went => exact n.act f here target found went
  | globalAct here aside went => exact n.globalAct f here went

theorem Signals.new : Signals .new where
  serial := rfl
  shut := nofun
  after := nofun
  knows := by simp [State.new]
  settled := nofun
  signalling := by simp [State.new]
  quiet := nofun
  counting := by simp [State.new]

end State

theorem reaches_signals (reach : Reaches s) : s.Signals :=
  reach.induction (fun _ start => start ▸ .new)
    fun _ _ before signals ⟨_, went⟩ => signals.move (reaches_flags before) (State.step_moves went)

end Gusset.Runtime
