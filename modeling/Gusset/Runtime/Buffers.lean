import Gusset.Runtime.Cancel

/-! The buffer registries of all handles: every id has one place, and a buffer becomes the result of
at most one unit. -/
namespace Gusset.Runtime
open Foundation

variable {g g' : Globals} {x x' : Handle} {p p' : Thread} {c : Choice} {readers : Nat → Nat}
  {h t i id : Nat} {s u : State}

namespace Thread

-- The id a thread is about to put into a registry.
def stores : Thread → Option Nat
  | .storing _ _ id => some id
  | _ => none

/-- The result a worker has. -/
def result : Thread → Option JobResult
  | .finished _ _ r | .delivering _ _ r | .publishing _ _ r => some r
  | _ => none

end Thread

-- 1 if the registry has the buffer.
def Handle.has (x : Handle) (id : Nat) : Nat := if x.buffers.lookup id = none then 0 else 1

-- The results published that name the buffer.
def Handle.published (x : Handle) (id : Nat) : Nat :=
  x.completions.countP fun c => c.2 = .buffer id

@[grind =] theorem Request.done_input (h : Nat) (id : Except String Nat) (r : Request) :
    (r.done h id).input = r.input := by
  cases r <;> rfl

@[grind =] theorem JobOutput.next_input (h : Nat) (live : Bool) (u : WorkUnit) (out : JobOutput) :
    (out.next h live u).input = some u.input := by
  rcases JobOutput.next_cases h live u out with ⟨_, next⟩ | ⟨_, next, _⟩ | ⟨next, _⟩
  all_goals
    rw [next]
    rfl

@[grind =] theorem materialize_input (h t : Nat) (r : JobResult) :
    (materialize h t r).input = none := by
  rcases materialize_cases h t r with ⟨_, next⟩ | next
  all_goals
    rw [next]
    rfl

@[grind =] theorem Request.done_result (h : Nat) (id : Except String Nat) (r : Request) :
    (r.done h id).result = if r.produces then some (registered id) else none := by
  cases r <;> rfl

/-- An engine's output is no `JobResult::Buffer` before its claim. -/
@[grind .] theorem JobOutput.next_result (h : Nat) (live : Bool) (u : WorkUnit) (out : JobOutput)
    (id : Nat) : (out.next h live u).result ≠ some (.buffer id) := by
  cases out <;> grind -ring -linarith [JobOutput.next, Thread.result]

@[grind =] theorem materialize_result (h t : Nat) (r : JobResult) (id : Nat) :
    (materialize h t r).result = some (.buffer id) ↔ r = .buffer id := by
  cases r <;> grind -ring -linarith [materialize, Thread.result]

namespace Thread

/-- Only `reserve_id` brings a new id, and a buffer leaves its place for one other. -/
theorem act_homes (went : p.act g x readers c = some (g', x', p')) (id : Nat) :
    x'.has id + (if p'.stores = some id then 1 else 0) + g'.freed.count id ≤
      x.has id + (if p.stores = some id then 1 else 0) + g.freed.count id +
      if id = g.nextBuffer ∧ g.nextBuffer < g'.nextBuffer then 1 else 0 := by
  unfold Thread.act at went
  split at went <;>
    grind -ring -linarith [stores, Handle.has, Handle.claimOutput_ok, Globals.cancelAll, Globals.mint,
      Globals.produce, Request.done_cases, materialize_cases, JobOutput.next_cases,
      GoMap.lookup_insert, GoMap.lookup_erase]

/-- The slot of a buffer changes by a claim, or is new. -/
theorem act_slots (went : p.act g x readers c = some (g', x', p')) (target : p.target = some h)
    {slot : BufferSlot} (found : x'.buffers.lookup id = some slot) :
    (∃ old, x.buffers.lookup id = some old ∧ slot.callerHeld = old.callerHeld ∧
      (old.outputClaimed = true → slot.outputClaimed = true)) ∨
    ∃ r, p = .storing h r id ∧ slot = r.slot := by
  unfold Thread.act at went
  split at went <;>
    grind -ring -linarith [Thread.target, Handle.claimOutput_ok, GoMap.lookup_insert,
      GoMap.lookup_erase]

theorem act_mints (went : p.act g x readers c = some (g', x', p')) (target : p.target = some h) :
    (g'.mints = g.mints ∧ g'.nextBuffer = g.nextBuffer ∧ p'.stores = none) ∨
    ∃ r, g'.mints = g.mints ++ [(h, r.published)] ∧ g'.nextBuffer = g.nextBuffer + 1 ∧
      p.stores = none ∧ (p' = .storing h r g.nextBuffer ∨ p'.stores = none) := by
  unfold Thread.act at went
  split at went <;>
    grind -ring -linarith [stores, Thread.target, Handle.claimOutput_ok, Globals.cancelAll, Globals.mint,
      Globals.produce, Request.done_cases, materialize_cases, JobOutput.next_cases]

/-- A submit takes an `Arc` out of the registry; otherwise they only move along. -/
theorem act_inputs (went : p.act g x readers c = some (g', x', p')) (positive : id ≠ 0) :
    (x'.items.countP fun u => u.input = id) + (if p'.input = some id then 1 else 0) ≤
      (x.items.countP fun u => u.input = id) + (if p.input = some id then 1 else 0) +
      x.has id := by
  unfold Thread.act at went
  split at went <;>
    grind -ring -linarith [Thread.input, Request.input, Handle.has, Handle.claimOutput_ok]

/-- A result that names a buffer is made once and moved along. -/
theorem act_results (went : p.act g x readers c = some (g', x', p')) (id : Nat) :
    x'.published id + (if p'.result = some (.buffer id) then 1 else 0) + g.produced.count id ≤
      x.published id + (if p.result = some (.buffer id) then 1 else 0) + g'.produced.count id := by
  unfold Thread.act at went
  split at went <;>
    grind -ring -linarith [result, Handle.published, Handle.claimOutput_ok, Globals.cancelAll, Globals.mint,
      Globals.produce, registered]

theorem act_produced (went : p.act g x readers c = some (g', x', p')) (target : p.target = some h) :
    g'.produced = g.produced ∨ ∃ id, g'.produced = g.produced ++ [id] ∧
      ((∃ u slot, p = .claiming h u id ∧ x.buffers.lookup id = some slot ∧
          slot.outputClaimed = false ∧ slot.callerHeld = false ∧ readers id = 0) ∨
        ∃ r, p = .storing h r id ∧ r.produces = true) := by
  unfold Thread.act at went
  split at went <;>
    grind -ring -linarith [Thread.target, Handle.claimOutput_ok, Globals.cancelAll, Globals.mint,
      Globals.produce]

end Thread

namespace State

/-- The places of a buffer: a registry, a thread that is about to store it, or freed. -/
def homes (s : State) (id : Nat) : Nat :=
  census (fun x => x.has id) s.handles +
    census (fun p => if p.stores = some id then 1 else 0) s.threads + s.globals.freed.count id

-- The results that name the buffer, in a worker's hands or published.
def results (s : State) (id : Nat) : Nat :=
  census (fun x => x.published id) s.handles +
    census (fun p => if p.result = some (.buffer id) then 1 else 0) s.threads

/-- The id was reserved and nobody is about to store it. -/
def Past (s : State) (id : Nat) : Prop :=
  id < s.globals.nextBuffer ∧ ∀ p ∈ s.threads, p.stores ≠ some id

/-- What the registries, the workers and the threads in `register` know of the buffers. -/
structure Buffers (s : State) : Prop where
  next : s.globals.nextBuffer = s.globals.mints.length + 1
  once : ∀ id, s.homes id ≤ 1
  fresh : ∀ id, s.globals.nextBuffer ≤ id → s.homes id = 0
  slots : ∀ (h : Nat) x id slot, s.handles[h]? = some x → x.buffers.lookup id = some slot →
    0 < id ∧ s.globals.mints[id - 1]? = some (h, slot.callerHeld)
  storing : ∀ h r id, .storing h r id ∈ s.threads →
    0 < id ∧ s.globals.mints[id - 1]? = some (h, r.published)
  read : ∀ id, id ≠ 0 → 0 < s.readers id → s.Past id
  past : ∀ id ∈ s.globals.produced, s.Past id
  claimed : ∀ id ∈ s.globals.produced, ∀ (h : Nat) x slot, s.handles[h]? = some x →
    x.buffers.lookup id = some slot → slot.outputClaimed = true
  nodup : s.globals.produced.Nodup
  made : ∀ id, s.results id ≤ s.globals.produced.count id

theorem has_pos {slot : BufferSlot} (found : x.buffers.lookup id = some slot) : x.has id = 1 := by
  simp [Handle.has, found]

/-- A buffer in a registry is in no other place. -/
theorem alone (once : s.homes id ≤ 1) (fresh : s.globals.nextBuffer ≤ id → s.homes id = 0)
    (found : s.handles[h]? = some x) (has : 0 < x.has id) :
    s.Past id ∧ id ∉ s.globals.freed ∧ ∀ (k : Nat) y, s.handles[k]? = some y → 0 < y.has id → k = h := by
  have mine := le_census (fun x : Handle => x.has id) found
  unfold homes at once fresh
  refine ⟨⟨?_, ?_⟩, ?_, ?_⟩
  · by_contra high
    have none := fresh (Nat.le_of_not_lt high)
    omega
  · intro p member stores
    have counted := le_census_of_mem (fun p : Thread => if p.stores = some id then 1 else 0) member
    simp only [stores, if_pos] at counted
    omega
  · intro freed
    have counted := List.count_pos_iff.mpr freed
    omega
  · intro k y there too
    exact index_unique (fun x : Handle => x.has id) (by omega) there found too has

theorem Buffers.alone (b : Buffers s) (found : s.handles[h]? = some x) (has : 0 < x.has id) :
    s.Past id ∧ id ∉ s.globals.freed :=
  have ⟨past, kept, _⟩ := State.alone (b.once id) (b.fresh id) found has
  ⟨past, kept⟩

theorem Buffers.stored (b : Buffers s) (here : s.threads[i]? = some p) (stores : p.stores = some id) :
    id < s.globals.nextBuffer ∧ id ∉ s.globals.freed ∧
    ∀ (h : Nat) x, s.handles[h]? = some x → x.has id = 0 := by
  have one := b.once id
  have mine := le_census (fun p : Thread => if p.stores = some id then 1 else 0) here
  simp only [stores, if_pos] at mine
  unfold homes at one
  refine ⟨?_, ?_, ?_⟩
  · by_contra high
    have none := b.fresh id (Nat.le_of_not_lt high)
    unfold homes at none
    omega
  · intro freed
    have counted := List.count_pos_iff.mpr freed
    omega
  · intro h x found
    have counted := le_census (fun x : Handle => x.has id) found
    omega

theorem Past.act (past : s.Past id) (target : p.target = some h)
    (went : p.act s.globals x s.readers c = some (g, x', p')) :
    Past ⟨g, s.handles.set h x', s.threads.set i p'⟩ id := by
  obtain ⟨below, none⟩ := past
  have bound := Thread.act_mints went target
  refine ⟨?_, ?_⟩
  · simp only
    rcases bound with ⟨_, same, _⟩ | ⟨_, _, more, _⟩ <;> omega
  · intro q member stores
    rcases mem_set_cases member with rfl | ⟨j, _, old⟩
    · rcases bound with ⟨_, _, nothing⟩ | ⟨r, _, _, _, rfl | nothing⟩
      · rw [nothing] at stores
        cases stores
      · cases stores
        omega
      · rw [nothing] at stores
        cases stores
    · exact none q (List.mem_of_getElem? old) stores

theorem homes_act (here : s.threads[i]? = some p) (found : s.handles[h]? = some x)
    (went : p.act s.globals x s.readers c = some (g, x', p')) (id : Nat) :
    homes ⟨g, s.handles.set h x', s.threads.set i p'⟩ id ≤ s.homes id +
      if id = s.globals.nextBuffer ∧ s.globals.nextBuffer < g.nextBuffer then 1 else 0 := by
  have threads := census_set (fun p : Thread => if p.stores = some id then 1 else 0) here p'
  have handles := census_set (fun x : Handle => x.has id) found x'
  have moved := Thread.act_homes went id
  simp only [homes]
  omega

theorem readers_act (here : s.threads[i]? = some p) (found : s.handles[h]? = some x)
    (went : p.act s.globals x s.readers c = some (g, x', p')) (positive : id ≠ 0) :
    State.readers ⟨g, s.handles.set h x', s.threads.set i p'⟩ id ≤ s.readers id + x.has id := by
  have threads := census_set (fun p : Thread => if p.input = some id then 1 else 0) here p'
  have handles := census_set (fun x : Handle => x.items.countP fun u => u.input = id) found x'
  have moved := Thread.act_inputs went positive
  simp only [State.readers]
  omega

theorem results_act (here : s.threads[i]? = some p) (found : s.handles[h]? = some x)
    (went : p.act s.globals x s.readers c = some (g, x', p')) (id : Nat) :
    results ⟨g, s.handles.set h x', s.threads.set i p'⟩ id + s.globals.produced.count id ≤
      s.results id + g.produced.count id := by
  have threads := census_set (fun p : Thread => if p.result = some (.buffer id) then 1 else 0) here p'
  have handles := census_set (fun x : Handle => x.published id) found x'
  have moved := Thread.act_results went id
  simp only [results]
  omega

/-- A step produces nothing, or a buffer that its handle minted and nobody else has. -/
theorem Buffers.produces (b : Buffers s) (here : s.threads[i]? = some p) (target : p.target = some h)
    (found : s.handles[h]? = some x) (went : p.act s.globals x s.readers c = some (g, x', p')) :
    g.produced = s.globals.produced ∨ ∃ id, g.produced = s.globals.produced ++ [id] ∧
      id ∉ s.globals.produced ∧ id ∉ s.globals.freed ∧ 0 < id ∧
      s.globals.mints[id - 1]? = some (h, false) ∧ s.readers id = 0 ∧
      (x'.buffers.lookup id).map BufferSlot.outputClaimed = some true ∧
      ((∃ w, p = .claiming h w id) ∨ p.stores = some id) := by
  rcases Thread.act_produced went target with same | ⟨id, more, which⟩
  · exact .inl same
  right
  refine ⟨id, more, ?_⟩
  rcases which with ⟨w, slot, rfl, there, unclaimed, held, unread⟩ | ⟨r, rfl, produces⟩
  · obtain ⟨positive, mint⟩ := b.slots h x id slot found there
    obtain ⟨_, kept⟩ := b.alone found (show 0 < x.has id by rw [has_pos there]; exact Nat.one_pos)
    refine ⟨?_, kept, positive, held ▸ mint, unread, ?_, .inl ⟨w, rfl⟩⟩
    · intro before
      rw [b.claimed id before h x slot found there] at unclaimed
      cases unclaimed
    · simp only [Thread.act] at went
      split at went
      · rename_i y claimed
        obtain ⟨slot, _, _, _, _, rfl⟩ := Handle.claimOutput_ok claimed
        cases went
        simp
      · cases went
        simp at more
  · obtain ⟨positive, mint⟩ := b.storing h r id (List.mem_of_getElem? here)
    obtain ⟨_, kept, _⟩ := b.stored here rfl
    have slot : r.slot = ⟨true, false⟩ := by
      cases r <;> first | rfl | cases produces
    have unpublished : r.published = false := by rw [← r.slot_callerHeld, slot]
    rw [unpublished] at mint
    refine ⟨?_, kept, positive, mint, ?_, ?_, .inr rfl⟩
    · intro before
      exact (b.past id before).2 _ (List.mem_of_getElem? here) rfl
    · by_contra some_
      exact (b.read id (by omega) (Nat.pos_of_ne_zero some_)).2 _ (List.mem_of_getElem? here) rfl
    · cases went
      simp [slot]

theorem Buffers.act (b : Buffers s) (here : s.threads[i]? = some p) (target : p.target = some h)
    (found : s.handles[h]? = some x) (went : p.act s.globals x s.readers c = some (g, x', p')) :
    Buffers ⟨g, s.handles.set h x', s.threads.set i p'⟩ := by
  have mints := Thread.act_mints went target
  have moved := homes_act here found went
  have lifts : ∀ (k : Nat) {m}, s.globals.mints[k]? = some m → g.mints[k]? = some m := by
    intro k m at_
    rcases mints with ⟨same, _⟩ | ⟨r, more, _⟩
    · rw [same]
      exact at_
    · rw [more]
      exact (List.getElem?_append_left (List.getElem?_eq_some_iff.mp at_).1).trans at_
  have bound := (List.getElem?_eq_some_iff.mp found).1
  have once : ∀ id, homes ⟨g, s.handles.set h x', s.threads.set i p'⟩ id ≤ 1 := by
    intro id
    have one := b.once id
    have bound := moved id
    by_cases minted : id = s.globals.nextBuffer ∧ s.globals.nextBuffer < g.nextBuffer
    · have none := b.fresh id (Nat.le_of_eq minted.1.symm)
      rw [if_pos minted] at bound
      omega
    · rw [if_neg minted] at bound
      omega
  have fresh : ∀ id, g.nextBuffer ≤ id →
      homes ⟨g, s.handles.set h x', s.threads.set i p'⟩ id = 0 := by
    intro id high
    have bound := moved id
    have higher : s.globals.nextBuffer ≤ g.nextBuffer := by
      rcases mints with ⟨_, same, _⟩ | ⟨_, _, more, _⟩ <;> omega
    have none := b.fresh id (Nat.le_trans higher high)
    rw [if_neg (by omega)] at bound
    omega
  have produced := b.produces here target found went
  have holds : ∀ id, (x'.buffers.lookup id).map BufferSlot.outputClaimed = some true →
      0 < x'.has id := by
    intro id claimed
    obtain ⟨slot, there, _⟩ := Option.map_eq_some_iff.mp claimed
    rw [has_pos there]
    exact Nat.one_pos
  constructor
  · have next := b.next
    rcases mints with ⟨same, still, _⟩ | ⟨r, more, higher, _⟩
    · simpa only [same, still] using next
    · simp only [more, higher, List.length_append, List.length_singleton]
      omega
  · exact once
  · exact fresh
  · intro k y id slot at_ there
    rcases getElem?_set_cases at_ with ⟨rfl, rfl⟩ | ⟨_, old⟩
    · rcases Thread.act_slots went target there with ⟨old, was, held, _⟩ | ⟨r, rfl, rfl⟩
      · obtain ⟨positive, mint⟩ := b.slots k x id old found was
        exact ⟨positive, held ▸ lifts _ mint⟩
      · obtain ⟨positive, mint⟩ := b.storing k r id (List.mem_of_getElem? here)
        exact ⟨positive, r.slot_callerHeld ▸ lifts _ mint⟩
    · obtain ⟨positive, mint⟩ := b.slots k y id slot old there
      exact ⟨positive, lifts _ mint⟩
  · intro k r id member
    rcases mem_set_cases member with same | ⟨j, _, old⟩
    · rcases mints with ⟨_, _, nothing⟩ | ⟨r', more, _, _, again | nothing⟩
      · rw [← same] at nothing
        cases nothing
      · rw [again] at same
        cases same
        have next := b.next
        refine ⟨by omega, ?_⟩
        simp [more, next]
      · rw [← same] at nothing
        cases nothing
    · obtain ⟨positive, mint⟩ := b.storing k r id (List.mem_of_getElem? old)
      exact ⟨positive, lifts _ mint⟩
  · intro id nonzero some_
    have bound := readers_act here found went nonzero
    apply Past.act _ target went
    by_cases had : 0 < s.readers id
    · exact b.read id nonzero had
    · exact (b.alone found (by omega)).1
  · intro id member
    rcases produced with same | ⟨id', more, _, _, _, _, _, claimed, _⟩
    · simp only [same] at member
      exact (b.past id member).act target went
    · simp only [more] at member
      rcases List.mem_append.mp member with old | new
      · exact (b.past id old).act target went
      · cases List.mem_singleton.mp new
        exact (State.alone (once id) (fresh id) (List.getElem?_set_self bound)
          (holds id claimed)).1
  · intro id member k y slot at_ there
    have old : id ∈ s.globals.produced → slot.outputClaimed = true := by
      intro before
      rcases getElem?_set_cases at_ with ⟨rfl, rfl⟩ | ⟨_, old⟩
      · rcases Thread.act_slots went target there with ⟨was, at_, _, stays⟩ | ⟨r, rfl, rfl⟩
        · exact stays (b.claimed id before k x was found at_)
        · exact absurd rfl ((b.past id before).2 _ (List.mem_of_getElem? here))
      · exact b.claimed id before k y slot old there
    rcases produced with same | ⟨id', more, _, _, _, _, _, claimed, _⟩
    · simp only [same] at member
      exact old member
    · simp only [more] at member
      rcases List.mem_append.mp member with before | new
      · exact old before
      · cases List.mem_singleton.mp new
        obtain ⟨_, _, unique⟩ := State.alone (once id) (fresh id) (List.getElem?_set_self bound)
          (holds id claimed)
        have same := unique k y at_ (by rw [has_pos there]; exact Nat.one_pos)
        subst same
        rw [List.getElem?_set_self bound] at at_
        cases at_
        rw [there] at claimed
        exact Option.some.inj claimed
  · rcases produced with same | ⟨id, more, new, _⟩
    · simpa only [same] using b.nodup
    · simp only [more]
      refine List.nodup_append.mpr ⟨b.nodup, List.nodup_singleton id, ?_⟩
      rintro a before _ last rfl
      cases List.mem_singleton.mp last
      exact new before
  · intro id
    have bound := results_act here found went id
    have made := b.made id
    simp only
    omega

/-- A step that moves no buffer, no unit and no result. -/
theorem Buffers.frame (b : Buffers s)
    (globals : u.globals.nextBuffer = s.globals.nextBuffer ∧ u.globals.mints = s.globals.mints ∧
      u.globals.produced = s.globals.produced)
    (homes : ∀ id, u.homes id ≤ s.homes id) (readers : ∀ id, u.readers id ≤ s.readers id)
    (results : ∀ id, u.results id ≤ s.results id)
    (stores : ∀ p ∈ u.threads, p.stores ≠ none → p ∈ s.threads)
    (slots : ∀ (h : Nat) x id slot, u.handles[h]? = some x → x.buffers.lookup id = some slot →
      ∃ y, s.handles[h]? = some y ∧ y.buffers.lookup id = some slot) : Buffers u := by
  obtain ⟨next, mints, produced⟩ := globals
  have past : ∀ id, s.Past id → u.Past id := by
    rintro id ⟨below, none⟩
    refine ⟨next ▸ below, ?_⟩
    intro p member stored
    exact none p (stores p member (by simp [stored])) stored
  constructor
  · rw [next, mints]
    exact b.next
  · intro id
    exact Nat.le_trans (homes id) (b.once id)
  · intro id high
    exact Nat.eq_zero_of_le_zero (b.fresh id (next ▸ high) ▸ homes id)
  · intro h x id slot found there
    obtain ⟨y, at_, was⟩ := slots h x id slot found there
    rw [mints]
    exact b.slots h y id slot at_ was
  · intro h r id member
    rw [mints]
    exact b.storing h r id (stores _ member nofun)
  · intro id nonzero some_
    exact past id (b.read id nonzero (Nat.lt_of_lt_of_le some_ (readers id)))
  · intro id member
    exact past id (b.past id (produced ▸ member))
  · intro id member h x slot found there
    obtain ⟨y, at_, was⟩ := slots h x id slot found there
    exact b.claimed id (produced ▸ member) h y slot at_ was
  · rw [produced]
    exact b.nodup
  · intro id
    rw [produced]
    exact Nat.le_trans (results id) (b.made id)

/-- One thread moves to a place without a buffer. -/
theorem Buffers.retread (b : Buffers s) (here : s.threads[i]? = some p)
    (globals : g.nextBuffer = s.globals.nextBuffer ∧ g.mints = s.globals.mints ∧
      g.produced = s.globals.produced ∧ g.freed = s.globals.freed)
    (place : p'.stores = none ∧ p'.input = none ∧ p'.result = none) :
    Buffers ⟨g, s.handles, s.threads.set i p'⟩ := by
  obtain ⟨next, mints, produced, freed⟩ := globals
  obtain ⟨stores, input, result⟩ := place
  apply b.frame ⟨next, mints, produced⟩
  · intro id
    have moved := census_set (fun p : Thread => if p.stores = some id then 1 else 0) here p'
    simp only [stores, reduceCtorEq, if_false] at moved
    simp only [homes, freed]
    omega
  · intro id
    have moved := census_set (fun p : Thread => if p.input = some id then 1 else 0) here p'
    simp only [input, reduceCtorEq, if_false] at moved
    simp only [State.readers]
    omega
  · intro id
    have moved := census_set (fun p : Thread => if p.result = some (.buffer id) then 1 else 0) here p'
    simp only [result, reduceCtorEq, if_false] at moved
    simp only [results]
    omega
  · intro q member some_
    rcases mem_set_cases member with rfl | ⟨j, _, old⟩
    · exact absurd stores some_
    · exact List.mem_of_getElem? old
  · intro h x id slot found there
    exact ⟨x, found, there⟩

theorem Buffers.spawn (b : Buffers s) : Buffers { s with threads := s.threads ++ [.idle] } := by
  refine b.frame ⟨rfl, rfl, rfl⟩ ?_ ?_ ?_ ?_ ?_
  · simp [homes, Thread.stores]
  · simp [State.readers, Thread.input]
  · simp [results, Thread.result]
  · intro q member some_
    rcases List.mem_append.mp member with old | new
    · exact old
    · cases List.mem_singleton.mp new
      exact absurd rfl some_
  · intro h x id slot found there
    exact ⟨x, found, there⟩

theorem Buffers.grow (b : Buffers s) (cap : Nat) :
    Buffers { s with handles := s.handles ++ [.new cap] } := by
  refine b.frame ⟨rfl, rfl, rfl⟩ ?_ ?_ ?_ ?_ ?_
  · simp [homes, Handle.has, Handle.new, GoMap.lookup]
  · simp [State.readers, Handle.new]
  · simp [results, Handle.published, Handle.new]
  · intro q member _
    exact member
  · intro h x id slot found there
    rcases grow_cases found with old | ⟨rfl, _⟩
    · exact ⟨x, old, there⟩
    · cases there

theorem Buffers.drop (b : Buffers s) (found : s.handles[h]? = some x) :
    Buffers ⟨s.globals.cancelAll x, s.handles.set h x.drop, s.threads⟩ := by
  refine b.frame ⟨rfl, rfl, rfl⟩ ?_ ?_ ?_ ?_ ?_
  · intro id
    have same := census_set_same (fun x : Handle => x.has id) (b := x.drop) found rfl
    simp only [homes, same]
    exact Nat.le_refl _
  · intro id
    have same := census_set_same (fun x : Handle => x.items.countP fun u => u.input = id)
      (b := x.drop) found rfl
    simp only [State.readers, same]
    exact Nat.le_refl _
  · intro id
    have same := census_set_same (fun x : Handle => x.published id) (b := x.drop) found rfl
    simp only [results, same]
    exact Nat.le_refl _
  · intro q member _
    exact member
  · intro k y id slot at_ there
    rcases getElem?_set_cases at_ with ⟨rfl, rfl⟩ | ⟨_, old⟩
    · exact ⟨x, found, there⟩
    · exact ⟨y, old, there⟩

theorem Buffers.globalAct (b : Buffers s) (here : s.threads[i]? = some p)
    (went : p.globalAct s c = some (g, p')) : Buffers ⟨g, s.handles, s.threads.set i p'⟩ := by
  apply b.retread here <;> unfold Thread.globalAct at went <;> split at went <;>
    grind -ring -linarith [Thread.stores, Thread.input, Thread.result]

theorem Call.enter_bare (k : Call) (h : Nat) :
    (k.enter h).stores = none ∧ (k.enter h).input = none ∧ (k.enter h).result = none := by
  cases k <;> exact ⟨rfl, rfl, rfl⟩

theorem Buffers.move (b : Buffers s) (move : Move s u) : Buffers u := by
  have same : s.globals.nextBuffer = s.globals.nextBuffer ∧ s.globals.mints = s.globals.mints ∧
      s.globals.produced = s.globals.produced ∧ s.globals.freed = s.globals.freed :=
    ⟨rfl, rfl, rfl, rfl⟩
  cases move with
  | spawn => exact b.spawn
  | opens here outside => exact (b.grow _).retread here same ⟨rfl, rfl, rfl⟩
  | call k here outside found registered live => exact b.retread here same (Call.enter_bare k _)
  | begin here outside which =>
    rcases which with rfl | rfl
    · exact b.retread here same ⟨rfl, rfl, rfl⟩
    · exact b.retread here same ⟨rfl, rfl, rfl⟩
  | work here outside bound => exact b.retread here same ⟨rfl, rfl, rfl⟩
  | drop found registered live unused => exact b.drop found
  | act here target found went => exact b.act here target found went
  | globalAct here aside went => exact b.globalAct here went

theorem Buffers.new : Buffers .new where
  next := rfl
  once id := by simp [homes, State.new, Globals.new]
  fresh id _ := by simp [homes, State.new, Globals.new]
  slots h x id slot found := by simp [State.new] at found
  storing := by simp [State.new]
  read id _ some_ := by simp [State.readers, State.new] at some_
  past := by simp [State.new, Globals.new]
  claimed := by simp [State.new, Globals.new]
  nodup := List.nodup_nil
  made id := by simp [results, State.new]

end State

theorem reaches_buffers (reach : Reaches s) : s.Buffers :=
  reach.invariant (fun _ start => start ▸ .new)
    fun _ _ buffers ⟨_, went⟩ => buffers.move (State.step_moves went)

namespace State

theorem Past.retread (past : s.Past id) (next : g.nextBuffer = s.globals.nextBuffer)
    (stores : p'.stores = none) {handles : List Handle} :
    Past ⟨g, handles, s.threads.set i p'⟩ id := by
  obtain ⟨below, none⟩ := past
  refine ⟨next ▸ below, ?_⟩
  intro q member stored
  rcases mem_set_cases member with rfl | ⟨j, _, old⟩
  · rw [stores] at stored
    cases stored
  · exact none q (List.mem_of_getElem? old) stored

/-- An id that was stored is never stored again. -/
theorem Past.step (past : s.Past id) (step : Step s u) : u.Past id := by
  obtain ⟨a, went⟩ := step
  cases step_moves went with
  | spawn =>
    refine ⟨past.1, ?_⟩
    intro q member
    rcases List.mem_append.mp member with old | new
    · exact past.2 q old
    · cases List.mem_singleton.mp new
      exact nofun
  | call k here outside found registered live => exact past.retread rfl (Call.enter_bare k _).1
  | begin here outside which => rcases which with rfl | rfl <;> exact past.retread rfl rfl
  | opens | work => exact past.retread rfl rfl
  | drop found registered live unused => exact past
  | act here target found moved => exact past.act target moved
  | globalAct here aside moved =>
    apply past.retread <;> unfold Thread.globalAct at moved <;> split at moved <;>
      grind -ring -linarith [Thread.stores]

/-- Nobody ever had a buffer as its input that is only now stored. -/
theorem unread_before {v : State} (reach : Reaches v) (run : Relation.ReflTransGen Step v s)
    (here : s.threads[i]? = some p) (stores : p.stores = some id) (nonzero : id ≠ 0) :
    v.readers id = 0 := by
  by_contra read
  have past := (reaches_buffers reach).read id nonzero (Nat.pos_of_ne_zero read)
  have still : s.Past id := by
    clear here
    induction run with
    | refl => exact past
    | tail _ step ih => exact ih.step step
  exact still.2 p (List.mem_of_getElem? here) stores

/-- What holds of a buffer when it becomes the output of a unit of the handle `h`: the handle lives,
it reserved the id, it did not publish the buffer, and nobody freed, returned or reads it. -/
structure Fit (s : State) (h id : Nat) : Prop where
  named : id ≠ 0
  live : ∃ x, s.handles[h]? = some x ∧ x.live = true
  mint : s.globals.mints[id - 1]? = some (h, false)
  kept : id ∉ s.globals.freed
  first : id ∉ s.globals.produced
  unread : s.readers id = 0

/-- An output buffer has one owner. The results that name a buffer are never more than the times it
was produced, which is once at most. A step produces one buffer or none: by a claim, of a buffer
that is not the unit's input; or by a registration, of one that never was anybody's input. -/
theorem one_owner (reach : Reaches s) :
    s.globals.produced.Nodup ∧ (∀ id, s.results id ≤ s.globals.produced.count id) ∧
    ∀ a u, s.step a = some u → u.globals.produced = s.globals.produced ∨
      ∃ i c h p id, a = .thread i c ∧ s.threads[i]? = some p ∧ p.target = some h ∧
        u.globals.produced = s.globals.produced ++ [id] ∧ s.Fit h id ∧
        ((∃ w, p = .claiming h w id ∧ id ≠ w.input) ∨
          ∀ v, Reaches v → Relation.ReflTransGen Step v s → v.readers id = 0) := by
  have b := reaches_buffers reach
  refine ⟨b.nodup, b.made, ?_⟩
  intro a u went
  cases a with
  | thread i c =>
    obtain ⟨p, here, ⟨h, x, g, x', p', target, found, moved, rfl⟩ | ⟨g, p', aside, moved, rfl⟩⟩ :=
      thread_cases went
    · rcases b.produces here target found moved with same | ⟨id, more, first, kept, positive, mint,
        unread, _, which⟩
      · exact .inl same
      right
      have nonzero := Nat.pos_iff_ne_zero.mp positive
      refine ⟨i, c, h, p, id, rfl, here, target, more, ?_, ?_⟩
      · obtain ⟨y, at_, live⟩ := (reaches_seals reach).held p (List.mem_of_getElem? here) h (by
          rcases which with ⟨w, rfl⟩ | stores
          · simp [Thread.uses, Thread.target]
          · cases p <;> simp_all [Thread.stores, Thread.uses])
        exact ⟨nonzero, ⟨y, at_, live⟩, mint, kept, first, unread⟩
      · rcases which with ⟨w, rfl⟩ | stores
        · refine .inl ⟨w, rfl, ?_⟩
          rintro rfl
          have mine := le_census (fun p : Thread => if p.input = some w.input then 1 else 0) here
          simp only [State.readers, Thread.input, if_pos] at unread mine
          omega
        · exact .inr fun v before run => unread_before before run here stores nonzero
    · left
      unfold Thread.globalAct at moved
      split at moved <;> grind -ring -linarith
  | _ =>
    left
    obtain ⟨more, same⟩ := outer_globals went fun _ _ same => by cases same
    rw [same]

end State

/-- Two workers come with the id of one buffer, which the engine allocated before. -/
def contested : Option State :=
  follows .new (([.spawn, .spawn, .spawn, .opens 0 4, .thread 0 plainly,
      .call 0 0 (.alloc false)] : List Act) ++
    List.replicate 4 (Act.thread 0 plainly) ++
    (List.replicate 2 (([.call 0 0 (.submit 0)] : List Act) ++
      List.replicate 7 (Act.thread 0 plainly))).flatten ++
    ([.work 1 0, .work 2 0] : List Act) ++
    (List.replicate 4 ([.thread 1 ⟨none, .ok (.buffer 1), none, true, false⟩,
      .thread 2 ⟨none, .ok (.buffer 1), none, true, false⟩] : List Act)).flatten)

theorem contested_runs : contested.isSome = true := by decide

/-- One of them gets it: what it took is fit, and then there is one result. -/
theorem one_owner_contested :
    ∃ u v, (contested.get contested_runs).step (.thread 1 plainly) = some u ∧
      u.globals.produced = [1] ∧ (contested.get contested_runs).Fit 0 1 ∧
      u.step (.thread 2 plainly) = some v ∧ v.globals.produced = [1] ∧ v.results 1 ≤ 1 := by
  have reach : Reaches (contested.get contested_runs) :=
    follows_reaches (.start rfl) (Option.some_get _).symm
  obtain ⟨_, _, produces⟩ := State.one_owner reach
  refine ⟨_, _, rfl, rfl, ?_, rfl, rfl, ?_⟩
  · rcases produces (.thread 1 plainly) _ rfl with same | ⟨i, c, h, p, id, acts, here, target, more,
      fit, _⟩
    · cases same
    · cases acts
      cases here
      cases target
      cases more
      exact fit
  · have after := (reach.next ⟨.thread 1 plainly, rfl⟩).next ⟨.thread 2 plainly, rfl⟩
    exact (State.one_owner after).2.1 1

end Gusset.Runtime
