import Gusset.Handle.Ledger

/-! Who waits on which ticket, through which channel, and what that channel can hold. Nothing
here depends on which tickets callers ask for. -/
namespace Gusset.Handle
open Foundation

structure Waiter where
  op : Op
  ticket : Ticket
  chan : Nat
  got : Option CallResult

def Role.waiter : Role → Option Waiter
  | .waiting op t c => some ⟨op, t, c, none⟩
  | .received op t c res => some ⟨op, t, c, some res⟩
  | _ => none

def waitsOn (t : Ticket) : Option Waiter → Nat
  | some w => if w.ticket = t then 1 else 0
  | none => 0

def usesChan (c : Nat) : Option Waiter → Nat
  | some w => if w.chan = c then 1 else 0
  | none => 0

/-- What the routing facts are about. Moves that touch nothing of it keep all of them. -/
structure Desk where
  pending : Ticket → Option (Option Nat)
  chan : Nat → Option CallResult
  made : Nat
  waitChans : List Nat
  completed : Ticket → Option CallResult
  takeIDs : Ticket → TakeId
  abandoned : Finset Ticket
  exited : Bool
  delivered : Ticket → Option (CallResult × TakeId)
  handed : Ticket → List Handover
  waiters : List (Option Waiter)

def Ledger.desk (L : Ledger) : Desk where
  pending := L.sh.pending.lookup
  chan := L.sh.chan
  made := L.sh.made
  waitChans := L.sh.waitChans
  completed := L.sh.completed.lookup
  takeIDs := L.sh.takeIDs
  abandoned := L.sh.abandoned
  exited := L.sh.drainExited
  delivered := L.hist.delivered
  handed := L.hist.handed
  waiters := L.roles.map Role.waiter

/-- The outcome that ends ticket `t`: what `deliver` was called with, or the closed error of the
reader's exit, which carries no take id. -/
def Desk.Outcome (D : Desk) (t : Ticket) (res : CallResult) (id : TakeId) : Prop :=
  D.delivered t = some (res, id) ∨
    (D.exited = true ∧ id = 0 ∧ ∃ e, res = ⟨[], some e⟩ ∧ e.isClosed = true)

structure Desk.Sound (D : Desk) : Prop where
  waits : ∀ t, census (waitsOn t) D.waiters = if (D.pending t).isSome then 1 else 0
  owned : ∀ c, census (usesChan c) D.waiters + D.waitChans.count c ≤ 1
  fresh : ∀ c, D.made ≤ c → census (usesChan c) D.waiters + D.waitChans.count c = 0 ∧ D.chan c = none
  free : ∀ c ∈ D.waitChans, D.chan c = none
  parked : ∀ w, some w ∈ D.waiters → w.got = none →
    (D.pending w.ticket = some (some w.chan) ∧ D.chan w.chan = none ∧ D.exited = false) ∨
    (D.pending w.ticket = some none ∧
      ∃ res, D.chan w.chan = some res ∧ D.Outcome w.ticket res (D.takeIDs w.ticket))
  got : ∀ w res, some w ∈ D.waiters → w.got = some res →
    D.pending w.ticket = some none ∧ D.chan w.chan = none ∧
      D.Outcome w.ticket res (D.takeIDs w.ticket)
  stored : ∀ t res, D.completed t = some res →
    D.delivered t = some (res, D.takeIDs t) ∧ D.pending t = none
  abandoned : ∀ t ∈ D.abandoned, D.pending t = none
  takes : ∀ t, D.takeIDs t ≠ 0 → (D.delivered t).isSome = true ∧
    ((D.completed t).isSome = true ∨ D.pending t = some none)
  handed : ∀ t, ∀ x ∈ D.handed t, D.Outcome t x.result x.takeID

namespace Desk

variable {D : Desk}

theorem Sound.waiter_waits (sound : D.Sound) {i : Nat} {w : Waiter}
    (here : D.waiters[i]? = some (some w)) : (D.pending w.ticket).isSome = true := by
  have one := le_census (waitsOn w.ticket) here
  have total := sound.waits w.ticket
  simp only [waitsOn, if_true] at one
  by_contra absent
  rw [if_neg absent] at total
  omega

theorem Sound.same_ticket (sound : D.Sound) {i j : Nat} {w v : Waiter}
    (hw : D.waiters[i]? = some (some w)) (hv : D.waiters[j]? = some (some v))
    (same : v.ticket = w.ticket) : j = i := by
  have total := sound.waits w.ticket
  have bound : census (waitsOn w.ticket) D.waiters ≤ 1 := by split at total <;> omega
  exact index_unique _ bound hv hw (by simp [waitsOn, same]) (by simp [waitsOn])

theorem Sound.same_chan (sound : D.Sound) {i j : Nat} {w v : Waiter}
    (hw : D.waiters[i]? = some (some w)) (hv : D.waiters[j]? = some (some v))
    (same : v.chan = w.chan) : j = i := by
  have total := sound.owned w.chan
  exact index_unique (usesChan w.chan) (by omega) hv hw (by simp [usesChan, same])
    (by simp [usesChan])

theorem Sound.not_free (sound : D.Sound) {i : Nat} {w : Waiter}
    (here : D.waiters[i]? = some (some w)) : w.chan ∉ D.waitChans := by
  intro free
  have one := le_census (usesChan w.chan) here
  have total := sound.owned w.chan
  have counted := List.count_pos_iff.mpr free
  simp only [usesChan, if_true] at one
  omega

/-- The waiter a non-nil entry of `pending` belongs to. -/
theorem Sound.waiter_of_pending (sound : D.Sound) {t : Ticket} {c : Nat}
    (entry : D.pending t = some (some c)) :
    ∃ (i : Nat) (w : Waiter), D.waiters[i]? = some (some w) ∧ w.ticket = t ∧ w.chan = c ∧ w.got = none := by
  have total := sound.waits t
  simp only [entry, Option.isSome_some, if_true] at total
  have some_one : 0 < census (waitsOn t) D.waiters := by omega
  obtain ⟨i, v, here, positive⟩ := exists_of_census_pos (waitsOn t) some_one
  cases v with
  | none => simp [waitsOn] at positive
  | some w =>
    have ticket : w.ticket = t := by
      by_contra other
      simp [waitsOn, other] at positive
    have member := List.mem_of_getElem? here
    cases hg : w.got with
    | some res =>
      have taken := (sound.got w res member hg).1
      rw [ticket, entry] at taken
      cases taken
    | none =>
      rcases sound.parked w member hg with parked | sent
      · rw [ticket, entry] at parked
        cases parked.1
        exact ⟨i, w, here, ticket, rfl, hg⟩
      · rw [ticket, entry] at sent
        cases sent.1

/-- No waiter is on a ticket without an entry in `pending`. -/
theorem Sound.no_waiter (sound : D.Sound) {t : Ticket} (absent : D.pending t = none) {w : Waiter}
    (member : some w ∈ D.waiters) : w.ticket ≠ t := by
  intro same
  obtain ⟨i, here⟩ := List.mem_iff_getElem?.mp member
  have waits := sound.waiter_waits here
  simp [same, absent] at waits

theorem Sound.spawn (sound : D.Sound) : { D with waiters := D.waiters ++ [none] : Desk }.Sound := by
  have old : ∀ w, some w ∈ D.waiters ++ [none] → some w ∈ D.waiters := by
    intro w member
    simpa using member
  refine { sound with waits := ?_, owned := ?_, fresh := ?_, parked := ?_, got := ?_ }
  · intro t
    simpa [waitsOn] using sound.waits t
  · intro c
    simpa [usesChan] using sound.owned c
  · intro c hc
    simpa [usesChan] using sound.fresh c hc
  · exact fun w member => sound.parked w (old w member)
  · exact fun w res member => sound.got w res (old w member)

/-- A stored result is taken out, by a claim or by a drop. -/
theorem Sound.take (sound : D.Sound) {t : Ticket} {res : CallResult}
    (present : D.completed t = some res) (sink : Sink) :
    { D with completed := Function.update D.completed t none
             takeIDs := Function.update D.takeIDs t 0
             handed := Function.update D.handed t
               (⟨sink, res, D.takeIDs t⟩ :: D.handed t) : Desk }.Sound := by
  obtain ⟨made, absent⟩ := sound.stored t res present
  refine { sound with parked := ?_, got := ?_, stored := ?_, takes := ?_, handed := ?_ }
  · intro w member hg
    have differ := sound.no_waiter absent member
    simpa [differ, Outcome] using sound.parked w member hg
  · intro w r member hg
    have differ := sound.no_waiter absent member
    simpa [differ, Outcome] using sound.got w r member hg
  · intro j r hj
    by_cases same : j = t
    · simp [same] at hj
    · simp only [Function.update_of_ne same] at hj ⊢
      exact sound.stored j r hj
  · intro j hj
    by_cases same : j = t
    · simp [same] at hj
    · simp only [Function.update_of_ne same] at hj ⊢
      exact sound.takes j hj
  · intro j x hx
    by_cases same : j = t
    · subst same
      simp only [Function.update_self, List.mem_cons] at hx
      rcases hx with rfl | old
      · exact .inl made
      · exact sound.handed j x old
    · simp only [Function.update_of_ne same] at hx
      exact sound.handed j x hx

/-- A caller registers on a live ticket, with a channel from the free list or a new one. -/
theorem Sound.register (sound : D.Sound) {i : Nat} {t : Ticket} {c m : Nat}
    {rest : List Nat} (op : Op) (here : D.waiters[i]? = some none)
    (absent : D.pending t = none) (unstored : D.completed t = none) (kept : t ∉ D.abandoned)
    (running : D.exited = false)
    (chosen : (D.waitChans = c :: rest ∧ m = D.made) ∨
      (rest = D.waitChans ∧ c = D.made ∧ m = D.made + 1)) :
    { D with pending := Function.update D.pending t (some (some c))
             made := m
             waitChans := rest
             waiters := D.waiters.set i (some ⟨op, t, c, none⟩) : Desk }.Sound := by
  have empty : D.chan c = none := by
    rcases chosen with ⟨list, _⟩ | ⟨_, new, _⟩
    · exact sound.free c (by simp [list])
    · exact (sound.fresh c (by omega)).2
  -- What the caller adds to the users of a channel, the free list or the unmade loses.
  have users : ∀ j, census (usesChan j) (D.waiters.set i (some ⟨op, t, c, none⟩)) =
      census (usesChan j) D.waiters + if c = j then 1 else 0 := by
    intro j
    have moved := census_set (usesChan j) here (some ⟨op, t, c, none⟩)
    simpa [usesChan] using moved
  refine { waits := ?_, owned := ?_, fresh := ?_, free := ?_, parked := ?_, got := ?_,
           stored := ?_, abandoned := ?_, takes := ?_, handed := sound.handed }
  · intro j
    have moved := census_set (waitsOn j) here (some ⟨op, t, c, none⟩)
    have before := sound.waits j
    by_cases same : j = t
    · subst same
      simp only [waitsOn, absent] at moved before
      simp only [Function.update_self, Option.isSome_some, if_true] at *
      simp at before
      omega
    · simp only [waitsOn, Ne.symm same, if_false] at moved
      simp only [Function.update_of_ne same]
      omega
  · intro j
    have before := sound.owned j
    simp only [users]
    rcases chosen with ⟨list, _⟩ | ⟨list, new, _⟩
    · simp only [list, List.count_cons, beq_iff_eq] at before
      omega
    · have unused := sound.fresh c (by omega)
      simp only [list]
      split
      · rename_i same
        rw [← same]
        omega
      · omega
  · intro j hj
    change m ≤ j at hj
    have before := sound.fresh j (by omega)
    simp only [users]
    rcases chosen with ⟨list, _⟩ | ⟨list, new, _⟩
    · simp only [list, List.count_cons, beq_iff_eq] at before
      exact ⟨by omega, before.2⟩
    · simp only [list]
      exact ⟨by split <;> omega, before.2⟩
  · intro j hj
    rcases chosen with ⟨list, _⟩ | ⟨list, _, _⟩
    · exact sound.free j (by simp [list, hj])
    · exact sound.free j (list ▸ hj)
  · intro w member hg
    rcases mem_set_cases member with new | ⟨j, _, old⟩
    · cases new
      exact .inl ⟨by simp, empty, running⟩
    · have differ := sound.no_waiter absent (List.mem_of_getElem? old)
      simpa [differ, Outcome] using sound.parked w (List.mem_of_getElem? old) hg
  · intro w res member hg
    rcases mem_set_cases member with new | ⟨j, _, old⟩
    · cases new
      cases hg
    · have differ := sound.no_waiter absent (List.mem_of_getElem? old)
      simpa [differ, Outcome] using sound.got w res (List.mem_of_getElem? old) hg
  · intro j res hj
    have differ : j ≠ t := by
      intro same
      rw [same] at hj
      simp [unstored] at hj
    simpa [differ] using sound.stored j res hj
  · intro j hj
    have differ : j ≠ t := fun same => kept (same ▸ hj)
    simpa [differ] using sound.abandoned j hj
  · intro j hj
    obtain ⟨made, place⟩ := sound.takes j hj
    refine ⟨made, ?_⟩
    have differ : j ≠ t := by
      intro same
      rw [same] at place
      simp [unstored, absent] at place
    simpa [differ] using place

/-- A waiter takes the value out of its channel. -/
theorem Sound.receive (sound : D.Sound) {i : Nat} {op : Op} {t : Ticket} {c : Nat}
    {res : CallResult} (here : D.waiters[i]? = some (some ⟨op, t, c, none⟩))
    (full : D.chan c = some res) :
    { D with chan := Function.update D.chan c none
             waiters := D.waiters.set i (some ⟨op, t, c, some res⟩) : Desk }.Sound := by
  have users : ∀ j, census (usesChan j) (D.waiters.set i (some ⟨op, t, c, some res⟩)) =
      census (usesChan j) D.waiters := fun j => census_set_same _ here rfl
  have member := List.mem_of_getElem? here
  have sent := sound.parked _ member rfl
  simp only [full] at sent
  -- Another waiter uses another channel.
  have other : ∀ j w, j ≠ i → D.waiters[j]? = some (some w) → w.chan ≠ c := by
    intro j w differ hw same
    exact differ (sound.same_chan here hw same)
  refine { sound with waits := ?_, owned := ?_, fresh := ?_, free := ?_, parked := ?_, got := ?_ }
  · intro j
    rw [show census (waitsOn j) (D.waiters.set i (some ⟨op, t, c, some res⟩)) =
      census (waitsOn j) D.waiters from census_set_same _ here rfl]
    exact sound.waits j
  · intro j
    simpa only [users] using sound.owned j
  · intro j hj
    have before := sound.fresh j hj
    refine ⟨by simpa only [users] using before.1, ?_⟩
    simp only [Function.update_apply, before.2, ite_self]
  · intro j hj
    simp only [Function.update_apply, sound.free j hj, ite_self]
  · intro w found hg
    rcases mem_set_cases found with new | ⟨j, differ, old⟩
    · cases new
      cases hg
    · simpa [other j w differ old, Outcome] using sound.parked w (List.mem_of_getElem? old) hg
  · intro w r found hg
    rcases mem_set_cases found with new | ⟨j, differ, old⟩
    · cases new
      cases hg
      rcases sent with ⟨_, impossible, _⟩ | ⟨nilled, r, value, outcome⟩
      · cases impossible
      · cases value
        exact ⟨nilled, by simp, outcome⟩
    · simpa [other j w differ old, Outcome] using sound.got w r (List.mem_of_getElem? old) hg

/-- Facts shared by the two ways a waiter leaves: it gives up its entry and its channel. -/
theorem Sound.leave_counts (sound : D.Sound) {i : Nat} {w : Waiter} {chans : List Nat}
    (here : D.waiters[i]? = some (some w)) (recycled : chans = D.waitChans ∨
      chans = w.chan :: D.waitChans) :
    (∀ t, census (waitsOn t) (D.waiters.set i none) =
      if (Function.update D.pending w.ticket none t).isSome then 1 else 0) ∧
    (∀ c, census (usesChan c) (D.waiters.set i none) + chans.count c ≤ 1) ∧
    (∀ c, D.made ≤ c → census (usesChan c) (D.waiters.set i none) + chans.count c = 0) := by
  refine ⟨?_, ?_, ?_⟩
  · intro t
    have moved := census_set (waitsOn t) here none
    have before := sound.waits t
    have one := sound.waiter_waits here
    by_cases same : t = w.ticket
    · subst same
      simp only [waitsOn, if_true, one] at moved before
      simp
      omega
    · simp only [waitsOn, Ne.symm same, if_false] at moved
      simp only [Function.update_of_ne same]
      omega
  · intro c
    have moved := census_set (usesChan c) here none
    have before := sound.owned c
    simp only [usesChan] at moved
    rcases recycled with same | longer
    · rw [same]
      omega
    · simp only [longer, List.count_cons, beq_iff_eq]
      omega
  · intro c hc
    have moved := census_set (usesChan c) here none
    have before := (sound.fresh c hc).1
    simp only [usesChan] at moved
    rcases recycled with same | longer
    · rw [same]
      omega
    · simp only [longer, List.count_cons, beq_iff_eq]
      omega

/-- A waiter that holds its value ends its claim. -/
theorem Sound.collect (sound : D.Sound) {i : Nat} {op : Op} {t : Ticket} {c : Nat}
    {res : CallResult} {chans : List Nat}
    (here : D.waiters[i]? = some (some ⟨op, t, c, some res⟩))
    (recycled : chans = D.waitChans ∨ chans = c :: D.waitChans) :
    { D with pending := Function.update D.pending t none
             takeIDs := Function.update D.takeIDs t 0
             waitChans := chans
             handed := Function.update D.handed t
               (⟨.wait op, res, D.takeIDs t⟩ :: D.handed t)
             waiters := D.waiters.set i none : Desk }.Sound := by
  obtain ⟨nilled, empty, outcome⟩ := sound.got _ res (List.mem_of_getElem? here) rfl
  obtain ⟨waits, owned, fresh⟩ := sound.leave_counts here recycled
  -- Another waiter is on another ticket.
  have other : ∀ j w, j ≠ i → D.waiters[j]? = some (some w) → w.ticket ≠ t := by
    intro j w differ hw same
    exact differ (sound.same_ticket here hw same)
  have unstored : D.completed t = none := by
    cases hc : D.completed t with
    | none => rfl
    | some r =>
      have absent := (sound.stored t r hc).2
      rw [show D.pending t = some none from nilled] at absent
      cases absent
  refine { waits := waits, owned := owned, fresh := fun j hj => ⟨fresh j hj, (sound.fresh j hj).2⟩,
           free := ?_, parked := ?_, got := ?_, stored := ?_, abandoned := ?_, takes := ?_,
           handed := ?_ }
  · intro j hj
    rcases recycled with same | longer
    · exact sound.free j (same ▸ hj)
    · rcases List.mem_cons.mp (longer ▸ hj) with rfl | old
      · exact empty
      · exact sound.free j old
  · intro w found hg
    rcases mem_set_cases found with new | ⟨j, differ, old⟩
    · cases new
    · simpa [other j w differ old, Outcome] using sound.parked w (List.mem_of_getElem? old) hg
  · intro w r found hg
    rcases mem_set_cases found with new | ⟨j, differ, old⟩
    · cases new
    · simpa [other j w differ old, Outcome] using sound.got w r (List.mem_of_getElem? old) hg
  · intro j r hj
    have differ : j ≠ t := by
      intro same
      rw [same] at hj
      simp [unstored] at hj
    simpa [differ] using sound.stored j r hj
  · intro j hj
    by_cases same : j = t
    · simp [same]
    · simpa [same] using sound.abandoned j hj
  · intro j hj
    by_cases same : j = t
    · simp [same] at hj
    · simp only [Function.update_of_ne same] at hj ⊢
      exact sound.takes j hj
  · intro j x hx
    by_cases same : j = t
    · subst same
      simp only [Function.update_self, List.mem_cons] at hx
      rcases hx with rfl | old
      · exact outcome
      · exact sound.handed j x old
    · simp only [Function.update_of_ne same] at hx
      exact sound.handed j x hx

/-- A waiter whose context ended finds nothing sent and abandons its ticket. -/
theorem Sound.detach (sound : D.Sound) {i : Nat} {op : Op} {t : Ticket} {c : Nat}
    {chans : List Nat} (here : D.waiters[i]? = some (some ⟨op, t, c, none⟩))
    (empty : D.chan c = none) (recycled : chans = D.waitChans ∨ chans = c :: D.waitChans) :
    { D with pending := Function.update D.pending t none
             waitChans := chans
             abandoned := insert t D.abandoned
             waiters := D.waiters.set i none : Desk }.Sound := by
  obtain ⟨waits, owned, fresh⟩ := sound.leave_counts here recycled
  have other : ∀ j w, j ≠ i → D.waiters[j]? = some (some w) → w.ticket ≠ t := by
    intro j w differ hw same
    exact differ (sound.same_ticket here hw same)
  refine { waits := waits, owned := owned, fresh := fun j hj => ⟨fresh j hj, (sound.fresh j hj).2⟩,
           free := ?_, parked := ?_, got := ?_, stored := ?_, abandoned := ?_, takes := ?_,
           handed := sound.handed }
  · intro j hj
    rcases recycled with same | longer
    · exact sound.free j (same ▸ hj)
    · rcases List.mem_cons.mp (longer ▸ hj) with rfl | old
      · exact empty
      · exact sound.free j old
  · intro w found hg
    rcases mem_set_cases found with new | ⟨j, differ, old⟩
    · cases new
    · simpa [other j w differ old, Outcome] using sound.parked w (List.mem_of_getElem? old) hg
  · intro w r found hg
    rcases mem_set_cases found with new | ⟨j, differ, old⟩
    · cases new
    · simpa [other j w differ old, Outcome] using sound.got w r (List.mem_of_getElem? old) hg
  · intro j r hj
    obtain ⟨made, absent⟩ := sound.stored j r hj
    refine ⟨made, ?_⟩
    by_cases same : j = t
    · simp [same]
    · simpa [same] using absent
  · intro j hj
    by_cases same : j = t
    · simp [same]
    · have old : j ∈ D.abandoned := by simpa [same] using hj
      simpa [same] using sound.abandoned j old
  · intro j hj
    obtain ⟨made, place⟩ := sound.takes j hj
    refine ⟨made, ?_⟩
    by_cases same : j = t
    · rcases sound.parked _ (List.mem_of_getElem? here) rfl with ⟨entry, _⟩ | ⟨_, res, full, _⟩
      · rw [same, show D.pending t = some (some c) from entry] at place
        left
        simpa [same] using place
      · rw [show D.chan c = some res from full] at empty
        cases empty
    · simpa [same] using place

theorem Sound.abandon (sound : D.Sound) {t : Ticket} (absent : D.pending t = none) :
    { D with abandoned := insert t D.abandoned : Desk }.Sound := by
  refine { sound with abandoned := ?_ }
  intro j hj
  rcases Finset.mem_insert.mp hj with rfl | old
  · exact absent
  · exact sound.abandoned j old

/-- Before its delivery a ticket has no take id, no stored result and no sent outcome. -/
theorem Sound.undelivered (sound : D.Sound) {t : Ticket} (new : D.delivered t = none)
    (running : D.exited = false) :
    D.takeIDs t = 0 ∧ D.completed t = none ∧ D.pending t ≠ some none := by
  refine ⟨?_, ?_, ?_⟩
  · by_contra taken
    have made := (sound.takes t taken).1
    simp [new] at made
  · cases hc : D.completed t with
    | none => rfl
    | some res =>
      have made := (sound.stored t res hc).1
      rw [new] at made
      cases made
  · intro nilled
    have total := sound.waits t
    simp only [nilled, Option.isSome_some, if_true] at total
    have some_one : 0 < census (waitsOn t) D.waiters := by omega
    obtain ⟨i, v, here, positive⟩ := exists_of_census_pos (waitsOn t) some_one
    cases v with
    | none => simp [waitsOn] at positive
    | some w =>
      have ticket : w.ticket = t := by
        by_contra other
        simp [waitsOn, other] at positive
      have outcome : ∃ res, D.Outcome w.ticket res (D.takeIDs w.ticket) := by
        cases hg : w.got with
        | some res => exact ⟨res, (sound.got w res (List.mem_of_getElem? here) hg).2.2⟩
        | none =>
          rcases sound.parked w (List.mem_of_getElem? here) hg with parked | sent
          · rw [ticket, nilled] at parked
            cases parked.1
          · obtain ⟨_, res, _, outcome⟩ := sent
            exact ⟨res, outcome⟩
      obtain ⟨res, made | left⟩ := outcome
      · rw [ticket, new] at made
        cases made
      · rw [running] at left
        cases left.1

theorem Sound.bin (sound : D.Sound) {t : Ticket} (res : CallResult) (id : TakeId)
    (gone : t ∈ D.abandoned) (new : D.delivered t = none) (running : D.exited = false) :
    { D with abandoned := D.abandoned.erase t
             delivered := Function.update D.delivered t (some (res, id))
             handed := Function.update D.handed t (⟨.bin, res, id⟩ :: D.handed t) : Desk
      }.Sound := by
  obtain ⟨untaken, unstored, _⟩ := sound.undelivered new running
  have absent := sound.abandoned t gone
  refine { sound with parked := ?_, got := ?_, stored := ?_, abandoned := ?_, takes := ?_
                      handed := ?_ }
  · intro w member hg
    have differ := sound.no_waiter absent member
    simpa [differ, Outcome] using sound.parked w member hg
  · intro w r member hg
    have differ := sound.no_waiter absent member
    simpa [differ, Outcome] using sound.got w r member hg
  · intro j r hj
    have differ : j ≠ t := by
      intro same
      rw [same] at hj
      simp [unstored] at hj
    simpa [differ] using sound.stored j r hj
  · intro j hj
    exact sound.abandoned j (Finset.mem_of_mem_erase hj)
  · intro j hj
    have differ : j ≠ t := by
      intro same
      rw [same] at hj
      exact hj untaken
    simpa [differ] using sound.takes j hj
  · intro j x hx
    by_cases same : j = t
    · subst same
      simp only [Function.update_self, List.mem_cons] at hx
      rcases hx with rfl | old
      · exact .inl (by simp)
      · rcases sound.handed j x old with made | left
        · rw [new] at made
          cases made
        · exact .inr left
    · simp only [Function.update_of_ne same] at hx
      simpa [same, Outcome] using sound.handed j x hx

theorem Sound.send (sound : D.Sound) {t : Ticket} {c : Nat} (res : CallResult) (id : TakeId)
    (entry : D.pending t = some (some c)) (new : D.delivered t = none)
    (running : D.exited = false) :
    { D with takeIDs := Function.update D.takeIDs t id
             pending := Function.update D.pending t (some none)
             chan := Function.update D.chan c (some res)
             delivered := Function.update D.delivered t (some (res, id)) : Desk }.Sound := by
  obtain ⟨untaken, unstored, _⟩ := sound.undelivered new running
  obtain ⟨i, w, here, rfl, rfl, ungot⟩ := sound.waiter_of_pending entry
  have used := sound.not_free here
  refine { waits := ?_, owned := sound.owned, fresh := ?_, free := ?_, parked := ?_, got := ?_
           stored := ?_, abandoned := ?_, takes := ?_, handed := ?_ }
  · intro j
    by_cases same : j = w.ticket
    · subst same
      simpa [entry] using sound.waits w.ticket
    · simpa [same] using sound.waits j
  · intro j hj
    have before := sound.fresh j hj
    refine ⟨before.1, ?_⟩
    have differ : j ≠ w.chan := by
      intro same
      have one := le_census (usesChan w.chan) here
      simp only [usesChan, if_true] at one
      rw [same] at before
      omega
    simpa [differ] using before.2
  · intro j hj
    have differ : j ≠ w.chan := fun same => used (same ▸ hj)
    simpa [differ] using sound.free j hj
  · intro v found hg
    obtain ⟨j, hj⟩ := List.mem_iff_getElem?.mp found
    by_cases same : j = i
    · subst same
      have eq : v = w := by simpa [here] using hj.symm
      subst eq
      exact .inr ⟨by simp, res, by simp, .inl (by simp)⟩
    · have ticket : v.ticket ≠ w.ticket := fun eq => same (sound.same_ticket here hj eq)
      have chan : v.chan ≠ w.chan := fun eq => same (sound.same_chan here hj eq)
      simpa [ticket, chan, Outcome] using sound.parked v found hg
  · intro v r found hg
    obtain ⟨j, hj⟩ := List.mem_iff_getElem?.mp found
    have same : j ≠ i := by
      intro eq
      subst eq
      have eq : v = w := by simpa [here] using hj.symm
      subst eq
      rw [ungot] at hg
      cases hg
    have ticket : v.ticket ≠ w.ticket := fun eq => same (sound.same_ticket here hj eq)
    have chan : v.chan ≠ w.chan := fun eq => same (sound.same_chan here hj eq)
    simpa [ticket, chan, Outcome] using sound.got v r found hg
  · intro j r hj
    have differ : j ≠ w.ticket := by
      intro same
      rw [same] at hj
      simp [unstored] at hj
    simpa [differ] using sound.stored j r hj
  · intro j hj
    have absent := sound.abandoned j hj
    have differ : j ≠ w.ticket := by
      intro same
      rw [same, entry] at absent
      cases absent
    simpa [differ] using absent
  · intro j hj
    by_cases same : j = w.ticket
    · subst same
      simp
    · simp only [Function.update_of_ne same] at hj ⊢
      exact sound.takes j hj
  · intro j x hx
    by_cases same : j = w.ticket
    · subst same
      rcases sound.handed w.ticket x hx with made | left
      · rw [new] at made
        cases made
      · exact .inr left
    · simpa [same, Outcome] using sound.handed j x hx

theorem Sound.store (sound : D.Sound) {t : Ticket} (res : CallResult) (id : TakeId)
    (absent : D.pending t = none) (new : D.delivered t = none) (running : D.exited = false) :
    { D with takeIDs := Function.update D.takeIDs t id
             completed := Function.update D.completed t (some res)
             delivered := Function.update D.delivered t (some (res, id)) : Desk }.Sound := by
  obtain ⟨untaken, unstored, _⟩ := sound.undelivered new running
  refine { sound with parked := ?_, got := ?_, stored := ?_, takes := ?_, handed := ?_ }
  · intro w member hg
    have differ := sound.no_waiter absent member
    simpa [differ, Outcome] using sound.parked w member hg
  · intro w r member hg
    have differ := sound.no_waiter absent member
    simpa [differ, Outcome] using sound.got w r member hg
  · intro j r hj
    by_cases same : j = t
    · subst same
      have eq : res = r := by simpa using hj
      subst eq
      exact ⟨by simp, absent⟩
    · simp only [Function.update_of_ne same] at hj ⊢
      exact sound.stored j r hj
  · intro j hj
    by_cases same : j = t
    · subst same
      simp
    · simp only [Function.update_of_ne same] at hj ⊢
      exact sound.takes j hj
  · intro j x hx
    by_cases same : j = t
    · subst same
      rcases sound.handed j x hx with made | left
      · rw [new] at made
        cases made
      · exact .inr left
    · simpa [same, Outcome] using sound.handed j x hx

/-- The reader's exit sends the closed error to every waiter still parked. -/
theorem Sound.stop (sound : D.Sound) {waiterErr : Err} (isClosed : waiterErr.isClosed = true)
    (running : D.exited = false) {chan : Nat → Option CallResult}
    (sent : ∀ t c, D.pending t = some (some c) → chan c = some ⟨[], some waiterErr⟩)
    (kept : ∀ c, (∀ t, D.pending t ≠ some (some c)) → chan c = D.chan c) :
    { D with pending := fun t => (D.pending t).map fun _ => none
             chan := chan
             exited := true
             abandoned := ∅ : Desk }.Sound := by
  -- A channel some entry names is in use, so it is neither free nor unmade.
  have unwaited : ∀ c, census (usesChan c) D.waiters = 0 → ∀ t, D.pending t ≠ some (some c) := by
    intro c unused t entry
    obtain ⟨i, w, here, _, rfl, _⟩ := sound.waiter_of_pending entry
    have one := le_census (usesChan w.chan) here
    simp only [usesChan, if_true] at one
    omega
  -- What was an outcome before the exit still is one.
  have outcome_kept : ∀ t res id, D.Outcome t res id → D.delivered t = some (res, id) := by
    intro t res id h
    rcases h with made | left
    · exact made
    · rw [running] at left
      cases left.1
  refine { waits := ?_, owned := sound.owned, fresh := ?_, free := ?_, parked := ?_, got := ?_
           stored := ?_, abandoned := ?_, takes := ?_, handed := ?_ }
  · intro t
    simpa using sound.waits t
  · intro c hc
    have before := sound.fresh c hc
    exact ⟨before.1, (kept c (unwaited c (by omega))).trans before.2⟩
  · intro c hc
    change c ∈ D.waitChans at hc
    have total := sound.owned c
    have counted := List.count_pos_iff.mpr hc
    exact (kept c (unwaited c (by omega))).trans (sound.free c hc)
  · intro w member hg
    obtain ⟨i, here⟩ := List.mem_iff_getElem?.mp member
    right
    rcases sound.parked w member hg with ⟨entry, _, _⟩ | ⟨nilled, res, full, outcome⟩
    · refine ⟨by simp [entry], _, sent _ _ entry, .inr ⟨rfl, ?_, waiterErr, rfl, isClosed⟩⟩
      by_contra taken
      obtain ⟨_, place | nilled⟩ := sound.takes w.ticket taken
      · obtain ⟨res, hres⟩ := Option.isSome_iff_exists.mp place
        rw [(sound.stored _ res hres).2] at entry
        cases entry
      · rw [nilled] at entry
        cases entry
    · have unsent : ∀ t, D.pending t ≠ some (some w.chan) := by
        intro t entry
        obtain ⟨j, v, hv, ticket, chan, _⟩ := sound.waiter_of_pending entry
        have same := sound.same_chan here hv chan
        subst same
        have eq : v = w := by simpa [here] using hv.symm
        subst eq
        rw [ticket, entry] at nilled
        cases nilled
      exact ⟨by simp [nilled], res, (kept _ unsent).trans full, .inl (outcome_kept _ _ _ outcome)⟩
  · intro w res member hg
    obtain ⟨i, here⟩ := List.mem_iff_getElem?.mp member
    obtain ⟨nilled, empty, outcome⟩ := sound.got w res member hg
    have unsent : ∀ t, D.pending t ≠ some (some w.chan) := by
      intro t entry
      obtain ⟨j, v, hv, ticket, chan, _⟩ := sound.waiter_of_pending entry
      have same := sound.same_chan here hv chan
      subst same
      have eq : v = w := by simpa [here] using hv.symm
      subst eq
      rw [ticket, entry] at nilled
      cases nilled
    exact ⟨by simp [nilled], (kept _ unsent).trans empty, .inl (outcome_kept _ _ _ outcome)⟩
  · intro t res ht
    obtain ⟨made, absent⟩ := sound.stored t res ht
    exact ⟨made, by simp [absent]⟩
  · intro t ht
    cases Finset.notMem_empty t ht
  · intro t ht
    obtain ⟨made, place⟩ := sound.takes t ht
    exact ⟨made, place.imp id fun nilled => by simp [nilled]⟩
  · intro t x hx
    exact .inl (outcome_kept _ _ _ (sound.handed t x hx))

/-- Every stored result is dropped at once. -/
theorem Sound.drop (sound : D.Sound) :
    { D with completed := fun _ => none
             takeIDs := fun t => if (D.completed t).isSome then 0 else D.takeIDs t
             handed := fun t => match D.completed t with
               | some res => ⟨.drop, res, D.takeIDs t⟩ :: D.handed t
               | none => D.handed t : Desk }.Sound := by
  have unstored : ∀ w, some w ∈ D.waiters → D.completed w.ticket = none := by
    intro w member
    cases hc : D.completed w.ticket with
    | none => rfl
    | some res => exact absurd rfl (sound.no_waiter (sound.stored _ res hc).2 member)
  refine { sound with parked := ?_, got := ?_, stored := ?_, takes := ?_, handed := ?_ }
  · intro w member hg
    simpa [unstored w member, Outcome] using sound.parked w member hg
  · intro w r member hg
    simpa [unstored w member, Outcome] using sound.got w r member hg
  · intro j r hj
    cases hj
  · intro j hj
    by_cases present : (D.completed j).isSome = true
    · simp [present] at hj
    · simp only [present, if_false, Bool.false_eq_true] at hj
      obtain ⟨made, place | nilled⟩ := sound.takes j hj
      · exact absurd place present
      · exact ⟨made, .inr nilled⟩
  · intro j x hx
    cases hc : D.completed j with
    | none =>
      simp only [hc] at hx
      exact sound.handed j x hx
    | some res =>
      simp only [hc, List.mem_cons] at hx
      rcases hx with rfl | old
      · exact .inl (sound.stored j res hc).1
      · exact sound.handed j x old

end Desk

end Gusset.Handle
