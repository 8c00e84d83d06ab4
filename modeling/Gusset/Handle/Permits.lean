import Gusset.Handle.Routing

/-! Where every permit is. The semaphore is full of exactly the permits of the tickets in
`semTickets`, of the submitters on their way to an insert, and of the give-backs already decided
but not yet made; each accepted ticket's own permit is in exactly one of these places or was
given back once. -/
namespace Gusset.Handle
open Foundation

-- How often a ticket is in a set: once or not at all.
def has (S : Finset Ticket) (t : Ticket) : Nat := if t ∈ S then 1 else 0

theorem has_of_mem {S : Finset Ticket} {t : Ticket} (h : t ∈ S) : has S t = 1 := if_pos h

theorem has_of_notMem {S : Finset Ticket} {t : Ticket} (h : t ∉ S) : has S t = 0 := if_neg h

theorem has_insert (S : Finset Ticket) (t u : Ticket) :
    has (insert t S) u = if t = u then 1 else has S u := by
  by_cases same : t = u
  · simp [has, same]
  · simp [has, same, Ne.symm same]

theorem has_erase (S : Finset Ticket) (t u : Ticket) :
    has (S.erase t) u = if t = u then 0 else has S u := by
  by_cases same : t = u
  · simp [has, same]
  · simp [has, same, Ne.symm same]

namespace Role

def permits : Role → Nat
  | .holding | .carrying _ | .issuedOwing _ | .owing _ => 1
  | _ => 0

-- A submitter with a permit and no entry in `semTickets` yet.
def holds : Role → Nat
  | .holding | .carrying _ => 1
  | _ => 0

-- A submitter with a permit and no ticket yet.
def bare : Role → Nat
  | .holding => 1
  | _ => 0

-- A caller that took its ticket out of `semTickets` and has the receive still to make.
def releases : Role → Nat
  | .issuedOwing _ | .owing _ => 1
  | _ => 0

theorem permits_eq (r : Role) : r.permits = r.holds + r.releases := by
  cases r <;> rfl

def carries (t : Ticket) : Role → Nat
  | .carrying u => if u = t then 1 else 0
  | _ => 0

def owes (t : Ticket) : Role → Nat
  | .issuedOwing u | .owing u => if u = t then 1 else 0
  | _ => 0

-- The ticket is the caller's own, accepted by Rust and not yet returned by its Submit.
def window (t : Ticket) : Role → Nat
  | .carrying u | .issued u | .issuedOwing u => if u = t then 1 else 0
  | _ => 0

end Role

theorem debt_permits (owes : Bool) (t : Ticket) : (debt owes t).permits = owes.toNat := by
  cases owes <;> rfl

theorem debt_owes (owes : Bool) (t u : Ticket) :
    (debt owes t).owes u = if t = u then owes.toNat else 0 := by
  cases owes <;> simp [debt, Role.owes]

theorem debt_carries (owes : Bool) (t u : Ticket) : (debt owes t).carries u = 0 := by
  cases owes <;> rfl

theorem debt_window (owes : Bool) (t u : Ticket) : (debt owes t).window u = 0 := by
  cases owes <;> rfl

def ReaderRole.owes (t : Ticket) : ReaderRole → Nat
  | .owing u => if u = t then 1 else 0
  | _ => 0

def ReaderRole.permits : ReaderRole → Nat
  | .owing _ => 1
  | _ => 0

namespace CloserRole

def owes (t : Ticket) : CloserRole → Nat
  | .owing u => if u = t then 1 else 0
  | _ => 0

def permits : CloserRole → Nat
  | .owing _ => 1
  | _ => 0

-- Close holds or has held `cgoMu` exclusively: no submitter is inside Rust any more.
def locked : CloserRole → Bool
  | .idle | .closing => false
  | _ => true

-- Close has seen the reader stop.
def readerGone : CloserRole → Bool
  | .draining | .owing _ | .done => true
  | _ => false

end CloserRole

namespace Ledger

structure Permits (cap : Nat) (L : Ledger) : Prop where
  count : L.sh.sem = L.sh.semTickets.card + census Role.permits L.roles + L.reader.permits +
    L.closer.permits
  room : L.sh.sem ≤ cap
  located : ∀ t, L.hist.gaveBack t + has L.sh.semTickets t +
    census (Role.carries t) L.roles + census (Role.owes t) L.roles + L.reader.owes t +
    L.closer.owes t = has L.hist.accepted t
  early : ∀ t, 0 < L.hist.gaveBack t + census (Role.owes t) L.roles + L.reader.owes t +
    L.closer.owes t → (L.hist.delivered t).isSome = true ∨ L.sh.drainExited = true
  window : ∀ t, census (Role.window t) L.roles + has L.hist.returned t =
    has L.hist.accepted t
  locked : L.closer.locked = true → ∀ t, census (Role.carries t) L.roles = 0
  shut : L.sh.closed = true ↔ L.closer ≠ .idle
  stopped : L.closer.readerGone = true → L.reader = .gone
  finished : L.closer = .done → L.sh.semTickets = ∅

variable {cap : Nat} {allowed : Guard} {L L' : Ledger}

/-- What a caller's move has to balance: each count changes by what the caller itself gains
and loses. -/
theorem Permits.caller (p : Permits cap L) {i : Nat} {old new : Role} {sh : Shared}
    {hist : History} (here : L.roles[i]? = some old)
    (count : sh.sem + L.sh.semTickets.card + old.permits =
      L.sh.sem + sh.semTickets.card + new.permits)
    (room : sh.sem ≤ cap)
    (located : ∀ t, hist.gaveBack t + has sh.semTickets t + new.carries t + new.owes t +
      has L.hist.accepted t = L.hist.gaveBack t + has L.sh.semTickets t +
      old.carries t + old.owes t + has hist.accepted t)
    (early : ∀ t, hist.gaveBack t + new.owes t ≤ L.hist.gaveBack t + old.owes t ∨
      (hist.delivered t).isSome = true ∨ sh.drainExited = true)
    (delivered : ∀ t, (L.hist.delivered t).isSome = true → (hist.delivered t).isSome = true)
    (exited : sh.drainExited = L.sh.drainExited)
    (window : ∀ t, new.window t + has hist.returned t + has L.hist.accepted t =
      old.window t + has L.hist.returned t + has hist.accepted t)
    (locked : L.closer.locked = true → ∀ t, new.carries t = 0)
    (closed : sh.closed = L.sh.closed)
    (finished : sh.semTickets ⊆ L.sh.semTickets ∨ L.closer.locked = false) :
    Permits cap { L with sh := sh, hist := hist, roles := L.roles.set i new } where
  count := by
    have moved := census_set Role.permits here new
    have before := p.count
    simp only
    omega
  room := room
  located := by
    intro t
    have carried := census_set (Role.carries t) here new
    have owed := census_set (Role.owes t) here new
    have before := p.located t
    have change := located t
    simp only
    omega
  early := by
    intro t owing
    have owed := census_set (Role.owes t) here new
    simp only at owing ⊢
    rcases early t with less | done
    · rcases p.early t (by omega) with c | e
      · exact .inl (delivered t c)
      · exact .inr (exited.trans e)
    · exact done
  window := by
    intro t
    have moved := census_set (Role.window t) here new
    have before := p.window t
    have change := window t
    simp only
    omega
  locked := by
    intro hl t
    have moved := census_set (Role.carries t) here new
    have before := p.locked hl t
    have mine := locked hl t
    simp only
    omega
  shut := by
    simp only [closed]
    exact p.shut
  stopped := p.stopped
  finished := by
    intro done
    rcases finished with fewer | early
    · exact Finset.subset_empty.mp (p.finished done ▸ fewer)
    · have h : L.closer = .done := done
      rw [h] at early
      cases early

/-- A receive on the semaphore that ends a debt of ticket `t`. -/
theorem Permits.caller_pays (p : Permits cap L) {i : Nat} {old new : Role} {t : Ticket}
    (here : L.roles[i]? = some old) (some_one : 0 < L.sh.sem)
    (owed : ∀ u, old.owes u = if t = u then 1 else 0) (held : old.permits = 1)
    (paid : ∀ u, new.owes u = 0)
    (free : new.permits = 0) (carried : ∀ u, new.carries u = old.carries u)
    (window : ∀ u, new.window u = old.window u) (uncarried : ∀ u, old.carries u = 0) :
    Permits cap { L with sh := { L.sh with sem := L.sh.sem - 1 }
                         hist := L.hist.giveBack t, roles := L.roles.set i new } := by
  have once := le_census (Role.owes t) here
  have early := p.early t (by have := owed t; simp at this; omega)
  refine p.caller here ?_ ?_ ?_ ?_ (fun _ h => h) rfl ?_ ?_ rfl (.inl fun _ h => h)
  · simp only [held, free]
    omega
  · have := p.room
    simp only
    omega
  · intro u
    simp only [History.giveBack, Function.update_apply, owed, paid, carried]
    by_cases same : u = t
    · subst same
      simp only [if_true]
      omega
    · simp only [same, Ne.symm same, if_false]
  · intro u
    by_cases same : u = t
    · subst same
      exact .inr early
    · left
      simp [History.giveBack, same, owed, paid, Ne.symm same]
  · intro u
    simp only [History.giveBack, window]
  · intro _ u
    simp [carried, uncarried]

/-- Ending a claim, on a stored result or by a waiter: a permit still in `semTickets` becomes a
debt of the caller. -/
theorem Permits.caller_collects (p : Permits cap L) {i : Nat} {old : Role} {t : Ticket}
    {sh : Shared} {hist : History} (here : L.roles[i]? = some old)
    (idle : old.permits = 0 ∧ ∀ u, old.owes u = 0 ∧ old.carries u = 0 ∧ old.window u = 0)
    (sem : sh.sem = L.sh.sem) (tickets : sh.semTickets = L.sh.semTickets.erase t)
    (exited : sh.drainExited = L.sh.drainExited) (closed : sh.closed = L.sh.closed)
    (gaveBack : hist.gaveBack = L.hist.gaveBack) (accepted : hist.accepted = L.hist.accepted)
    (delivered : hist.delivered = L.hist.delivered) (returned : hist.returned = L.hist.returned)
    (halted : (L.hist.delivered t).isSome = true ∨ L.sh.drainExited = true) :
    Permits cap { L with sh := sh, hist := hist
                         roles := L.roles.set i (debt (decide (t ∈ L.sh.semTickets)) t) } := by
  obtain ⟨unheld, bare⟩ := idle
  have fewer : sh.semTickets ⊆ L.sh.semTickets := tickets ▸ Finset.erase_subset t _
  refine p.caller here ?_ (by rw [sem]; exact p.room) ?_ ?_ (by simp [delivered]) exited ?_ ?_
    closed (.inl fewer)
  · by_cases held : t ∈ L.sh.semTickets
    · have card := Finset.card_erase_add_one held
      simp only [sem, tickets, unheld, held, decide_true, debt_permits, Bool.toNat_true]
      omega
    · simp [sem, tickets, unheld, held, debt_permits]
  · intro u
    obtain ⟨owes, carries, _⟩ := bare u
    simp only [gaveBack, accepted, tickets, owes, carries, debt_owes, debt_carries, has_erase]
    by_cases same : t = u
    · subst same
      by_cases held : t ∈ L.sh.semTickets <;> simp [held, has_of_mem, has_of_notMem]
    · simp [same]
  · intro u
    by_cases same : t = u
    · right
      rw [← same, delivered, exited]
      exact halted
    · left
      simp [gaveBack, debt_owes, same]
  · intro u
    simp only [returned, accepted, (bare u).2.2, debt_window]
  · intro _ u
    exact debt_carries _ _ _

/-- A caller's step that moves no permit. -/
theorem Permits.caller_quiet (p : Permits cap L) {i : Nat} {old new : Role} {sh : Shared}
    {hist : History} (here : L.roles[i]? = some old)
    (same : new.permits = old.permits ∧ ∀ u, new.owes u = old.owes u ∧
      new.carries u = old.carries u ∧ new.window u = old.window u)
    (uncarried : ∀ u, old.carries u = 0)
    (sem : sh.sem = L.sh.sem) (tickets : sh.semTickets = L.sh.semTickets)
    (exited : sh.drainExited = L.sh.drainExited) (closed : sh.closed = L.sh.closed)
    (gaveBack : hist.gaveBack = L.hist.gaveBack) (accepted : hist.accepted = L.hist.accepted)
    (delivered : hist.delivered = L.hist.delivered) (returned : hist.returned = L.hist.returned) :
    Permits cap { L with sh := sh, hist := hist, roles := L.roles.set i new } := by
  obtain ⟨permits, roles⟩ := same
  refine p.caller here (by simp [sem, tickets, permits]) (by rw [sem]; exact p.room) ?_ ?_
    (by simp [delivered]) exited ?_ ?_ closed (.inl (by simp [tickets]))
  · intro u
    simp [gaveBack, accepted, tickets, roles u]
  · intro u
    left
    simp [gaveBack, roles u]
  · intro u
    simp [returned, accepted, roles u]
  · intro _ u
    simp [roles u, uncarried]

theorem Permits.stored_over (desk : L.desk.Sound) {t : Ticket} {res : CallResult}
    (present : L.sh.completed.lookup t = some res) : (L.hist.delivered t).isSome = true := by
  have made : L.hist.delivered t = some _ := (desk.stored t res present).1
  rw [made]
  rfl

theorem Permits.received_over (desk : L.desk.Sound) {i : Nat} {op : Op}
    {t : Ticket} {c : Nat} {res : CallResult} (here : L.roles[i]? = some (.received op t c res)) :
    (L.hist.delivered t).isSome = true ∨ L.sh.drainExited = true := by
  have member : some ⟨op, t, c, some res⟩ ∈ L.desk.waiters :=
    List.mem_map.mpr ⟨_, List.mem_of_getElem? here, rfl⟩
  rcases (desk.got _ res member rfl).2.2 with made | left
  · have made : L.hist.delivered t = some _ := made
    exact .inl (by rw [made]; rfl)
  · exact .inr left.1

theorem Permits.insert (p : Permits cap L) (desk : L.desk.Sound)
    {i : Nat} {t : Ticket} (here : L.roles[i]? = some (.carrying t)) :
    Permits cap { L with
      sh := (L.sh.insertLocked t).2
      roles := L.roles.set i (if (L.sh.insertLocked t).1 then .issuedOwing t else .issued t) } := by
  have mine := le_census (Role.carries t) here
  have where_ := p.located t
  have unlocked : L.closer.locked = false := by
    by_contra sealed
    have zero := p.locked (by simpa using sealed) t
    simp [Role.carries] at mine
    omega
  -- The ticket's permit is with its submitter, so it is not in `semTickets` yet.
  have outside : t ∉ L.sh.semTickets := by
    intro inside
    simp only [Role.carries, if_true, has_of_mem inside] at mine where_
    unfold has at where_
    split at where_ <;> omega
  unfold Shared.insertLocked
  by_cases stored : t ∈ L.sh.completed.keys
  · simp only [stored, if_true, Finset.erase_insert outside]
    obtain ⟨res, present⟩ := Option.isSome_iff_exists.mp ((GoMap.mem_keys _ _).mp stored)
    have halted := Permits.stored_over desk present
    refine p.caller here rfl p.room (fun u => by simp only [Role.carries, Role.owes]; omega) ?_
      (fun _ h => h) rfl (fun u => rfl) (fun _ u => rfl) rfl (.inr unlocked)
    intro u
    by_cases same : t = u
    · exact .inr (.inl (same ▸ halted))
    · left
      simp [Role.owes, same]
  · simp only [stored, if_false, Bool.false_eq_true]
    refine p.caller here ?_ p.room (fun u => ?_) (fun u => .inl (Nat.le_refl _)) (fun _ h => h) rfl
      (fun u => rfl) (fun _ u => rfl) rfl (.inr unlocked)
    · have card := Finset.card_insert_of_notMem outside
      simp only [card, Role.permits]
      omega
    · by_cases same : t = u
      · subst same
        simp only [has_insert, if_true, Role.carries, Role.owes, has_of_notMem outside]
      · simp [has_insert, same, Role.carries, Role.owes]

/-- The same balance for a move of the reader or of Close. -/
theorem Permits.others (p : Permits cap L) {sh : Shared} {hist : History} {rd : ReaderRole}
    {cl : CloserRole}
    (count : sh.sem + L.sh.semTickets.card + L.reader.permits + L.closer.permits =
      L.sh.sem + sh.semTickets.card + rd.permits + cl.permits)
    (room : sh.sem ≤ cap)
    (located : ∀ t, hist.gaveBack t + has sh.semTickets t + rd.owes t + cl.owes t =
      L.hist.gaveBack t + has L.sh.semTickets t + L.reader.owes t + L.closer.owes t)
    (accepted : hist.accepted = L.hist.accepted)
    (early : ∀ t, hist.gaveBack t + rd.owes t + cl.owes t ≤
      L.hist.gaveBack t + L.reader.owes t + L.closer.owes t ∨
      (hist.delivered t).isSome = true ∨ sh.drainExited = true)
    (delivered : ∀ t, (L.hist.delivered t).isSome = true → (hist.delivered t).isSome = true)
    (exited : L.sh.drainExited = true → sh.drainExited = true)
    (returned : hist.returned = L.hist.returned)
    (locked : cl.locked = true → L.closer.locked = true ∨ ∀ t, Role.carrying t ∉ L.roles)
    (shut : sh.closed = true ↔ cl ≠ .idle) (stopped : cl.readerGone = true → rd = .gone)
    (finished : cl = .done → sh.semTickets = ∅) :
    Permits cap { L with sh := sh, hist := hist, reader := rd, closer := cl } where
  count := by
    have before := p.count
    simp only
    omega
  room := room
  located := by
    intro t
    have before := p.located t
    have change := located t
    simp only [accepted]
    omega
  early := by
    intro t owing
    simp only at owing ⊢
    rcases early t with less | done
    · rcases p.early t (by omega) with c | e
      · exact .inl (delivered t c)
      · exact .inr (exited e)
    · exact done
  window := by
    intro t
    simpa only [returned, accepted] using p.window t
  locked := by
    intro sealed t
    rcases locked sealed with before | empty
    · exact p.locked before t
    · apply census_eq_zero
      intro r member
      cases r with
      | carrying u => exact absurd member (empty u)
      | _ => rfl
  shut := shut
  stopped := stopped
  finished := finished

/-- `deliver` off the waiter's path: a permit still in `semTickets` becomes the reader's debt. -/
theorem Permits.reader_collects (p : Permits cap L) {t : Ticket}
    {sh : Shared} {hist : History} {rd : ReaderRole} (here : L.reader = .hand t)
    (sem : sh.sem = L.sh.sem) (tickets : sh.semTickets = L.sh.semTickets.erase t)
    (exited : sh.drainExited = L.sh.drainExited) (closed : sh.closed = L.sh.closed)
    (gaveBack : hist.gaveBack = L.hist.gaveBack) (accepted : hist.accepted = L.hist.accepted)
    (delivered : ∃ x, hist.delivered = Function.update L.hist.delivered t (some x))
    (returned : hist.returned = L.hist.returned)
    (owes : rd = if t ∈ L.sh.semTickets then .owing t else .away) :
    Permits cap { L with sh := sh, hist := hist, reader := rd } := by
  obtain ⟨x, delivered⟩ := delivered
  have halted : (hist.delivered t).isSome = true := by simp [delivered]
  have kept : ∀ u, (L.hist.delivered u).isSome = true → (hist.delivered u).isSome = true := by
    intro u before
    by_cases same : u = t
    · rw [same]
      exact halted
    · rwa [delivered, Function.update_of_ne same]
  have present : L.closer.readerGone = false := by
    by_contra gone
    have h := p.stopped (by simpa using gone)
    rw [here] at h
    cases h
  subst owes
  refine p.others ?_ (by rw [sem]; exact p.room) ?_ accepted ?_ kept
    (by simp [exited]) returned .inl (by rw [closed]; exact p.shut) ?_ ?_
  · by_cases held : t ∈ L.sh.semTickets
    · have card := Finset.card_erase_add_one held
      simp only [sem, tickets, here, held, if_true, ReaderRole.permits]
      omega
    · simp [sem, tickets, here, held, ReaderRole.permits]
  · intro u
    simp only [gaveBack, tickets, has_erase, here]
    by_cases same : t = u
    · subst same
      by_cases held : t ∈ L.sh.semTickets <;>
        simp [held, has_of_mem, has_of_notMem, ReaderRole.owes]
    · by_cases held : t ∈ L.sh.semTickets <;> simp [held, same, ReaderRole.owes]
  · intro u
    by_cases same : t = u
    · right
      rw [← same]
      exact .inl halted
    · left
      by_cases held : t ∈ L.sh.semTickets <;>
        simp [gaveBack, here, held, same, ReaderRole.owes]
  · intro draining
    rw [present] at draining
    cases draining
  · intro done
    simp [tickets, p.finished done]

/-- A receive on the semaphore by the reader or by Close. -/
theorem Permits.other_pays (p : Permits cap L) {t : Ticket} {rd : ReaderRole} {cl : CloserRole}
    (some_one : 0 < L.sh.sem)
    (held : L.reader.permits + L.closer.permits = rd.permits + cl.permits + 1)
    (owed : ∀ u, L.reader.owes u + L.closer.owes u = rd.owes u + cl.owes u + if t = u then 1 else 0)
    (locked : cl.locked = L.closer.locked) (shut : cl ≠ .idle ↔ L.closer ≠ .idle)
    (stopped : cl.readerGone = true → rd = .gone) (unfinished : cl = .done → L.closer = .done) :
    Permits cap { L with sh := { L.sh with sem := L.sh.sem - 1 }
                         hist := L.hist.giveBack t, reader := rd, closer := cl } := by
  have room := p.room
  have early := p.early t (by have := owed t; simp only [if_true] at this; omega)
  refine p.others (by simp only; omega) (by simp only; omega) ?_ rfl ?_ (fun _ h => h) (fun h => h)
    rfl (fun h => .inl (locked ▸ h)) (p.shut.trans shut.symm) stopped
    (fun done => p.finished (unfinished done))
  · intro u
    have change := owed u
    simp only [History.giveBack, Function.update_apply]
    by_cases same : u = t
    · subst same
      simp only [if_true] at change ⊢
      omega
    · simp only [same, Ne.symm same, if_false] at change ⊢
      omega
  · intro u
    by_cases same : u = t
    · exact .inr (same ▸ early)
    · left
      have change := owed u
      simp only [Ne.symm same, if_false] at change
      simp only [History.giveBack, Function.update_apply, same, if_false]
      omega

/-- One move keeps every permit where the books say it is. -/
theorem Move.permits (move : Move cap allowed L L') (reader : L.ReaderSound)
    (desk : L.desk.Sound) (p : Permits cap L) : Permits cap L' := by
  cases move with
  | spawn =>
    refine { p with count := ?_, located := ?_, early := ?_, window := ?_, locked := ?_ }
    · simpa [Role.permits] using p.count
    · simpa [Role.carries, Role.owes] using p.located
    · simpa [Role.owes] using p.early
    · simpa [Role.window] using p.window
    · simpa [Role.carries] using p.locked
  | acquire i here room =>
    refine p.caller here ?_ room (fun u => rfl) (fun u => .inl (Nat.le_refl _)) (fun _ h => h) rfl
      (fun u => rfl) (fun _ u => rfl) rfl (.inl fun _ h => h)
    simp only [Role.permits]
    omega
  | giveBack i here some_one =>
    have room := p.room
    refine p.caller here ?_ (by simp only; omega) (fun u => rfl) (fun u => .inl (Nat.le_refl _))
      (fun _ h => h) rfl (fun u => rfl) (fun _ u => rfl) rfl (.inl fun _ h => h)
    simp only [Role.permits]
    omega
  | accept i t here new early =>
    have unlocked : L.closer.locked = false := by
      rcases early with h | h <;> simp [h, CloserRole.locked]
    refine p.caller here rfl p.room (fun u => ?_) (fun u => .inl (Nat.le_refl _)) (fun _ h => h) rfl
      (fun u => ?_) ?_ rfl (.inr unlocked)
    · by_cases same : t = u
      · subst same
        simp [History.accept, has_insert, Role.carries, Role.owes, has_of_notMem new]
      · simp [History.accept, has_insert, Role.carries, Role.owes, same]
    · by_cases same : t = u
      · subst same
        simp only [History.accept, has_insert, Role.window, has_of_notMem new, if_true]
        omega
      · simp [History.accept, has_insert, Role.window, same]
    · intro sealed
      rw [unlocked] at sealed
      cases sealed
  | insert i t here => exact p.insert desk here
  | release i t here some_one =>
    exact p.caller_pays here some_one (fun u => rfl) rfl (fun u => rfl) rfl (fun u => rfl)
      (fun u => rfl) (fun u => rfl)
  | ret i t here =>
    have mine := le_census (Role.window t) here
    have before := p.window t
    -- The ticket is still in its own Submit, so it was not returned before.
    have new : t ∉ L.hist.returned := by
      intro returned
      simp only [Role.window, if_true, has_of_mem returned] at mine before
      unfold has at before
      split at before <;> omega
    refine p.caller here rfl p.room (fun u => rfl) (fun u => .inl (Nat.le_refl _)) (fun _ h => h)
      rfl (fun u => ?_) (fun _ u => rfl) rfl (.inl fun _ h => h)
    by_cases same : t = u
    · subst same
      simp only [History.ret, has_insert, Role.window, has_of_notMem new, if_true]
    · simp [History.ret, has_insert, Role.window, same]
  | claim i t sink res id owes sh here may done =>
    obtain ⟨present, rfl, rfl, rfl⟩ := claim_done done
    exact p.caller_collects here ⟨rfl, fun u => ⟨rfl, rfl, rfl⟩⟩ rfl rfl rfl rfl rfl rfl rfl rfl
      (.inl (Permits.stored_over desk present))
  | register i t op here may live =>
    obtain ⟨fields, _⟩ := register_chosen L.sh t
    refine p.caller_quiet here ⟨rfl, fun u => ⟨rfl, rfl, rfl⟩⟩ (fun u => rfl) ?_ ?_ ?_ ?_ rfl rfl
      rfl rfl <;> rw [fields]
  | discard i t here may live => exact { p with }
  | receive i op t c res here full =>
    exact p.caller_quiet here ⟨rfl, fun u => ⟨rfl, rfl, rfl⟩⟩ (fun u => rfl) rfl rfl rfl rfl rfl rfl
      rfl rfl
  | collect i op t c res id owes sh here done =>
    obtain ⟨fields, _⟩ := recycle_chosen cap L.sh c
    have halted := Permits.received_over desk here
    rw [collect_fields, fields] at done
    cases done
    exact p.caller_collects here ⟨rfl, fun u => ⟨rfl, rfl, rfl⟩⟩ rfl rfl rfl rfl rfl rfl rfl rfl halted
  | detach i op t c here empty =>
    obtain ⟨fields, _⟩ := recycle_chosen cap { L.sh with pending := L.sh.pending.erase t } c
    unfold Shared.detachLocked Shared.abandonLocked
    rw [fields]
    exact p.caller_quiet here ⟨rfl, fun u => ⟨rfl, rfl, rfl⟩⟩ (fun u => rfl) rfl rfl rfl rfl rfl rfl
      rfl rfl
  | payBack i t here some_one =>
    exact p.caller_pays here some_one (fun u => rfl) rfl (fun u => rfl) rfl (fun u => rfl)
      (fun u => rfl) (fun u => rfl)
  | consume t here taken new =>
    refine p.others (by simp [here, ReaderRole.permits]) p.room (fun u => ?_) rfl (fun u => .inl ?_)
      (fun _ h => h) (fun h => h) rfl .inl p.shut ?_ p.finished
    · simp [here, ReaderRole.owes, History.consume]
    · simp [here, ReaderRole.owes, History.consume]
    · intro draining
      have gone := p.stopped draining
      rw [here] at gone
      cases gone
  | deliver t res id route sh here ready routed =>
    have untaken := (desk.undelivered (reader.hand t here).1 (running reader here (by simp))).1
    cases route with
    | binned held =>
      obtain ⟨_, rfl, rfl⟩ := deliver_binned routed
      refine p.reader_collects here ?_ ?_ ?_ ?_ ?_ ?_ ⟨_, rfl⟩ ?_ ?_
      case refine_8 => by_cases held : t ∈ L.sh.semTickets <;> simp [held]
      all_goals rfl
    | sent =>
      obtain ⟨_, c, _, rfl⟩ := deliver_sent untaken routed
      refine p.others (by simp [here, ReaderRole.permits]) p.room (fun u => ?_) rfl
        (fun u => .inl ?_) (fun u before => ?_) (fun h => h) rfl .inl p.shut ?_ p.finished
      · simp [here, ReaderRole.owes, History.route, History.deliver]
      · simp [here, ReaderRole.owes, History.route, History.deliver]
      · simp only [History.route, History.deliver, Function.update_apply]
        split
        · rfl
        · exact before
      · intro draining
        have gone := p.stopped draining
        rw [here] at gone
        cases gone
    | stored held =>
      obtain ⟨_, _, rfl, rfl⟩ := deliver_stored untaken routed
      refine p.reader_collects here ?_ ?_ ?_ ?_ ?_ ?_ ⟨_, rfl⟩ ?_ ?_
      case refine_8 => by_cases held : t ∈ L.sh.semTickets <;> simp [held]
      all_goals rfl
  | readerPays t here some_one =>
    refine p.other_pays some_one ?_ (fun u => ?_) rfl Iff.rfl ?_ (fun h => h)
    · simp only [here, ReaderRole.permits]
      omega
    · simp only [here, ReaderRole.owes]
      omega
    · intro draining
      have gone := p.stopped draining
      rw [here] at gone
      cases gone
  | stop waiterErr here isClosed ready =>
    have fields := stop_fields L.sh waiterErr
    have same : (L.sh.stopReading waiterErr).2.semTickets = L.sh.semTickets ∧
        (L.sh.stopReading waiterErr).2.sem = L.sh.sem ∧
        (L.sh.stopReading waiterErr).2.closed = L.sh.closed := by
      rw [fields]
      by_cases shut : L.sh.closed = true <;> simp [shut, Shared.takeUnclaimedLocked,
        Shared.notifyUncollectedLocked]
    obtain ⟨tickets, sem, closed⟩ := same
    have history : ∀ h : History, h = (if L.sh.closed then L.hist else L.hist.dropAll L.sh) →
        h.gaveBack = L.hist.gaveBack ∧ h.accepted = L.hist.accepted ∧
        h.delivered = L.hist.delivered ∧ h.returned = L.hist.returned := by
      rintro h rfl
      split <;> exact ⟨rfl, rfl, rfl, rfl⟩
    obtain ⟨gaveBack, accepted, delivered, returned⟩ := history _ rfl
    refine p.others ?_ (by rw [sem]; exact p.room) (fun u => ?_) accepted (fun u => .inr (.inr ?_))
      (by simp [delivered]) (fun _ => ?_) returned .inl (by rw [closed]; exact p.shut)
      (fun _ => rfl) (by rw [tickets]; exact p.finished)
    · simp [sem, tickets, here, ReaderRole.permits]
    · simp [gaveBack, tickets, here, ReaderRole.owes]
    · rw [fields]
    · rw [fields]
  | close here =>
    exact p.others (by simp [here, CloserRole.permits]) p.room
      (fun u => by simp [here, CloserRole.owes]) rfl
      (fun u => .inl (by simp [here, CloserRole.owes])) (fun _ h => h) (fun h => h) rfl
      (fun h => by cases h) (by simp) (fun h => by cases h) (fun h => by cases h)
  | lock here empty =>
    have shut := p.shut
    exact p.others (by simp [here, CloserRole.permits]) p.room
      (fun u => by simp [here, CloserRole.owes]) rfl
      (fun u => .inl (by simp [here, CloserRole.owes])) (fun _ h => h) (fun h => h) rfl
      (fun _ => .inr empty) (by simpa [here] using shut) (fun h => by cases h) (fun h => by cases h)
  | dropUnclaimed here => exact { p with }
  | drain here gone =>
    have shut := p.shut
    exact p.others
      (by simp [here, CloserRole.permits, Shared.takeUnclaimedLocked,
        Shared.notifyUncollectedLocked])
      p.room (fun u => by simp [here, CloserRole.owes, History.dropAll,
        Shared.takeUnclaimedLocked, Shared.notifyUncollectedLocked]) rfl
      (fun u => .inl (by simp [here, CloserRole.owes, History.dropAll])) (fun _ h => h)
      (fun h => h) rfl (fun _ => .inl (by simp [here, CloserRole.locked]))
      (by simpa [here, Shared.takeUnclaimedLocked, Shared.notifyUncollectedLocked] using shut)
      (fun _ => gone) (fun h => by cases h)
  | drainTicket t here held =>
    have shut := p.shut
    have gone := p.stopped (by simp [here, CloserRole.readerGone])
    have exited := reader.gone.mpr gone
    refine p.others ?_ p.room (fun u => ?_) rfl (fun u => .inr (.inr exited)) (fun _ h => h)
      (fun h => h) rfl (fun _ => .inl (by simp [here, CloserRole.locked]))
      (by simpa [here] using shut) (fun _ => gone) (fun h => by cases h)
    · have card := Finset.card_erase_add_one held
      simp only [here, CloserRole.permits]
      omega
    · by_cases same : t = u
      · subst same
        simp [has_erase, has_of_mem held, here, CloserRole.owes]
        omega
      · simp [has_erase, same, here, CloserRole.owes]
  | closerPays t here some_one =>
    have gone := p.stopped (by simp [here, CloserRole.readerGone])
    refine p.other_pays some_one ?_ (fun u => ?_) (by simp [here, CloserRole.locked])
      (by simp [here]) (fun _ => gone) (fun h => by cases h)
    · simp [here, CloserRole.permits]
    · simp [here, CloserRole.owes]
  | drained here empty =>
    have shut := p.shut
    exact p.others (by simp [here, CloserRole.permits]) p.room
      (fun u => by simp [here, CloserRole.owes]) rfl
      (fun u => .inl (by simp [here, CloserRole.owes])) (fun _ h => h) (fun h => h) rfl
      (fun _ => .inl (by simp [here, CloserRole.locked])) (by simpa [here] using shut)
      (fun _ => p.stopped (by simp [here, CloserRole.readerGone])) (fun _ => empty)
  | note drainErr uncollected => exact { p with }

theorem sum_has_le (A S : Finset Ticket) : ∑ t ∈ A, has S t ≤ S.card := by
  simp only [has, ← Finset.card_filter]
  apply Finset.card_le_card
  intro t member
  exact (Finset.mem_filter.mp member).2

theorem sum_carries_le (A : Finset Ticket) (roles : List Role) :
    ∑ t ∈ A, census (Role.carries t) roles + census Role.bare roles ≤ census Role.holds roles := by
  induction roles with
  | nil => simp
  | cons r roles ih =>
    simp only [census_cons, Finset.sum_add_distrib]
    have mine : ∑ t ∈ A, r.carries t + r.bare ≤ r.holds := by
      cases r with
      | carrying u =>
        simp only [Role.carries, Role.holds, Role.bare, Finset.sum_ite_eq]
        split <;> omega
      | _ => simp [Role.carries, Role.holds, Role.bare]
    omega

/-- While the reader runs, the tickets Rust accepted whose completion is not delivered, and the
submitters with a permit and no ticket yet, are no more than the permits. -/
theorem Permits.undelivered_le (p : Permits cap L) (running : L.sh.drainExited = false)
    {A : Finset Ticket} (accepted : A ⊆ L.hist.accepted)
    (undelivered : ∀ t ∈ A, L.hist.delivered t = none) : A.card + census Role.bare L.roles ≤ cap := by
  have each : ∀ t ∈ A, 1 ≤ has L.sh.semTickets t + census (Role.carries t) L.roles := by
    intro t member
    have early := mt (p.early t) (by simp [undelivered t member, running])
    have total := p.located t
    rw [has_of_mem (accepted member)] at total
    omega
  have sum := Finset.sum_le_sum each
  have live := sum_has_le A L.sh.semTickets
  have carried := sum_carries_le A L.roles
  have held : census Role.holds L.roles ≤ census Role.permits L.roles :=
    census_le _ _ fun r _ => by rw [r.permits_eq]; omega
  have count := p.count
  have room := p.room
  rw [← Finset.card_eq_sum_ones, Finset.sum_add_distrib] at sum
  omega

/-- So are the accepted tickets that the reader has not consumed. -/
theorem Permits.unconsumed_le (p : Permits cap L) (reader : L.ReaderSound)
    (running : L.sh.drainExited = false) : (L.hist.accepted \ L.hist.consumed).card ≤ cap := by
  have most := p.undelivered_le running (Finset.sdiff_subset (s := L.hist.accepted)) (by
    intro t member
    by_contra made
    exact (Finset.mem_sdiff.mp member).2
      (reader.delivered t (by simpa [Option.isSome_iff_ne_none] using made)))
  omega

end Ledger

end Gusset.Handle
