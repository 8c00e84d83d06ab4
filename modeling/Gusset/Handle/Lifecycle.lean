import Gusset.Handle.Permits

/-! The life of one ticket. As long as nobody claims a ticket that its own Submit has not
returned, a ticket is live, waited on, stored, abandoned or spent, in that order, and its outcome
is handed out once. -/
namespace Gusset.Handle
open Foundation

/-- Everything the ledger says about one ticket. -/
structure Slip where
  live : Prop
  pending : Option (Option Nat)
  stored : Prop
  abandoned : Prop
  delivered : Prop
  returned : Prop
  spent : Prop
  carried : Prop
  handed : List Handover

namespace Slip

structure Sound (exited : Prop) (s : Slip) : Prop where
  stored : s.stored → ¬ s.live ∧ s.delivered ∧ s.handed = []
  abandoned : s.abandoned → s.live ∧ ¬ s.delivered ∧ ¬ exited
  waiting : ∀ c, s.pending = some (some c) → s.live ∧ ¬ s.delivered ∧ ¬ exited
  sent : s.pending = some none → s.live ∨ exited
  registered : s.pending ≠ none → s.returned ∧ s.handed = [] ∧ ¬ s.stored ∧ ¬ s.abandoned
  live : s.live → s.delivered → s.pending = some none ∨ exited
  carried : s.carried → ¬ s.returned ∧ (s.delivered → s.stored ∨ exited)
  spent : s.spent → s.returned ∧ ¬ s.stored ∧ s.pending = none ∧ (s.live → s.abandoned ∨ exited) ∧
    (s.delivered ∨ s.abandoned ∨ exited)
  kept : s.abandoned → s.returned
  unhanded : ¬ s.delivered → ¬ exited → s.handed = []
  once : s.handed.length ≤ 1

variable {exited : Prop} {s : Slip}

theorem Sound.accept (sound : s.Sound exited) (new : ¬ s.returned)
    (undelivered : ¬ s.delivered) : { s with carried := True : Slip }.Sound exited :=
  { sound with carried := fun _ => ⟨new, fun made => absurd made undelivered⟩ }

/-- Submit's insert, which leaves the ticket live unless its result is stored already. -/
theorem Sound.insert (sound : s.Sound exited) (carried : s.carried) :
    { s with live := ¬ s.stored, carried := False : Slip }.Sound exited := by
  obtain ⟨unreturned, early⟩ := sound.carried carried
  have unspent : ¬ s.spent := fun spent => unreturned (sound.spent spent).1
  have unkept : ¬ s.abandoned := fun kept => unreturned (sound.kept kept)
  have unwaited : s.pending = none := by
    by_contra waited
    exact unreturned (sound.registered waited).1
  constructor
  · intro stored
    exact ⟨fun unstored => unstored stored, (sound.stored stored).2⟩
  · intro kept
    exact absurd kept unkept
  · intro c entry
    rw [show s.pending = none from unwaited] at entry
    cases entry
  · intro entry
    rw [show s.pending = none from unwaited] at entry
    cases entry
  · exact sound.registered
  · intro unstored made
    rcases early made with stored | left
    · exact absurd stored unstored
    · exact .inr left
  · exact False.elim
  · intro spent
    exact absurd spent unspent
  · exact sound.kept
  · exact sound.unhanded
  · exact sound.once

theorem Sound.ret (sound : s.Sound exited) (uncarried : ¬ s.carried) :
    { s with returned := True : Slip }.Sound exited :=
  { sound with
    registered := fun waited => ⟨trivial, (sound.registered waited).2⟩
    carried := fun carried => absurd carried uncarried
    spent := fun spent => ⟨trivial, (sound.spent spent).2⟩
    kept := fun _ => trivial }

/-- A caller takes the outcome: out of `completed`, or as the ticket's waiter. -/
theorem Sound.take (sound : s.Sound exited) (x : Handover) (returned : s.returned)
    (held : s.stored ∨ s.pending = some none) (halted : s.delivered ∨ exited) :
    { s with live := False, pending := none, stored := False, spent := True
             handed := x :: s.handed : Slip }.Sound exited := by
  have unkept : ¬ s.abandoned := by
    intro kept
    obtain ⟨_, undelivered, running⟩ := sound.abandoned kept
    rcases halted with made | left
    · exact undelivered made
    · exact running left
  have empty : s.handed = [] := by
    rcases held with stored | sent
    · exact (sound.stored stored).2.2
    · exact (sound.registered (by simp [sent])).2.1
  constructor
  · exact False.elim
  · intro kept
    exact absurd kept unkept
  · intro c entry
    cases entry
  · intro entry
    cases entry
  · intro waited
    exact absurd rfl waited
  · exact False.elim
  · intro carried
    exact absurd returned (sound.carried carried).1
  · intro _
    refine ⟨returned, fun h => h, rfl, False.elim, ?_⟩
    rcases halted with made | left
    · exact .inl made
    · exact .inr (.inr left)
  · exact sound.kept
  · intro undelivered running
    rcases halted with made | left
    · exact absurd made undelivered
    · exact absurd left running
  · simp [empty]

theorem Sound.register (sound : s.Sound exited) (c : Nat) (returned : s.returned) (live : s.live)
    (unstored : ¬ s.stored) (unkept : ¬ s.abandoned) (unwaited : s.pending = none)
    (running : ¬ exited) : { s with pending := some (some c) : Slip }.Sound exited := by
  have undelivered : ¬ s.delivered := by
    intro made
    rcases sound.live live made with sent | left
    · rw [unwaited] at sent
      cases sent
    · exact running left
  refine { sound with waiting := ?_, sent := ?_, registered := ?_, live := ?_, spent := ?_ }
  · intro _ _
    exact ⟨live, undelivered, running⟩
  · intro entry
    cases entry
  · intro _
    exact ⟨returned, sound.unhanded undelivered running, unstored, unkept⟩
  · intro _ made
    exact absurd made undelivered
  · intro spent
    rcases (sound.spent spent).2.2.2.1 live with kept | left
    · exact absurd kept unkept
    · exact absurd left running

/-- A caller gives the ticket up before its outcome: by Discard, or at its deadline. -/
theorem Sound.abandon (sound : s.Sound exited) (returned : s.returned) (live : s.live)
    (undelivered : ¬ s.delivered) (unstored : ¬ s.stored) (running : ¬ exited) :
    { s with pending := none, abandoned := True, spent := True : Slip }.Sound exited := by
  constructor
  · exact sound.stored
  · intro _
    exact ⟨live, undelivered, running⟩
  · intro c entry
    cases entry
  · intro entry
    cases entry
  · intro waited
    exact absurd rfl waited
  · intro _ made
    exact absurd made undelivered
  · exact sound.carried
  · intro _
    exact ⟨returned, unstored, rfl, fun _ => .inl trivial, .inr (.inl trivial)⟩
  · intro _
    exact returned
  · exact sound.unhanded
  · exact sound.once

theorem Sound.bin (sound : s.Sound exited) (x : Handover) (kept : s.abandoned) :
    { s with abandoned := False, live := False, delivered := True
             handed := x :: s.handed : Slip }.Sound exited := by
  obtain ⟨_, undelivered, running⟩ := sound.abandoned kept
  have empty := sound.unhanded undelivered running
  have unwaited : s.pending = none := by
    by_contra waited
    exact (sound.registered waited).2.2.2 kept
  have unstored : ¬ s.stored := fun stored => undelivered (sound.stored stored).2.1
  constructor
  · intro stored
    exact absurd stored unstored
  · exact False.elim
  · intro c entry
    rw [show s.pending = none from unwaited] at entry
    cases entry
  · intro entry
    rw [show s.pending = none from unwaited] at entry
    cases entry
  · intro waited
    exact absurd unwaited waited
  · exact False.elim
  · intro carried
    exact absurd (sound.kept kept) (sound.carried carried).1
  · intro spent
    have old := sound.spent spent
    exact ⟨old.1, old.2.1, old.2.2.1, False.elim, .inl trivial⟩
  · exact False.elim
  · intro undelivered
    exact absurd trivial undelivered
  · simp [empty]

theorem Sound.send (sound : s.Sound exited) {c : Nat} (entry : s.pending = some (some c)) :
    { s with pending := some none, delivered := True : Slip }.Sound exited := by
  obtain ⟨live, _⟩ := sound.waiting c entry
  obtain ⟨returned, empty, unstored, unkept⟩ := sound.registered (by simp [entry])
  constructor
  · intro stored
    exact absurd stored unstored
  · intro kept
    exact absurd kept unkept
  · intro d other
    cases other
  · intro _
    exact .inl live
  · intro _
    exact ⟨returned, empty, unstored, unkept⟩
  · intro _ _
    exact .inl rfl
  · intro carried
    exact absurd returned (sound.carried carried).1
  · intro spent
    have unwaited := (sound.spent spent).2.2.1
    rw [entry] at unwaited
    cases unwaited
  · exact sound.kept
  · intro undelivered
    exact absurd trivial undelivered
  · exact sound.once

theorem Sound.store (sound : s.Sound exited) (unkept : ¬ s.abandoned)
    (unwaited : s.pending = none) (undelivered : ¬ s.delivered) (running : ¬ exited) :
    { s with stored := True, live := False, delivered := True : Slip }.Sound exited := by
  have empty := sound.unhanded undelivered running
  constructor
  · intro _
    exact ⟨fun h => h, trivial, empty⟩
  · intro kept
    exact absurd kept unkept
  · intro c entry
    rw [show s.pending = none from unwaited] at entry
    cases entry
  · intro entry
    rw [show s.pending = none from unwaited] at entry
    cases entry
  · intro waited
    exact absurd unwaited waited
  · exact False.elim
  · intro carried
    exact ⟨(sound.carried carried).1, fun _ => .inl trivial⟩
  · intro spent
    rcases (sound.spent spent).2.2.2.2 with made | kept | left
    · exact absurd made undelivered
    · exact absurd kept unkept
    · exact absurd left running
  · exact sound.kept
  · intro undelivered
    exact absurd trivial undelivered
  · exact sound.once

/-- A stored result is dropped, by the reader's exit or by Close. -/
theorem Sound.drop (sound : s.Sound exited) {handed : List Handover}
    (dropped : (s.stored ∧ ∃ x, handed = x :: s.handed) ∨ (¬ s.stored ∧ handed = s.handed))
    (uncarried : exited ∨ ¬ s.carried) :
    { s with stored := False, handed := handed : Slip }.Sound exited := by
  have waited_same : s.pending ≠ none → handed = s.handed := by
    intro waited
    rcases dropped with ⟨stored, _⟩ | ⟨_, same⟩
    · exact absurd stored (sound.registered waited).2.2.1
    · exact same
  constructor
  · exact False.elim
  · exact sound.abandoned
  · exact sound.waiting
  · exact sound.sent
  · intro waited
    obtain ⟨returned, empty, _, unkept⟩ := sound.registered waited
    exact ⟨returned, (waited_same waited).trans empty, fun h => h, unkept⟩
  · exact sound.live
  · intro carried
    rcases uncarried with left | not
    · exact ⟨(sound.carried carried).1, fun _ => .inr left⟩
    · exact absurd carried not
  · intro spent
    have old := sound.spent spent
    exact ⟨old.1, fun h => h, old.2.2⟩
  · exact sound.kept
  · intro undelivered running
    rcases dropped with ⟨stored, _⟩ | ⟨_, same⟩
    · exact absurd (sound.stored stored).2.1 undelivered
    · exact same.trans (sound.unhanded undelivered running)
  · rcases dropped with ⟨stored, x, rfl⟩ | ⟨_, rfl⟩
    · simp [(sound.stored stored).2.2]
    · exact sound.once

/-- The reader's exit: every waiter is answered and nothing is abandoned any more. -/
theorem Sound.stop (sound : s.Sound exited) :
    { s with pending := s.pending.map fun _ => none, abandoned := False : Slip }.Sound True := by
  constructor
  · exact sound.stored
  · exact False.elim
  · intro c entry
    cases old : s.pending <;> simp [old] at entry
  · intro _
    exact .inr trivial
  · intro waited
    have old := sound.registered (by simpa using waited)
    exact ⟨old.1, old.2.1, old.2.2.1, fun h => h⟩
  · intro _ _
    exact .inr trivial
  · intro carried
    exact ⟨(sound.carried carried).1, fun _ => .inr trivial⟩
  · intro spent
    have old := sound.spent spent
    exact ⟨old.1, old.2.1, by simp [old.2.2.1], fun _ => .inr trivial, .inr (.inr trivial)⟩
  · exact False.elim
  · intro _ running
    exact absurd trivial running
  · exact sound.once

/-- Close's last section, once the reader is gone. -/
theorem Sound.drain (sound : s.Sound True) {live : Prop} (fewer : live → s.live) :
    { s with live := live : Slip }.Sound True := by
  refine { sound with stored := ?_, abandoned := ?_, waiting := ?_, sent := ?_, live := ?_,
                      spent := ?_ }
  · intro stored
    exact ⟨fun h => (sound.stored stored).1 (fewer h), (sound.stored stored).2⟩
  · intro kept
    exact absurd trivial (sound.abandoned kept).2.2
  · intro c entry
    exact absurd trivial (sound.waiting c entry).2.2
  · intro _
    exact .inr trivial
  · intro _ _
    exact .inr trivial
  · intro spent
    have old := sound.spent spent
    exact ⟨old.1, old.2.1, old.2.2.1, fun _ => .inr trivial, old.2.2.2.2⟩

end Slip

namespace Ledger

def slip (L : Ledger) (t : Ticket) : Slip where
  live := t ∈ L.sh.semTickets
  pending := L.sh.pending.lookup t
  stored := t ∈ L.sh.completed.keys
  abandoned := t ∈ L.sh.abandoned
  delivered := (L.hist.delivered t).isSome = true
  returned := t ∈ L.hist.returned
  spent := t ∈ L.hist.spent
  carried := 0 < census (Role.carries t) L.roles
  handed := L.hist.handed t

def Lifecycle (L : Ledger) : Prop := ∀ t, (L.slip t).Sound (L.sh.drainExited = true)

/-- No Submit is between Rust accepting this ticket and its own return. -/
def settled : Guard := fun L t => census (Role.window t) L.roles = 0

variable {cap : Nat} {allowed : Guard} {L L' : Ledger}

theorem slip_caller {i : Nat} {old new : Role} {sh : Shared} {hist : History} {t : Ticket}
    (here : L.roles[i]? = some old) (carries : new.carries t = old.carries t) :
    { L with sh := sh, hist := hist, roles := L.roles.set i new : Ledger }.slip t =
      { L with sh := sh, hist := hist : Ledger }.slip t := by
  simp only [slip, census_set_same _ here carries]

/-- A ticket whose claim was allowed and that Rust accepted was returned by its Submit. -/
theorem Permits.returned (p : Permits cap L) {t : Ticket} (outside : settled L t)
    (accepted : t ∈ L.hist.accepted) : t ∈ L.hist.returned := by
  have total := p.window t
  rw [show census (Role.window t) L.roles = 0 from outside, has_of_mem accepted] at total
  by_contra missing
  rw [has_of_notMem missing] at total
  cases total

theorem Permits.returned_accepted (p : Permits cap L) {t : Ticket}
    (returned : t ∈ L.hist.returned) : t ∈ L.hist.accepted := by
  have total := p.window t
  by_contra missing
  rw [has_of_notMem missing, has_of_mem returned] at total
  omega

theorem Permits.live_accepted (p : Permits cap L) {t : Ticket} (live : t ∈ L.sh.semTickets) :
    t ∈ L.hist.accepted := by
  have total := p.located t
  by_contra missing
  rw [has_of_notMem missing, has_of_mem live] at total
  omega

/-- Moves that touch no field of a slip keep every life as it is. -/
theorem Lifecycle.quiet (life : L.Lifecycle) {i : Nat} {old new : Role} {sh : Shared}
    {hist : History} (here : L.roles[i]? = some old) (carries : ∀ t, new.carries t = old.carries t)
    (slips : { L with sh := sh, hist := hist : Ledger }.slip = L.slip)
    (exited : sh.drainExited = L.sh.drainExited) :
    { L with sh := sh, hist := hist, roles := L.roles.set i new : Ledger }.Lifecycle := by
  intro t
  rw [slip_caller here (carries t), slips]
  simpa only [exited] using life t

theorem carried_here {i : Nat} {t : Ticket} (here : L.roles[i]? = some (.carrying t)) :
    (L.slip t).carried := by
  have mine := le_census (Role.carries t) here
  simp only [Role.carries, if_true] at mine
  exact mine

theorem Lifecycle.accept (life : L.Lifecycle) (p : Permits cap L) (reader : L.ReaderSound)
    {i : Nat} {t : Ticket} (here : L.roles[i]? = some .holding) (new : t ∉ L.hist.accepted) :
    { L with hist := L.hist.accept t, roles := L.roles.set i (.carrying t) : Ledger
      }.Lifecycle := by
  intro u
  by_cases same : u = t
  · subst same
    have moved := census_set (Role.carries u) here (.carrying u)
    simp only [Role.carries, if_true] at moved
    have h := (life u).accept (fun returned => new (p.returned_accepted returned))
      (fun made => new (reader.consumed (reader.delivered u made)))
    convert h using 1
    simp only [slip, History.accept]
    simp only [Slip.mk.injEq, true_and, and_true, eq_iff_iff, iff_true]
    omega
  · rw [slip_caller here (by simp [Role.carries, Ne.symm same])]
    exact life u

theorem Lifecycle.insert (life : L.Lifecycle) (p : Permits cap L) {i : Nat} {t : Ticket}
    {after : Role} (here : L.roles[i]? = some (.carrying t)) (put : ∀ u, after.carries u = 0) :
    { L with sh := (L.sh.insertLocked t).2, roles := L.roles.set i after : Ledger
      }.Lifecycle := by
  have exited : (L.sh.insertLocked t).2.drainExited = L.sh.drainExited := by
    rw [insert_quiet]
  intro u
  simp only [exited]
  by_cases same : u = t
  · subst same
    have h := (life u).insert (carried_here here)
    have gone : census (Role.carries u) (L.roles.set i after) = 0 := by
      have moved := census_set (Role.carries u) here after
      have total := p.located u
      rw [put u] at moved
      simp only [Role.carries, if_true] at moved
      unfold has at total
      split at total <;> split at total <;> omega
    convert h using 1
    simp only [slip, gone, Shared.insertLocked]
    by_cases stored : u ∈ L.sh.completed.keys <;> simp [stored]
  · have others : after.carries u = (Role.carrying t).carries u := by
      rw [put u]
      simp [Role.carries, Ne.symm same]
    rw [slip_caller here others]
    convert life u using 1
    simp only [slip, Shared.insertLocked]
    by_cases stored : t ∈ L.sh.completed.keys <;> simp [stored, same]

theorem Lifecycle.ret (life : L.Lifecycle) (p : Permits cap L) {i : Nat} {t : Ticket}
    (here : L.roles[i]? = some (.issued t)) :
    { L with hist := L.hist.ret t, roles := L.roles.set i .idle : Ledger }.Lifecycle := by
  intro u
  rw [slip_caller here (by rfl)]
  by_cases same : u = t
  · subst same
    have uncarried : ¬ (L.slip u).carried := by
      intro carried
      obtain ⟨j, r, hj, carries⟩ := exists_of_census_pos _ carried
      have total := p.window u
      have bound : census (Role.window u) L.roles ≤ 1 := by
        unfold has at total
        split at total <;> split at total <;> omega
      cases r with
      | carrying v =>
        have theirs : v = u := by
          by_contra other
          simp [Role.carries, other] at carries
        subst theirs
        have apart := index_unique (Role.window v) bound here hj (by simp [Role.window])
          (by simp [Role.window])
        rw [apart, hj] at here
        cases here
      | _ => simp [Role.carries] at carries
    convert (life u).ret uncarried using 1
    simp [slip, History.ret]
  · convert life u using 1
    simp [slip, History.ret, same]

theorem Lifecycle.claim (life : L.Lifecycle) (p : Permits cap L) (reader : L.ReaderSound)
    (desk : L.desk.Sound) {i : Nat} {t : Ticket} {sink : Sink} {res : CallResult} {id : TakeId}
    {owes : Bool} {sh : Shared} (here : L.roles[i]? = some .idle) (may : settled L t)
    (done : L.sh.claimLocked t = (.done res id owes, sh)) :
    { L with sh := sh, hist := (L.hist.hand t ⟨sink, res, id⟩).spend t
             roles := L.roles.set i (debt owes t) : Ledger }.Lifecycle := by
  obtain ⟨present, rfl, rfl, rfl⟩ := claim_done done
  intro u
  rw [slip_caller here (debt_carries _ t u)]
  by_cases same : u = t
  · subst same
    have stored := GoMap.mem_keys_of_lookup present
    have halted := Permits.stored_over desk present
    have returned := p.returned may (reader.consumed (reader.delivered u halted))
    have h := (life u).take ⟨sink, res, L.sh.takeIDs u⟩ returned (.inl stored)
      (.inl ((life u).stored stored).2.1)
    convert h using 1
    simp [slip, History.hand, History.spend]
  · convert life u using 1
    simp [slip, History.hand, History.spend, same]

theorem Lifecycle.register (life : L.Lifecycle) (p : Permits cap L) {i : Nat} {t : Ticket}
    {op : Op} (here : L.roles[i]? = some .idle) (may : settled L t)
    (live : (L.sh.claimLocked t).1 = .live) :
    { L with sh := (L.sh.registerLocked t).2
             roles := L.roles.set i (.waiting op t (L.sh.registerLocked t).1) : Ledger
      }.Lifecycle := by
  obtain ⟨unstored, kept, _, alive, held, absent⟩ := claim_live live
  obtain ⟨fields, _⟩ := register_chosen L.sh t
  have returned := p.returned may (p.live_accepted held)
  intro u
  rw [slip_caller here (by rfl), fields]
  by_cases same : u = t
  · subst same
    have h := (life u).register (L.sh.registerLocked u).1 returned held
      (GoMap.lookup_eq_none.mp unstored) kept absent (by simp [alive])
    convert h using 1
    simp [slip]
  · convert life u using 1
    simp [slip, same]

theorem Lifecycle.discard (life : L.Lifecycle) (p : Permits cap L) {t : Ticket}
    (may : settled L t) (live : (L.sh.claimLocked t).1 = .live) :
    { L with sh := L.sh.abandonLocked t, hist := L.hist.spend t : Ledger }.Lifecycle := by
  obtain ⟨unstored, kept, _, alive, held, absent⟩ := claim_live live
  have returned := p.returned may (p.live_accepted held)
  unfold Shared.abandonLocked
  intro u
  by_cases same : u = t
  · subst same
    have undelivered : ¬ (L.slip u).delivered := by
      intro made
      rcases (life u).live held made with sent | left
      · rw [show (L.slip u).pending = none from absent] at sent
        cases sent
      · rw [alive] at left
        cases left
    have h := (life u).abandon returned held undelivered (GoMap.lookup_eq_none.mp unstored)
      (by simp [alive])
    convert h using 1
    simp [slip, History.spend, absent]
  · convert life u using 1
    simp [slip, History.spend, same]

theorem Lifecycle.collect (life : L.Lifecycle) (desk : L.desk.Sound) {i : Nat} {op : Op}
    {t : Ticket} {c : Nat} {res : CallResult} {id : TakeId} {owes : Bool} {sh : Shared}
    (here : L.roles[i]? = some (.received op t c res))
    (done : (L.sh.recycleWaitChanLocked cap c).collectLocked t = (id, owes, sh)) :
    { L with sh := sh, hist := (L.hist.hand t ⟨.wait op, res, id⟩).spend t
             roles := L.roles.set i (debt owes t) : Ledger }.Lifecycle := by
  have member : some ⟨op, t, c, some res⟩ ∈ L.desk.waiters :=
    List.mem_map.mpr ⟨_, List.mem_of_getElem? here, rfl⟩
  obtain ⟨sent, _, outcome⟩ := desk.got _ res member rfl
  rw [collect_fields, (recycle_chosen cap L.sh c).1] at done
  cases done
  intro u
  rw [slip_caller here (debt_carries _ t u)]
  by_cases same : u = t
  · subst same
    have waited : (L.slip u).pending ≠ none := by
      rw [show (L.slip u).pending = some none from sent]
      simp
    obtain ⟨returned, _, unstored, _⟩ := (life u).registered waited
    have halted : (L.slip u).delivered ∨ L.sh.drainExited = true := by
      rcases outcome with made | left
      · exact .inl (by simp [slip, show L.hist.delivered u = some _ from made])
      · exact .inr left.1
    have h := (life u).take ⟨.wait op, res, L.sh.takeIDs u⟩ returned (.inr sent) halted
    convert h using 1
    simp only [slip] at unstored
    simp [slip, History.hand, History.spend, unstored]
  · convert life u using 1
    simp [slip, History.hand, History.spend, same]

theorem Lifecycle.detach (life : L.Lifecycle) (desk : L.desk.Sound) {i : Nat} {op : Op}
    {t : Ticket} {c : Nat} (here : L.roles[i]? = some (.waiting op t c))
    (empty : L.sh.chan c = none) :
    { L with sh := L.sh.detachLocked cap t c, hist := L.hist.spend t
             roles := L.roles.set i .idle : Ledger }.Lifecycle := by
  have member : some ⟨op, t, c, none⟩ ∈ L.desk.waiters :=
    List.mem_map.mpr ⟨_, List.mem_of_getElem? here, rfl⟩
  have entry : L.sh.pending.lookup t = some (some c) := by
    rcases desk.parked _ member rfl with parked | ⟨_, res, full, _⟩
    · exact parked.1
    · rw [show L.desk.chan c = none from empty] at full
      cases full
  intro u
  unfold Shared.detachLocked Shared.abandonLocked
  rw [slip_caller here (by rfl), (recycle_chosen cap _ c).1]
  by_cases same : u = t
  · subst same
    obtain ⟨held, undelivered, alive⟩ := (life u).waiting c entry
    have waited : (L.slip u).pending ≠ none := by
      rw [show (L.slip u).pending = some (some c) from entry]
      simp
    obtain ⟨returned, _, unstored, _⟩ := (life u).registered waited
    convert (life u).abandon returned held undelivered unstored alive using 1
    simp [slip, History.spend]
  · convert life u using 1
    simp [slip, History.spend, same]

theorem Lifecycle.deliver (life : L.Lifecycle) (reader : L.ReaderSound) (desk : L.desk.Sound)
    {t : Ticket} {res : CallResult} {id : TakeId} {route : Shared.Route} {sh : Shared}
    {after : ReaderRole} (here : L.reader = .hand t)
    (routed : L.sh.deliver t res id = (route, sh)) :
    { L with sh := sh, hist := L.hist.route t res id route, reader := after : Ledger
      }.Lifecycle := by
  have new := (reader.hand t here).1
  have alive := running reader here (by simp)
  obtain ⟨untaken, _, unsent⟩ := desk.undelivered new alive
  have undelivered : ¬ (L.slip t).delivered := by simp [slip, new]
  cases route with
  | binned held =>
    obtain ⟨kept, _, rfl⟩ := deliver_binned routed
    intro u
    by_cases same : u = t
    · subst same
      convert (life u).bin ⟨.bin, res, id⟩ kept using 1
      simp [slip, History.route, History.hand, History.deliver]
    · convert life u using 1
      simp [slip, History.route, History.hand, History.deliver, same]
  | sent =>
    obtain ⟨_, c, entry, rfl⟩ := deliver_sent untaken routed
    intro u
    by_cases same : u = t
    · subst same
      convert (life u).send entry using 1
      simp [slip, History.route, History.deliver]
    · convert life u using 1
      simp [slip, History.route, History.deliver, same]
  | stored held =>
    obtain ⟨unkept, unwaited, _, rfl⟩ := deliver_stored untaken routed
    have absent : L.sh.pending.lookup t = none := by
      cases entry : L.sh.pending.lookup t with
      | none => rfl
      | some e =>
        cases e with
        | none => exact absurd entry unsent
        | some c => exact absurd entry (unwaited c)
    intro u
    by_cases same : u = t
    · subst same
      convert (life u).store unkept absent undelivered (by simp [alive]) using 1
      simp [slip, History.route, History.deliver]
    · convert life u using 1
      simp [slip, History.route, History.deliver, same]

theorem slip_dropAll (L : Ledger) (t : Ticket) :
    (t ∈ L.sh.completed.keys ∧ ∃ x, (L.hist.dropAll L.sh).handed t = x :: L.hist.handed t) ∨
      (t ∉ L.sh.completed.keys ∧ (L.hist.dropAll L.sh).handed t = L.hist.handed t) := by
  by_cases stored : t ∈ L.sh.completed.keys
  · left
    refine ⟨stored, ⟨.drop, L.sh.completed.val t, L.sh.takeIDs t⟩, ?_⟩
    simp [History.dropAll, GoMap.lookup, stored]
  · right
    exact ⟨stored, by simp [History.dropAll, GoMap.lookup, stored]⟩

theorem Lifecycle.stop (life : L.Lifecycle) (waiterErr : Err) :
    { L with
      sh := (L.sh.stopReading waiterErr).2
      hist := if L.sh.closed then L.hist else L.hist.dropAll L.sh
      reader := .gone : Ledger }.Lifecycle := by
  intro t
  rw [stop_fields]
  by_cases shut : L.sh.closed = true
  · convert (life t).stop using 1
    · simp
    · simp [slip, shut]
  · have h := (life t).stop.drop (slip_dropAll L t) (.inl trivial)
    convert h using 1
    · simp
    · simp [slip, shut, Shared.takeUnclaimedLocked, Shared.notifyUncollectedLocked,
        History.dropAll]

theorem Lifecycle.drop (life : L.Lifecycle) (uncarried : ∀ t, census (Role.carries t) L.roles = 0)
    (closer : CloserRole) :
    { L with sh := L.sh.takeUnclaimedLocked.2, hist := L.hist.dropAll L.sh
             closer := closer : Ledger }.Lifecycle := by
  unfold Shared.takeUnclaimedLocked Shared.notifyUncollectedLocked
  intro t
  have h := (life t).drop (slip_dropAll L t) (.inr (by simp [slip, uncarried]))
  convert h using 1
  simp [slip, History.dropAll]

/-- One move keeps every ticket's life in order, as long as claims are on settled tickets. -/
theorem Move.lifecycle (move : Move cap settled L L') (reader : L.ReaderSound)
    (desk : L.desk.Sound) (p : Permits cap L) (life : L.Lifecycle) : L'.Lifecycle := by
  cases move with
  | spawn =>
    intro t
    convert life t using 1
    simp [slip, Role.carries]
  | acquire i here room => exact life.quiet here (fun _ => rfl) rfl rfl
  | giveBack i here some_one => exact life.quiet here (fun _ => rfl) rfl rfl
  | accept i t here new early => exact life.accept p reader here new
  | insert i t here =>
    refine life.insert p here ?_
    intro u
    split <;> rfl
  | release i t here some_one => exact life.quiet here (fun _ => rfl) rfl rfl
  | ret i t here => exact life.ret p here
  | claim i t sink res id owes sh here may done => exact life.claim p reader desk here may done
  | register i t op here may live => exact life.register p here may live
  | discard i t here may live => exact life.discard p may live
  | receive i op t c res here full => exact life.quiet here (fun _ => rfl) rfl rfl
  | collect i op t c res id owes sh here done => exact life.collect desk here done
  | detach i op t c here empty => exact life.detach desk here empty
  | payBack i t here some_one => exact life.quiet here (fun _ => rfl) rfl rfl
  | deliver t res id route sh here ready routed => exact life.deliver reader desk here routed
  | stop waiterErr here isClosed ready => exact life.stop waiterErr
  | dropUnclaimed here =>
    exact life.drop (p.locked (by simp [here, CloserRole.locked])) L.closer
  | drain here gone =>
    have dropped := life.drop (p.locked (by simp [here, CloserRole.locked])) .draining
    have left := reader.gone.mpr gone
    intro t
    convert dropped t using 1
    have unkept : t ∉ L.sh.abandoned := fun kept => ((life t).abandoned kept).2.2 left
    simp [slip, Shared.takeUnclaimedLocked, Shared.notifyUncollectedLocked, unkept]
  | drainTicket t here held =>
    have gone := p.stopped (by simp [here, CloserRole.readerGone])
    have left := reader.gone.mpr gone
    intro u
    have before := life u
    simp only [left] at before ⊢
    exact before.drain Finset.mem_of_mem_erase
  | _ => exact life

end Ledger

end Gusset.Handle
