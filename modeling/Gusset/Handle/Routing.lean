import Gusset.Handle.Desk

/-! Every move of the ledger keeps the routing facts, whichever tickets callers ask for. -/
namespace Gusset.Handle
open Foundation

/-- What the reader holds has not been delivered, and it is gone once `drainExited` is set. -/
structure Ledger.ReaderSound (L : Ledger) : Prop where
  hand : ∀ t, L.reader = .hand t → L.hist.delivered t = none ∧ t ∈ L.hist.consumed
  gone : L.sh.drainExited = true ↔ L.reader = .gone
  delivered : ∀ t, (L.hist.delivered t).isSome = true → t ∈ L.hist.consumed
  consumed : L.hist.consumed ⊆ L.hist.accepted

namespace Ledger

variable {cap : Nat} {allowed : Guard} {L L' : Ledger}

theorem running (reader : L.ReaderSound) {r : ReaderRole} (here : L.reader = r)
    (present : r ≠ .gone) : L.sh.drainExited = false := by
  by_contra exited
  have gone := reader.gone.mp (by simpa using exited)
  exact present (here.symm.trans gone)

theorem claim_live {s : Shared} {t : Ticket} (live : (s.claimLocked t).1 = .live) :
    s.completed.lookup t = none ∧ t ∉ s.abandoned ∧ s.closed = false ∧
      s.drainExited = false ∧ t ∈ s.semTickets ∧ s.pending.lookup t = none := by
  unfold Shared.claimLocked at live
  split at live
  · cases live
  · rename_i absent
    split at live
    · cases live
    · rename_i kept
      split at live
      · cases live
      · rename_i openNow
        split at live
        · cases live
        · rename_i held
          split at live
          · cases live
          · rename_i unwaited
            simp only [Bool.or_eq_true, not_or, Bool.not_eq_true] at openNow
            exact ⟨absent, kept, openNow.1, openNow.2, by simpa using held,
              GoMap.lookup_eq_none.mpr unwaited⟩

theorem claim_done {s sh : Shared} {t : Ticket} {res : CallResult} {id : TakeId} {owes : Bool}
    (done : s.claimLocked t = (.done res id owes, sh)) :
    s.completed.lookup t = some res ∧ id = s.takeIDs t ∧
      owes = decide (t ∈ s.semTickets) ∧
      sh = { s with
        uncollected := true
        completed := s.completed.erase t
        pending := s.pending.erase t
        takeIDs := Function.update s.takeIDs t 0
        semTickets := s.semTickets.erase t } := by
  unfold Shared.claimLocked at done
  split at done
  · rename_i r present
    simp only [Shared.collectLocked, Shared.popTakeIDLocked, Shared.releaseSemLocked,
      Shared.notifyUncollectedLocked] at done
    by_cases held : t ∈ s.semTickets
    · simp only [held, if_true, Prod.mk.injEq, Shared.Claim.done.injEq] at done
      obtain ⟨⟨rfl, rfl, rfl⟩, rfl⟩ := done
      exact ⟨present, rfl, by simp [held], rfl⟩
    · simp only [held, if_false, Prod.mk.injEq, Shared.Claim.done.injEq] at done
      obtain ⟨⟨rfl, rfl, rfl⟩, rfl⟩ := done
      exact ⟨present, rfl, by simp [held], by simp [Finset.erase_eq_of_notMem held]⟩
  · split at done
    · cases done
    · split at done
      · cases done
      · split at done
        · cases done
        · split at done <;> cases done

-- A claim that hands nothing out changes nothing.
theorem claim_keeps {s sh : Shared} {t : Ticket} {claim : Shared.Claim}
    (claimed : s.claimLocked t = (claim, sh)) (kept : ∀ res id owes, claim ≠ .done res id owes) :
    sh = s := by
  unfold Shared.claimLocked at claimed
  split at claimed
  · cases claimed
    exact absurd rfl (kept _ _ _)
  · split at claimed
    · cases claimed
      rfl
    · split at claimed
      · cases claimed
        rfl
      · split at claimed
        · cases claimed
          rfl
        · split at claimed <;> cases claimed <;> rfl

/-- Moves by a caller that waits on nothing before or after, and that touch no field the
routing reads, are not seen at the desk. -/
theorem desk_quiet {i : Nat} {old new : Role} {sh : Shared} {hist : History}
    (here : L.roles[i]? = some old) (before : old.waiter = none) (after : new.waiter = none)
    (pending : sh.pending.lookup = L.sh.pending.lookup) (chan : sh.chan = L.sh.chan)
    (made : sh.made = L.sh.made) (free : sh.waitChans = L.sh.waitChans)
    (completed : sh.completed.lookup = L.sh.completed.lookup) (takes : sh.takeIDs = L.sh.takeIDs)
    (kept : sh.abandoned = L.sh.abandoned) (exited : sh.drainExited = L.sh.drainExited)
    (delivered : hist.delivered = L.hist.delivered) (handed : hist.handed = L.hist.handed) :
    { L with sh := sh, hist := hist, roles := L.roles.set i new : Ledger }.desk = L.desk := by
  simp only [desk, pending, chan, made, free, completed, takes, kept, exited, delivered, handed,
    map_set_same Role.waiter here (after.trans before.symm)]

theorem insert_quiet (s : Shared) (t : Ticket) :
    (s.insertLocked t).2 = { s with semTickets := (s.insertLocked t).2.semTickets } := by
  unfold Shared.insertLocked
  split <;> rfl

theorem debt_waiter (owes : Bool) (t : Ticket) : (debt owes t).waiter = none := by
  cases owes <;> rfl

theorem register_chosen (s : Shared) (t : Ticket) :
    (s.registerLocked t).2 = { s with
      pending := s.pending.insert t (some (s.registerLocked t).1)
      waitChans := (s.registerLocked t).2.waitChans
      made := (s.registerLocked t).2.made } ∧
    ((s.waitChans = (s.registerLocked t).1 :: (s.registerLocked t).2.waitChans ∧
        (s.registerLocked t).2.made = s.made) ∨
      ((s.registerLocked t).2.waitChans = s.waitChans ∧ (s.registerLocked t).1 = s.made ∧
        (s.registerLocked t).2.made = s.made + 1)) := by
  unfold Shared.registerLocked Shared.waitChanLocked
  split
  · rename_i c rest list
    exact ⟨rfl, .inl ⟨list, rfl⟩⟩
  · rename_i list
    exact ⟨rfl, .inr ⟨rfl, rfl, rfl⟩⟩

theorem recycle_chosen (cap : Nat) (s : Shared) (c : Nat) :
    s.recycleWaitChanLocked cap c = { s with
      waitChans := (s.recycleWaitChanLocked cap c).waitChans } ∧
    ((s.recycleWaitChanLocked cap c).waitChans = s.waitChans ∨
      (s.recycleWaitChanLocked cap c).waitChans = c :: s.waitChans) := by
  unfold Shared.recycleWaitChanLocked
  split
  · exact ⟨rfl, .inr rfl⟩
  · exact ⟨rfl, .inl rfl⟩

theorem collect_fields (s : Shared) (t : Ticket) :
    s.collectLocked t = (s.takeIDs t, decide (t ∈ s.semTickets),
      { s with pending := s.pending.erase t
               takeIDs := Function.update s.takeIDs t 0
               semTickets := s.semTickets.erase t }) := by
  simp only [Shared.collectLocked, Shared.popTakeIDLocked, Shared.releaseSemLocked]
  by_cases held : t ∈ s.semTickets
  · simp [held]
  · simp [held]

theorem deliver_binned {t : Ticket} {res : CallResult} {id : TakeId} {held : Bool} {sh : Shared}
    (routed : L.sh.deliver t res id = (.binned held, sh)) :
    t ∈ L.sh.abandoned ∧ held = decide (t ∈ L.sh.semTickets) ∧
      sh = { L.sh with abandoned := L.sh.abandoned.erase t
                       semTickets := L.sh.semTickets.erase t } := by
  unfold Shared.deliver at routed
  split at routed
  · rename_i gone
    cases routed
    exact ⟨gone, rfl, rfl⟩
  · split at routed <;> cases routed

-- Before its delivery a ticket has no take id, so skipping the store of 0 changes nothing.
theorem noteTake_eq {t : Ticket} (id : TakeId) {s : Shared} (untaken : s.takeIDs t = 0) :
    s.noteTake t id = { s with takeIDs := Function.update s.takeIDs t id } := by
  unfold Shared.noteTake
  by_cases zero : id = 0
  · have same : Function.update s.takeIDs t id = s.takeIDs := by
      rw [zero, ← untaken, Function.update_eq_self]
    rw [if_neg (by simp [zero]), same]
  · rw [if_pos zero]

theorem deliver_sent {t : Ticket} {res : CallResult} {id : TakeId} {sh : Shared}
    (untaken : L.sh.takeIDs t = 0) (routed : L.sh.deliver t res id = (.sent, sh)) :
    t ∉ L.sh.abandoned ∧ ∃ c, L.sh.pending.lookup t = some (some c) ∧
      sh = { L.sh with takeIDs := Function.update L.sh.takeIDs t id
                       pending := L.sh.pending.insert t none
                       chan := Function.update L.sh.chan c (some res) } := by
  unfold Shared.deliver at routed
  rw [noteTake_eq id untaken] at routed
  split at routed
  · cases routed
  · rename_i kept
    split at routed
    · rename_i c entry
      cases routed
      exact ⟨kept, c, entry, rfl⟩
    · cases routed

theorem deliver_stored {t : Ticket} {res : CallResult} {id : TakeId} {held : Bool} {sh : Shared}
    (untaken : L.sh.takeIDs t = 0) (routed : L.sh.deliver t res id = (.stored held, sh)) :
    t ∉ L.sh.abandoned ∧ (∀ c, L.sh.pending.lookup t ≠ some (some c)) ∧
      held = decide (t ∈ L.sh.semTickets) ∧
      sh = { L.sh with takeIDs := Function.update L.sh.takeIDs t id
                       completed := L.sh.completed.insert t res
                       semTickets := L.sh.semTickets.erase t } := by
  unfold Shared.deliver at routed
  rw [noteTake_eq id untaken] at routed
  split at routed
  · cases routed
  · rename_i kept
    split at routed
    · cases routed
    · rename_i unwaited
      cases routed
      exact ⟨kept, unwaited, rfl, rfl⟩

/-- The reader's exit, with the results dropped or, on a closed handle, kept. -/
theorem stop_fields (s : Shared) (waiterErr : Err) :
    (s.stopReading waiterErr).2 = { (if s.closed then s else s.takeUnclaimedLocked.2) with
      pending := s.pending.mapVal fun _ => none
      chan := fun c => if s.waitedOn c then some ⟨[], some waiterErr⟩ else s.chan c
      drainExited := true
      abandoned := ∅ } := by
  unfold Shared.stopReading
  by_cases shut : s.closed = true
  · simp [shut]
  · simp [shut, Shared.takeUnclaimedLocked, Shared.notifyUncollectedLocked]

theorem deliver_desk_sound {t : Ticket} {res : CallResult} {id : TakeId} {route : Shared.Route}
    {sh : Shared} {after : ReaderRole} (reader : L.ReaderSound) (sound : L.desk.Sound)
    (here : L.reader = .hand t) (routed : L.sh.deliver t res id = (route, sh)) :
    { L with sh := sh, hist := L.hist.route t res id route, reader := after : Ledger
      }.desk.Sound := by
  have new := (reader.hand t here).1
  have alive := running reader here (by simp)
  obtain ⟨untaken, unstored, unsent⟩ := sound.undelivered new alive
  cases route with
  | binned held =>
    obtain ⟨gone, _, rfl⟩ := deliver_binned routed
    exact sound.bin res id gone new alive
  | sent =>
    obtain ⟨_, c, entry, rfl⟩ := deliver_sent untaken routed
    have h := sound.send res id entry new alive
    convert h using 1
    simp only [desk, History.route, History.deliver]
    congr 1
    funext j
    simp [Function.update_apply]
  | stored held =>
    obtain ⟨_, unwaited, _, rfl⟩ := deliver_stored untaken routed
    have absent : L.sh.pending.lookup t = none := by
      cases hp : L.sh.pending.lookup t with
      | none => rfl
      | some e =>
        cases e with
        | none => exact absurd hp unsent
        | some c => exact absurd hp (unwaited c)
    have h := sound.store res id absent new alive
    convert h using 1
    simp only [desk, History.route, History.deliver]
    congr 1
    funext j
    simp [Function.update_apply]

theorem takeUnclaimed_desk (L : Ledger) (abandoned : Finset Ticket) (closer : CloserRole) :
    { L with sh := { L.sh.takeUnclaimedLocked.2 with abandoned := abandoned }
             hist := L.hist.dropAll L.sh, closer := closer : Ledger }.desk =
      { L.desk with
        completed := fun _ => none
        takeIDs := fun t => if (L.desk.completed t).isSome then 0 else L.desk.takeIDs t
        handed := fun t => match L.desk.completed t with
          | some res => ⟨.drop, res, L.desk.takeIDs t⟩ :: L.desk.handed t
          | none => L.desk.handed t
        abandoned := abandoned } := by
  simp only [desk, Shared.takeUnclaimedLocked, Shared.notifyUncollectedLocked, History.dropAll]
  congr 1
  funext j
  by_cases present : j ∈ L.sh.completed.keys <;> simp [GoMap.lookup, present]

theorem stop_desk_sound {waiterErr : Err} (reader : L.ReaderSound) (sound : L.desk.Sound)
    (here : L.reader = .away) (isClosed : waiterErr.isClosed = true) :
    { L with sh := (L.sh.stopReading waiterErr).2
             hist := if L.sh.closed then L.hist else L.hist.dropAll L.sh
             reader := .gone : Ledger }.desk.Sound := by
  have alive := running reader here (by simp)
  have sent : ∀ t c, L.desk.pending t = some (some c) →
      (if L.sh.waitedOn c then some ⟨[], some waiterErr⟩ else L.sh.chan c) =
        some ⟨[], some waiterErr⟩ := by
    intro t c entry
    exact if_pos ⟨t, GoMap.mem_keys_of_lookup entry, entry⟩
  have kept : ∀ c, (∀ t, L.desk.pending t ≠ some (some c)) →
      (if L.sh.waitedOn c then some ⟨[], some waiterErr⟩ else L.sh.chan c) = L.desk.chan c := by
    intro c unwaited
    apply if_neg
    rintro ⟨t, _, entry⟩
    exact unwaited t entry
  have stopped := sound.stop isClosed alive sent kept
  by_cases shut : L.sh.closed = true
  · convert stopped using 1
    simp only [desk, stop_fields, shut, if_true]
    congr 1
    funext j
    simp
  · convert stopped.drop using 1
    simp only [desk, stop_fields, shut, if_false, Shared.takeUnclaimedLocked,
      Shared.notifyUncollectedLocked, History.dropAll, Bool.false_eq_true]
    congr 1
    · funext j
      simp
    · funext j
      by_cases present : j ∈ L.sh.completed.keys <;> simp [GoMap.lookup, present]

/-- One move keeps the routing facts. -/
theorem Move.desk_sound (move : Move cap allowed L L') (reader : L.ReaderSound)
    (sound : L.desk.Sound) : L'.desk.Sound := by
  cases move with
  | spawn =>
    simp only [desk, List.map_append, List.map_cons, List.map_nil, Role.waiter]
    exact sound.spawn
  | acquire i here room => rwa [desk_quiet here rfl rfl] <;> rfl
  | giveBack i here some_one => rwa [desk_quiet here rfl rfl] <;> rfl
  | accept i t here new early => rwa [desk_quiet here rfl rfl] <;> rfl
  | insert i t here =>
    rw [insert_quiet]
    rwa [desk_quiet here rfl (by split <;> rfl)] <;> rfl
  | release i t here some_one => rwa [desk_quiet here rfl rfl] <;> rfl
  | ret i t here => rwa [desk_quiet here rfl rfl] <;> rfl
  | payBack i t here some_one => rwa [desk_quiet here rfl rfl] <;> rfl
  | claim i t sink res id owes sh here may done =>
    obtain ⟨present, rfl, rfl, rfl⟩ := claim_done done
    have h := sound.take present sink
    have absent := (sound.stored t res present).2
    convert h using 1
    simp only [desk, History.hand, History.spend,
      map_set_same Role.waiter here (debt_waiter _ t)]
    congr 1
    · funext j
      by_cases same : j = t
      · rw [same]
        simpa using (show L.sh.pending.lookup t = none from absent).symm
      · simp [same]
    · funext j
      simp [Function.update_apply]
  | register i t op here may live =>
    obtain ⟨unstored, kept, _, alive, _, absent⟩ := claim_live live
    obtain ⟨fields, chosen⟩ := register_chosen L.sh t
    have place : L.desk.waiters[i]? = some none := by simp [desk, here, Role.waiter]
    have h := sound.register op place absent unstored kept alive chosen
    convert h using 1
    rw [fields]
    simp only [desk, List.map_set, Role.waiter]
    congr 1
    funext j
    simp [Function.update_apply]
  | discard i t here may live =>
    obtain ⟨_, _, _, _, _, absent⟩ := claim_live live
    exact sound.abandon absent
  | receive i op t c res here full =>
    have place : L.desk.waiters[i]? = some (some ⟨op, t, c, none⟩) := by
      simp [desk, here, Role.waiter]
    have h := sound.receive place full
    simpa only [desk, Shared.receive, List.map_set, Role.waiter] using h
  | collect i op t c res id owes sh here done =>
    rw [collect_fields] at done
    obtain ⟨fields, chosen⟩ := recycle_chosen cap L.sh c
    have place : L.desk.waiters[i]? = some (some ⟨op, t, c, some res⟩) := by
      simp [desk, here, Role.waiter]
    have h := sound.collect place chosen
    cases done
    convert h using 1
    rw [fields]
    simp only [desk, History.hand, History.spend, List.map_set, debt_waiter]
    congr 1
    funext j
    simp [Function.update_apply]
  | detach i op t c here empty =>
    obtain ⟨fields, chosen⟩ :=
      recycle_chosen cap { L.sh with pending := L.sh.pending.erase t } c
    have place : L.desk.waiters[i]? = some (some ⟨op, t, c, none⟩) := by
      simp [desk, here, Role.waiter]
    have h := sound.detach place empty chosen
    convert h using 1
    unfold Shared.detachLocked Shared.abandonLocked
    rw [fields]
    simp only [desk, History.spend, List.map_set, Role.waiter]
    congr 1
    funext j
    simp [Function.update_apply]
  | consume t here taken new => exact sound
  | deliver t res id route sh here ready routed =>
    exact deliver_desk_sound reader sound here routed
  | readerPays t here some_one => exact sound
  | stop waiterErr here isClosed ready => exact stop_desk_sound reader sound here isClosed
  | close here => exact sound
  | lock here empty => exact sound
  | dropUnclaimed here =>
    have h := takeUnclaimed_desk L L.sh.abandoned L.closer
    exact h ▸ sound.drop
  | drain here gone =>
    rw [takeUnclaimed_desk]
    exact { sound.drop with abandoned := fun t ht => absurd ht (Finset.notMem_empty t) }
  | drainTicket t here held => exact sound
  | closerPays t here some_one => exact sound
  | drained here empty => exact sound
  | note drainErr uncollected => exact sound

/-- One move keeps what the reader holds apart from what was delivered. -/
theorem Move.reader_sound (move : Move cap allowed L L') (reader : L.ReaderSound) :
    L'.ReaderSound := by
  cases move with
  | accept i t here new early =>
    exact { reader with consumed := reader.consumed.trans (Finset.subset_insert t _) }
  | insert i t here =>
    refine { reader with gone := ?_ }
    rw [insert_quiet]
    exact reader.gone
  | claim i t sink res id owes sh here may done =>
    obtain ⟨_, _, _, rfl⟩ := claim_done done
    exact { reader with }
  | register i t op here may live =>
    refine { reader with gone := ?_ }
    rw [(register_chosen L.sh t).1]
    exact reader.gone
  | collect i op t c res id owes sh here done =>
    rw [collect_fields, (recycle_chosen cap L.sh c).1] at done
    cases done
    exact { reader with }
  | detach i op t c here empty =>
    refine { reader with gone := ?_ }
    unfold Shared.detachLocked Shared.abandonLocked
    rw [(recycle_chosen cap _ c).1]
    exact reader.gone
  | consume t here taken new =>
    have undelivered : L.hist.delivered t = none := by
      by_contra made
      exact new (reader.delivered t (Option.isSome_iff_ne_none.mpr made))
    constructor
    · intro u same
      cases same
      exact ⟨undelivered, Finset.mem_insert_self t _⟩
    · have gone := reader.gone
      simpa [here] using gone
    · intro u made
      exact Finset.mem_insert_of_mem (reader.delivered u made)
    · exact Finset.insert_subset taken reader.consumed
  | deliver t res id route sh here ready routed =>
    have halted := (reader.hand t here).2
    have alive := running reader here (by simp)
    have still : sh.drainExited = L.sh.drainExited := by
      unfold Shared.deliver Shared.noteTake at routed
      split at routed
      · cases routed
        rfl
      · split at routed <;> split at routed <;> cases routed <;> rfl
    have history : (L.hist.route t res id route).delivered =
        Function.update L.hist.delivered t (some (res, id)) ∧
        (L.hist.route t res id route).consumed = L.hist.consumed ∧
        (L.hist.route t res id route).accepted = L.hist.accepted := by
      cases route <;> exact ⟨rfl, rfl, rfl⟩
    obtain ⟨delivered, consumed, accepted⟩ := history
    constructor
    · intro u holds
      simp only at holds
      split at holds <;> cases holds
    · simp only [still, alive, Bool.false_eq_true, false_iff]
      split <;> simp
    · intro u made
      simp only [delivered, consumed] at made ⊢
      by_cases same : u = t
      · exact same ▸ halted
      · rw [Function.update_of_ne same] at made
        exact reader.delivered u made
    · simp only [consumed, accepted]
      exact reader.consumed
  | readerPays t here some_one =>
    refine { reader with hand := ?_, gone := ?_ }
    · intro u holds
      cases holds
    · have gone := reader.gone
      simpa [here] using gone
  | stop waiterErr here isClosed ready =>
    have fields := stop_fields L.sh waiterErr
    constructor
    · intro u holds
      cases holds
    · rw [fields]
      simp
    · intro u made
      split at made <;> split <;> exact reader.delivered u made
    · split <;> exact reader.consumed
  | _ => exact { reader with }

end Ledger

end Gusset.Handle
