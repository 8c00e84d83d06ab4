import Gusset.Handle.Guarantees
import Gusset.Handle.Locks

/-! What Close has emptied by where it stands, and that no later step brings any of it back. -/
namespace Gusset.Handle
open Foundation

-- Close has made its last sweep over the maps.
def ClosePc.swept : ClosePc → Bool
  | .drain | .recv _ | .finish | .done => true
  | _ => false

-- Past the insert of a ticket that Rust accepted.
def Pc.landed : Pc → Bool
  | .release _ | .issue _ => true
  | _ => false

-- Under `cgoMu` with such a ticket.
def Pc.landing : Pc → Bool
  | .insert _ => true
  | .unlock after => after.landing || after.landed
  | _ => false

def ReaderPc.ended : ReaderPc → Bool
  | .gone => true
  | .unlock after => after.ended
  | _ => false

namespace State

variable {cfg : Config} {s s' : State} {i : Nat} {ctx : Bool} {pc pc' : Pc}

/-- What a caller's step does to the maps of a handle that is closed. -/
structure Sweeps (s s' : State) (pc pc' : Pc) : Prop where
  reader : s'.reader = s.reader
  done : s'.drainDone = s.drainDone
  landing : pc'.landing = true → pc = .ffiSubmit ∨ pc.landing = true
  completed : s'.sh.completed.keys ⊆ s.sh.completed.keys
  abandoned : s.sh.closed = true → (∀ op t c, pc = .race op t c → s.sh.chan c ≠ none) →
    s'.sh.abandoned ⊆ s.sh.abandoned
  mu : s.sh.semTickets = ∅ → pc'.mu ≤ pc.mu
  accepted : pc ≠ .ffiSubmit → s'.hist.accepted = s.hist.accepted

@[grind =] theorem freeThen_landing (id : TakeId) (out : Outcome) :
    (freeThen id out).landing = false := by
  unfold freeThen
  split <;> rfl

@[grind =] theorem freeThen_landed (id : TakeId) (out : Outcome) :
    (freeThen id out).landed = false := by
  unfold freeThen
  split <;> rfl

@[grind =] theorem failed_landing (v : Visit) : v.failed.landing = false := by
  cases v with
  | view op data id => cases op <;> grind -ring -linarith [Visit.failed, Pc.landing]
  | _ => rfl

@[grind =] theorem failed_landed (v : Visit) : v.failed.landed = false := by
  cases v with
  | view op data id => cases op <;> grind -ring -linarith [Visit.failed, Pc.landed]
  | _ => rfl

@[grind =] theorem after_landing (after : After) : after.pc.landing = false := by
  cases after <;> rfl

@[grind =] theorem refusal_landing (why : Refusal) : why.pc.landing = false := by
  cases why <;> rfl

theorem submit_sweeps {c : Choice} (went : submitStep cfg s ctx pc c = some (s', pc')) :
    Sweeps s s' pc pc' := by
  unfold submitStep at went
  split at went <;> (try split at went) <;> (try split at went) <;> constructor <;>
    grind -ring -linarith [Pc.landing, Pc.mu, receiveSem, giveBack, Shared.insertLocked,
      Shared.notifyUncollectedLocked, History.giveBack, History.ret, Finset.Subset.refl]

theorem wait_sweeps {c : Choice} (went : waitStep cfg s ctx pc c = some (s', pc')) :
    Sweeps s s' pc pc' := by
  unfold waitStep at went
  split at went <;> (try split at went) <;> (try split at went) <;> constructor <;>
    grind -ring -linarith [Pc.landing, Pc.mu, receiveSem, giveBack, settle, Shared.claimLocked,
      Shared.collectLocked, Shared.registerLocked, Shared.waitChanLocked, Shared.detachLocked,
      Shared.abandonLocked, Shared.recycleWaitChanLocked, Shared.popTakeIDLocked,
      Shared.releaseSemLocked, Shared.receive, Shared.notifyUncollectedLocked, History.giveBack,
      History.spend, History.hand, Finset.Subset.refl, Finset.erase_subset, GoMap.keys_erase]

theorem cgo_sweeps {c : Choice} (went : cgoStep s pc c = some (s', pc')) : Sweeps s s' pc pc' := by
  unfold cgoStep at went
  split at went <;> constructor <;>
    grind -ring -linarith [Pc.landing, Pc.landed, Pc.mu, Finset.Subset.refl]

theorem closeCall_sweeps {c : Choice} (went : closeCallStep s pc c = some (s', pc')) :
    Sweeps s s' pc pc' := by
  unfold closeCallStep at went
  split at went <;> constructor <;> grind -ring -linarith [Pc.landing, Pc.mu, Finset.Subset.refl]

theorem thread_sweeps {c : Choice} (went : threadStep cfg s ctx pc c = some (s', pc')) :
    Sweeps s s' pc pc' := by
  simp only [threadStep, Option.or_eq_some_iff] at went
  rcases went with submit | ⟨_, wait | ⟨_, cgo | ⟨_, close⟩⟩⟩
  · exact submit_sweeps submit
  · exact wait_sweeps wait
  · exact cgo_sweeps cgo
  · exact closeCall_sweeps close

/-- What Close has done by the time it stands where it stands. -/
structure Swept (s : State) : Prop where
  landed : s.closer.locked = true → ∀ th ∈ s.threads, th.pc.landing = false
  joined : s.closer.swept = true → s.drainDone = true
  emptied : s.closer.swept = true → s.sh.completed.keys = ∅ ∧ s.sh.abandoned = ∅
  unheld : s.closer.role = .done → ∀ th ∈ s.threads, th.pc.mu = 0
  ended : s.reader.ended = true → s.drainDone = true

theorem swept_locked {cl : ClosePc} (swept : cl.swept = true) : cl.locked = true := by
  cases cl <;> simp_all [ClosePc.swept, ClosePc.locked]

theorem done_swept {cl : ClosePc} (done : cl.role = .done) : cl.swept = true := by
  cases cl <;> simp_all [ClosePc.swept, ClosePc.role]

theorem swept_gone {cl : ClosePc} (swept : cl.swept = true) : cl.role.readerGone = true := by
  cases cl <;> simp_all [ClosePc.swept, ClosePc.role, CloserRole.readerGone]

theorem locked_busy {cl : ClosePc} (locked : cl.locked = true) : cl ≠ .idle := by
  rintro rfl
  cases locked

/-- Once the reader has stopped, a registered waiter finds an outcome in its channel. -/
theorem waiting_sent (books : Ledger.Books cfg.poolSize s.ledger) (exited : s.sh.drainExited = true)
    (here : s.threads[i]? = some ⟨ctx, pc⟩) {op : Op} {t : Ticket} {c : Nat}
    (waits : pc.role = .waiting op t c) : s.sh.chan c ≠ none := by
  have member : some ⟨op, t, c, none⟩ ∈ s.ledger.desk.waiters := by
    simp only [Ledger.desk, ledger, List.map_map]
    exact List.mem_map.mpr ⟨_, List.mem_of_getElem? here, by simp [waits, Role.waiter]⟩
  rcases books.desk.parked _ member rfl with ⟨_, _, running⟩ | ⟨_, res, sent, _⟩
  · cases exited.symm.trans running
  · intro none
    cases sent.symm.trans none

theorem Swept.exited (swept : s.closer.swept = true) (books : Ledger.Books cfg.poolSize s.ledger) :
    s.sh.drainExited = true :=
  books.reader.gone.mpr (books.permits.stopped (swept_gone swept))

theorem Swept.thread (swept : s.Swept) (gates : s.Gates) (books : Ledger.Books cfg.poolSize s.ledger)
    (here : s.threads[i]? = some ⟨ctx, pc⟩) (turns : Turns s s' pc pc')
    (sweeps : Sweeps s s' pc pc') :
    { s' with threads := s'.threads.set i ⟨ctx, pc'⟩ : State }.Swept := by
  have member := List.mem_of_getElem? here
  have closer : s'.closer ≠ .rlock → s'.closer = s.closer := by
    intro other
    rcases turns.closer with same | ⟨_, new⟩
    · exact same
    · exact absurd new other
  constructor
  · intro locked th inside
    simp only at locked
    have same := closer (by rintro new; rw [new] at locked; cases locked)
    rw [same] at locked
    rw [turns.threads] at inside
    rcases mem_set_cases inside with rfl | ⟨j, _, old⟩
    · by_contra landing
      rcases sweeps.landing (by simpa using landing) with rfl | before
      · cases gates.empty locked _ member
      · rw [swept.landed locked _ member] at before
        cases before
    · exact swept.landed locked th (List.mem_of_getElem? old)
  · intro halted
    simp only at halted
    have same := closer (by rintro new; rw [new] at halted; cases halted)
    exact sweeps.done.trans (swept.joined (same ▸ halted))
  · intro halted
    simp only at halted
    have same := closer (by rintro new; rw [new] at halted; cases halted)
    rw [same] at halted
    obtain ⟨completed, abandoned⟩ := swept.emptied halted
    have shut := gates.shut.mpr (locked_busy (swept_locked halted))
    have fewer := sweeps.abandoned shut (by
      rintro op t c rfl
      exact waiting_sent books (Swept.exited halted books) here rfl)
    exact ⟨Finset.subset_empty.mp (completed ▸ sweeps.completed),
      Finset.subset_empty.mp (abandoned ▸ fewer)⟩
  · intro halted th inside
    simp only at halted
    have same := closer (by rintro new; rw [new] at halted; cases halted)
    rw [same] at halted
    have none : s.sh.semTickets = ∅ := books.permits.finished halted
    rw [turns.threads] at inside
    rcases mem_set_cases inside with rfl | ⟨j, _, old⟩
    · have before := swept.unheld halted _ member
      have fewer := sweeps.mu none
      simp only at before ⊢
      omega
    · exact swept.unheld halted th (List.mem_of_getElem? old)
  · simp only [sweeps.reader, sweeps.done]
    exact swept.ended

@[grind =] theorem readerFailed_ended (v : ReaderVisit) : v.failed.ended = false := by
  cases v with
  | binFree id t held => cases held <;> rfl
  | _ => rfl

theorem reader_ended {rd rd' : ReaderPc} {c : ReadChoice} (went : readerStep s rd c = some (s', rd'))
    (ended : rd'.ended = true) :
    s'.drainDone = true ∨ (rd.ended = true ∧ s'.drainDone = s.drainDone) := by
  unfold readerStep at went
  split at went <;> (try split at went) <;>
    grind -ring -linarith [ReaderPc.ended, ReaderPc.afterBin, receiveSem, giveBack]

theorem Swept.reader (swept : s.Swept) (gates : s.Gates) {rd' : ReaderPc} {c : ReadChoice}
    (went : readerStep s s.reader c = some (s', rd')) : { s' with reader := rd' : State }.Swept := by
  have turns := reader_turns went
  have running : s.closer.swept = false := by
    by_contra halted
    rw [gates.done (swept.joined (by simpa using halted))] at went
    cases went
  have unfinished : s.closer.role ≠ .done := by
    intro halted
    rw [done_swept halted] at running
    cases running
  constructor
  · simp only [turns.closer, turns.threads]
    exact swept.landed
  · intro halted
    simp only [turns.closer, running] at halted
    cases halted
  · intro halted
    simp only [turns.closer, running] at halted
    cases halted
  · intro halted
    simp only [turns.closer] at halted
    exact absurd halted unfinished
  · intro ended
    rcases reader_ended went ended with done | ⟨before, same⟩
    · exact done
    · exact same.trans (swept.ended before)

theorem landing_locks (landing : pc.landing = true) : 0 < pc.locks := by
  cases pc with
  | insert t => exact Nat.one_pos
  | unlock after => simp [Pc.locks]
  | _ => cases landing

theorem close_sweeps {cl cl' : ClosePc} {c : CloseChoice} (went : closeStep s cl c = some (s', cl')) :
    s'.threads = s.threads ∧ s'.reader = s.reader ∧ s'.drainDone = s.drainDone ∧
    (cl'.locked = true → cl.locked = true ∨ (cl = .locking ∧ s.readers = 0)) ∧
    (cl'.swept = true → (cl = .final ∧ s'.sh.completed.keys = ∅ ∧ s'.sh.abandoned = ∅) ∨
      (cl.swept = true ∧ s'.sh.completed = s.sh.completed ∧ s'.sh.abandoned = s.sh.abandoned)) ∧
    (cl'.role = .done → cl.role = .done ∨ cl = .drain) := by
  unfold closeStep at went
  split at went <;>
    grind -ring -linarith [ClosePc.locked, ClosePc.swept, ClosePc.role, receiveSem, giveBack,
      Shared.takeUnclaimedLocked, Shared.notifyUncollectedLocked, GoMap.keys_clear]

theorem Swept.closer (swept : s.Swept) (gates : s.Gates) (locks : s.Locks) {cl' : ClosePc}
    {c : CloseChoice} (went : closeStep s s.closer c = some (s', cl')) :
    { s' with closer := cl' : State }.Swept := by
  obtain ⟨threads, reader, done, locking, sweeping, finishing⟩ := close_sweeps went
  constructor
  · intro locked th member
    simp only [threads] at locked member
    rcases locking locked with before | ⟨_, none⟩
    · exact swept.landed before th member
    · by_contra landing
      have held := landing_locks (show th.pc.landing = true by simpa using landing)
      have counted := le_census_of_mem (fun th : Thread => th.pc.locks) member
      have total := gates.readers
      omega
  · intro halted
    simp only [done]
    rcases sweeping halted with ⟨final, _⟩ | ⟨before, _⟩
    · exact gates.joined final
    · exact swept.joined before
  · intro halted
    rcases sweeping halted with ⟨_, completed, abandoned⟩ | ⟨before, completed, abandoned⟩
    · exact ⟨completed, abandoned⟩
    · simp only [completed, abandoned]
      exact swept.emptied before
  · intro halted th member
    simp only [threads] at member
    rcases finishing halted with before | drain
    · exact swept.unheld before th member
    · have counted := le_census_of_mem (fun th : Thread => th.pc.mu) member
      have total := locks.mu
      have most := Bool.toNat_le s.mu
      simp only [drain, ClosePc.mu] at total
      omega
  · simp only [reader, done]
    exact swept.ended

theorem opened_swept : opened.Swept where
  landed := nofun
  joined := nofun
  emptied := nofun
  unheld := nofun
  ended := nofun

theorem Swept.step (swept : s.Swept) (gates : s.Gates) (locks : s.Locks)
    (books : Ledger.Books cfg.poolSize s.ledger) {a : Act} (went : s.step cfg a = some s') :
    s'.Swept := by
  cases a with
  | call c =>
    cases went
    have outside : c.pc.landing = false ∧ c.pc.mu = 0 := by cases c <;> exact ⟨rfl, rfl⟩
    refine { swept with landed := ?_, unheld := ?_ }
    all_goals
      intro halted th member
      rcases List.mem_append.mp member with old | new
    · exact swept.landed halted th old
    · rw [List.mem_singleton.mp new]
      exact outside.1
    · exact swept.unheld halted th old
    · rw [List.mem_singleton.mp new]
      exact outside.2
  | expire i =>
    simp only [State.step, Option.map_eq_some_iff] at went
    obtain ⟨th, here, rfl⟩ := went
    refine { swept with landed := ?_, unheld := ?_ }
    all_goals
      intro halted other member
      rcases mem_set_cases member with rfl | ⟨j, _, old⟩
    · exact swept.landed halted th (List.mem_of_getElem? here)
    · exact swept.landed halted other (List.mem_of_getElem? old)
    · exact swept.unheld halted th (List.mem_of_getElem? here)
    · exact swept.unheld halted other (List.mem_of_getElem? old)
  | thread i c =>
    simp only [State.step, Option.bind_eq_some_iff, Option.map_eq_some_iff] at went
    obtain ⟨th, here, r, went, rfl⟩ := went
    exact swept.thread gates books here (thread_turns went) (thread_sweeps went)
  | reader c =>
    simp only [State.step, Option.map_eq_some_iff] at went
    obtain ⟨r, went, rfl⟩ := went
    exact swept.reader gates went
  | closer c =>
    simp only [State.step, Option.map_eq_some_iff] at went
    obtain ⟨r, went, rfl⟩ := went
    exact swept.closer gates locks went

theorem reaches_swept {allowed : Ledger.Guard} (reach : Reaches cfg allowed s) : s.Swept := by
  apply reach.induction
  · rintro _ rfl
    exact opened_swept
  · rintro s s' before swept ⟨a, went, _⟩
    exact swept.step (reaches_gates before) (reaches_locks before) (reaches_books before) went

/-- Nothing is left on the handle's books. A permit not yet given back is that of a submitter past
its insert and past `cgoMu`. -/
structure Quiesced (s : State) : Prop where
  semTickets : s.sh.semTickets = ∅
  completed : s.sh.completed.keys = ∅
  abandoned : s.sh.abandoned = ∅
  pending : ∀ t c, s.sh.pending.lookup t ≠ some (some c)
  permits : ∀ t ∈ s.hist.accepted, s.hist.gaveBack t = 1 ∨ ∃ th ∈ s.threads, th.pc = .release t

theorem release_of_owes {t : Ticket} (away : pc.landing = false) (unheld : pc.mu = 0)
    (owes : 0 < pc.role.owes t) : pc = .release t := by
  induction pc with
  | release u =>
    simp only [Pc.role, Role.owes] at owes
    split at owes
    · simp_all
    · cases owes
  | recvLocked u after => cases unheld
  | unlock after ih =>
    simp only [Pc.landing, Bool.or_eq_false_iff] at away
    rw [ih away.1 unheld owes] at away
    cases away.2
  | enterClosed v | tryRLock v | enterPtr v | inside v => cases v <;> cases owes
  | _ => cases owes

theorem quiesced_of_done (reach : Reaches cfg anyTicket s) (halted : s.closeDone = true) :
    s.Quiesced := by
  have books := reaches_books reach
  have swept := reaches_swept reach
  have last : s.closer = .done := (reaches_locks reach).halted.mp halted
  have role : s.closer.role = .done := by rw [last]; rfl
  have finish := done_swept role
  have none : s.sh.semTickets = ∅ := books.permits.finished role
  constructor
  · exact none
  · exact (swept.emptied finish).1
  · exact (swept.emptied finish).2
  · intro t c entry
    obtain ⟨j, w, here, ticket, chan, got⟩ := books.desk.waiter_of_pending entry
    rcases books.desk.parked _ (List.mem_of_getElem? here) got with
      ⟨_, _, running⟩ | ⟨sent, _⟩
    · exact absurd ((Swept.exited finish books).symm.trans running) nofun
    · rw [ticket] at sent
      exact absurd (entry.symm.trans sent) nofun
  · intro t accepted
    have total := books.permits.located t
    have gone : s.ledger.reader = .gone := books.permits.stopped (swept_gone finish)
    have carried := books.permits.locked (by rw [show s.ledger.closer = .done from role]; rfl) t
    have closer : s.ledger.closer = .done := role
    have counted : has s.ledger.hist.accepted t = 1 := has_of_mem accepted
    have empty : has s.ledger.sh.semTickets t = 0 :=
      has_of_notMem (none ▸ Finset.notMem_empty t)
    rw [counted, empty, carried, gone, closer] at total
    simp only [ReaderRole.owes, CloserRole.owes, ledger, census_map] at total
    by_cases given : s.hist.gaveBack t = 1
    · exact .inl given
    · obtain ⟨j, th, here, owes⟩ := exists_of_census_pos
        (fun th : Thread => th.pc.role.owes t) (l := s.threads) (by omega)
      have member := List.mem_of_getElem? here
      exact .inr ⟨th, member, release_of_owes (swept.landed (swept_locked finish) th member)
        (swept.unheld role th member) owes⟩

end State

end Gusset.Handle
