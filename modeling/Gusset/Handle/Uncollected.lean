import Gusset.Handle.Guarantees
import Gusset.Handle.Locks

/-! The bound on uncollected results: the ceiling is tested before the submission, so the results
stored and those still to come are bounded by the ceiling and the permits together. -/
namespace Gusset.Handle
open Foundation

def Visit.passed : Visit → Nat
  | .submit => 1
  | _ => 0

/-- 1 for a submitter past the ceiling that has no ticket yet. -/
def Pc.passed : Pc → Nat
  | .enterClosed v | .tryRLock v | .enterPtr v | .inside v => v.passed
  | .ffiSubmit => 1
  | .unlock after => after.passed
  | _ => 0

theorem passed_bare (pc : Pc) : pc.passed ≤ pc.role.bare := by
  induction pc with
  | unlock after ih => exact ih
  | enterClosed v | tryRLock v | enterPtr v | inside v =>
    cases v with
    | submit => exact Nat.le_refl 1
    | _ => exact Nat.zero_le _
  | ffiSubmit => exact Nat.le_refl 1
  | _ => exact Nat.zero_le _

namespace State

variable {cfg : Config} {s s' : State} {ctx : Bool} {pc pc' : Pc}

def passed (s : State) : Nat := census (fun th => th.pc.passed) s.threads

-- The tickets whose completion is still to be delivered.
def undelivered (s : State) : Finset Ticket :=
  s.hist.accepted.filter fun t => s.hist.delivered t = none

/-- What a caller's step does to the count: it lowers or keeps every part of it, it turns a
submitter past the ceiling into a ticket, or it passes the ceiling. -/
def Counts (cfg : Config) (s s' : State) (pc pc' : Pc) : Prop :=
  (s'.sh.completed.len ≤ s.sh.completed.len ∧ s'.hist.delivered = s.hist.delivered ∧
    ((s'.hist.accepted = s.hist.accepted ∧ pc'.passed ≤ pc.passed) ∨
      ∃ t, s'.hist.accepted = insert t s.hist.accepted ∧ pc'.passed + 1 ≤ pc.passed)) ∨
  (s'.sh.completed.len < cfg.maxUncollected ∧ s'.sh.drainExited = false)

@[grind =] theorem refusal_passed (why : Refusal) : why.pc.passed = 0 := by
  cases why <;> rfl

@[grind =] theorem after_passed (after : After) : after.pc.passed = 0 := by
  cases after <;> rfl

@[grind =] theorem freeThen_passed (id : TakeId) (out : Outcome) : (freeThen id out).passed = 0 := by
  unfold freeThen
  split <;> rfl

@[grind =] theorem failed_passed (v : Visit) : v.failed.passed = 0 := by
  cases v with
  | view op data id => cases op <;> simp [Visit.failed, Pc.passed, freeThen_passed]
  | _ => rfl

@[grind =] theorem erase_len (m : GoMap Ticket CallResult) (t : Ticket) :
    (m.erase t).len = if t ∈ m.keys then m.len - 1 else m.len := Finset.card_erase_eq_ite

@[grind =] theorem claim_completed (sh : Shared) (t : Ticket) :
    (sh.claimLocked t).2.completed = sh.completed.erase t := by
  cases stored : sh.completed.lookup t with
  | some res =>
    simp only [Shared.claimLocked, stored, Ledger.collect_fields, Shared.notifyUncollectedLocked]
  | none =>
    have absent : sh.completed.erase t = sh.completed := by
      simp [GoMap.erase, Finset.erase_eq_of_notMem (GoMap.lookup_eq_none.mp stored)]
    simp only [Shared.claimLocked, stored, absent]
    split <;> (try split) <;> (try split) <;> (try split) <;> rfl

theorem submit_counts {c : Choice} (ceiling : 0 < cfg.maxUncollected)
    (went : submitStep cfg s ctx pc c = some (s', pc')) : Counts cfg s s' pc pc' := by
  unfold submitStep at went
  unfold Counts
  split at went <;> (try split at went) <;> (try split at went) <;>
    grind -ring -linarith [Visit.passed, Pc.passed, receiveSem, giveBack, Shared.insertLocked,
      History.accept,
      History.ret, History.giveBack, Shared.notifyUncollectedLocked]

theorem wait_counts {c : Choice} (went : waitStep cfg s ctx pc c = some (s', pc')) :
    Counts cfg s s' pc pc' := by
  unfold waitStep at went
  unfold Counts
  split at went <;> (try split at went) <;> (try split at went) <;>
    grind -ring -linarith [Visit.passed, Pc.passed, receiveSem, giveBack, settle,
      Shared.collectLocked,
      Shared.registerLocked, Shared.waitChanLocked, Shared.detachLocked, Shared.abandonLocked,
      Shared.recycleWaitChanLocked, Shared.popTakeIDLocked, Shared.releaseSemLocked, Shared.receive,
      History.hand, History.spend, History.giveBack]

theorem cgo_counts {c : Choice} (went : cgoStep s pc c = some (s', pc')) :
    Counts cfg s s' pc pc' := by
  unfold cgoStep at went
  unfold Counts
  split at went <;> (try split at went) <;> grind -ring -linarith [Visit.passed, Pc.passed]

theorem closeCall_counts {c : Choice} (went : closeCallStep s pc c = some (s', pc')) :
    Counts cfg s s' pc pc' := by
  unfold closeCallStep at went
  unfold Counts
  split at went <;> (try split at went) <;> grind -ring -linarith [Pc.passed]

theorem thread_counts {c : Choice} (ceiling : 0 < cfg.maxUncollected)
    (went : threadStep cfg s ctx pc c = some (s', pc')) : Counts cfg s s' pc pc' := by
  simp only [threadStep, Option.or_eq_some_iff] at went
  rcases went with submit | ⟨_, wait | ⟨_, cgo | ⟨_, close⟩⟩⟩
  · exact submit_counts ceiling submit
  · exact wait_counts wait
  · exact cgo_counts cgo
  · exact closeCall_counts close

/-- A step of the reader stores at most the result of the ticket that it delivers. -/
theorem reader_counts {rd rd' : ReaderPc} {c : ReadChoice}
    (went : readerStep s rd c = some (s', rd')) :
    s'.hist.accepted = s.hist.accepted ∧
    ((s'.hist.delivered = s.hist.delivered ∧ s'.sh.completed.len ≤ s.sh.completed.len) ∨
      ∃ t res id, rd = .deliver t res id ∧
        s'.hist.delivered = Function.update s.hist.delivered t (some (res, id)) ∧
        s'.sh.completed.len ≤ s.sh.completed.len + 1) := by
  have more (m : GoMap Ticket CallResult) (t : Ticket) (res : CallResult) :
      (m.insert t res).len ≤ m.len + 1 := Finset.card_insert_le _ _
  have none (m : GoMap Ticket CallResult) : m.clear.len = 0 := rfl
  unfold readerStep at went
  split at went <;> (try split at went) <;>
    grind -ring -linarith [receiveSem, giveBack, Shared.deliver, Shared.noteTake, Shared.stopReading,
      Shared.takeUnclaimedLocked, Shared.notifyUncollectedLocked, History.consume, History.route,
      History.deliver, History.hand, History.giveBack, History.dropAll]

theorem closer_counts {cl cl' : ClosePc} {c : CloseChoice}
    (went : closeStep s cl c = some (s', cl')) :
    s'.hist.accepted = s.hist.accepted ∧ s'.hist.delivered = s.hist.delivered ∧
      s'.sh.completed.len ≤ s.sh.completed.len ∧ s'.threads = s.threads := by
  have none (m : GoMap Ticket CallResult) : m.clear.len = 0 := rfl
  unfold closeStep at went
  split at went <;> (try split at went) <;>
    grind -ring -linarith [receiveSem, giveBack, Shared.takeUnclaimedLocked,
      Shared.notifyUncollectedLocked,
      History.giveBack, History.dropAll]

/-- The results stored, the tickets still to be delivered and the submitters on their way. -/
def uncollected (s : State) : Nat := s.sh.completed.len + s.undelivered.card + s.passed

theorem undelivered_same {u : State} (accepted : u.hist.accepted = s.hist.accepted)
    (delivered : u.hist.delivered = s.hist.delivered) : u.undelivered = s.undelivered := by
  unfold undelivered
  rw [accepted, delivered]

/-- While the reader runs, the tickets to be delivered and the submitters on their way hold a permit
each. -/
theorem awaited_le (books : Ledger.Books cfg.poolSize s.ledger) (running : s.sh.drainExited = false) :
    s.undelivered.card + s.passed ≤ cfg.poolSize := by
  have held := books.permits.undelivered_le running
    (show s.undelivered ⊆ s.ledger.hist.accepted from Finset.filter_subset _ _)
    (fun t member => (Finset.mem_filter.mp member).2)
  have each : s.passed ≤ census Role.bare s.ledger.roles := by
    unfold passed
    rw [ledger, census_map]
    exact census_le _ _ fun th _ => passed_bare th.pc
  omega

theorem thread_uncollected {i : Nat} (here : s.threads[i]? = some ⟨ctx, pc⟩) {u : State}
    (sh : u.sh = s'.sh) (hist : u.hist = s'.hist) (threads : u.threads = s.threads.set i ⟨ctx, pc'⟩)
    (books : Ledger.Books cfg.poolSize u.ledger) (counts : Counts cfg s s' pc pc')
    (bound : s.uncollected ≤ cfg.maxUncollected - 1 + cfg.poolSize) :
    u.uncollected ≤ cfg.maxUncollected - 1 + cfg.poolSize := by
  have moved := census_set (fun th : Thread => th.pc.passed) here ⟨ctx, pc'⟩
  rw [← threads] at moved
  simp only at moved
  rcases counts with ⟨stored, delivered, same | ⟨t, accepted, fewer⟩⟩ | ⟨room, running⟩
  · have awaited : u.undelivered = s.undelivered :=
      undelivered_same (by rw [hist, same.1]) (by rw [hist, delivered])
    have fewer := same.2
    unfold uncollected passed at *
    rw [awaited, sh]
    omega
  · have awaited : u.undelivered ⊆ insert t s.undelivered := by
      intro x member
      simp only [undelivered, hist, accepted, delivered, Finset.mem_filter, Finset.mem_insert]
        at member ⊢
      tauto
    have most := (Finset.card_le_card awaited).trans (Finset.card_insert_le _ _)
    unfold uncollected passed at *
    rw [sh]
    omega
  · have awaited := awaited_le books (by rw [sh]; exact running)
    unfold uncollected
    rw [sh]
    omega

theorem reader_uncollected {rd' : ReaderPc} {c : ReadChoice}
    (books : Ledger.Books cfg.poolSize s.ledger) (went : readerStep s s.reader c = some (s', rd'))
    (threads : s'.threads = s.threads) : s'.uncollected ≤ s.uncollected := by
  have past : s'.passed = s.passed := by rw [passed, threads]; rfl
  obtain ⟨accepted, ⟨delivered, stored⟩ | ⟨t, res, id, here, delivered, stored⟩⟩ := reader_counts went
  · have awaited := undelivered_same accepted delivered
    unfold uncollected
    rw [awaited, past]
    omega
  · obtain ⟨unread, consumed⟩ := books.reader.hand t (by simp [ledger, here, ReaderPc.role])
    have waiting : t ∈ s.undelivered :=
      Finset.mem_filter.mpr ⟨books.reader.consumed consumed, unread⟩
    have awaited : s'.undelivered ⊆ s.undelivered.erase t := by
      intro x member
      simp only [undelivered, accepted, delivered, Finset.mem_filter, Finset.mem_erase] at member ⊢
      by_cases same : x = t
      · simp [same] at member
      · rw [Function.update_of_ne same] at member
        exact ⟨same, member⟩
    have fewer := Finset.card_le_card awaited
    have one := Finset.card_erase_add_one waiting
    unfold uncollected
    rw [past]
    omega

theorem step_uncollected {a : Act} {u : State} (ceiling : 0 < cfg.maxUncollected)
    (books : Ledger.Books cfg.poolSize s.ledger) (after : Ledger.Books cfg.poolSize u.ledger)
    (went : s.step cfg a = some u) (bound : s.uncollected ≤ cfg.maxUncollected - 1 + cfg.poolSize) :
    u.uncollected ≤ cfg.maxUncollected - 1 + cfg.poolSize := by
  cases a with
  | call c =>
    cases went
    have idle : c.pc.passed = 0 := by cases c <;> rfl
    simpa [uncollected, undelivered, passed, idle] using bound
  | expire i =>
    simp only [step, Option.map_eq_some_iff] at went
    obtain ⟨th, here, rfl⟩ := went
    have same := census_set (fun th : Thread => th.pc.passed) here { th with ctx := true }
    simp only [uncollected, undelivered, passed] at bound same ⊢
    omega
  | thread i c =>
    simp only [step, Option.bind_eq_some_iff, Option.map_eq_some_iff] at went
    obtain ⟨⟨ctx, pc⟩, here, ⟨s', pc'⟩, went, rfl⟩ := went
    have counts := thread_counts ceiling went
    have threads := (thread_turns went).threads
    exact thread_uncollected here rfl rfl (by rw [threads]) after counts bound
  | reader c =>
    simp only [step, Option.map_eq_some_iff] at went
    obtain ⟨⟨s', rd'⟩, went, rfl⟩ := went
    exact (reader_uncollected books went (reader_turns went).threads).trans bound
  | closer c =>
    simp only [step, Option.map_eq_some_iff] at went
    obtain ⟨⟨s', cl'⟩, went, rfl⟩ := went
    obtain ⟨accepted, delivered, stored, threads⟩ := closer_counts went
    have awaited := undelivered_same accepted delivered
    simp only [uncollected, undelivered, passed, threads] at bound awaited ⊢
    rw [awaited]
    omega

/-- However many submitters pass the ceiling on the same count, the results stored and those still
to be delivered are fewer than the ceiling and the pool size together. -/
theorem uncollected_bounded (ceiling : 0 < cfg.maxUncollected) (reach : Reaches cfg anyTicket s) :
    s.sh.completed.len + s.undelivered.card + s.passed ≤ cfg.maxUncollected - 1 + cfg.poolSize := by
  refine @Reachable.induction _ _ _ (fun s => s.uncollected ≤ _) ?_ ?_ _ reach
  · rintro _ rfl
    simp [uncollected, undelivered, passed, opened, Shared.opened, History.empty, GoMap.len]
  · intro s u before bound step
    obtain ⟨a, went, may⟩ := id step
    exact step_uncollected ceiling (reaches_books before) (reaches_books (before.next step)) went bound

-- Two submitters pass a ceiling of one before the first completion is delivered.
def passedTwice : Option State :=
  follows ⟨2, 1⟩ anyTicket opened
    (([.call (.submit (.bytes 0)), .call (.submit (.bytes 0))] : List Act) ++
      List.replicate 10 (Act.thread 0 .go) ++ List.replicate 10 (Act.thread 1 .go) ++
      List.replicate 4 (Act.thread 0 .go) ++
      ([.thread 0 (.ticket 7), .thread 0 .go, .reader (.consume 7 (some [])), .reader .go] : List Act))

theorem passedTwice_runs : passedTwice.isSome = true := by decide +kernel

theorem uncollected_bounded_twice :
    ∃ s, passedTwice = some s ∧ s.sh.completed.len = 1 ∧ s.passed = 1 ∧
      s.sh.completed.len + s.undelivered.card + s.passed ≤ 1 - 1 + 2 := by
  refine ⟨passedTwice.get passedTwice_runs, by simp, by decide +kernel, by decide +kernel, ?_⟩
  exact uncollected_bounded (show 0 < Config.maxUncollected ⟨2, 1⟩ by decide)
    (follows_reaches (.start rfl) (Option.some_get _).symm)

end State

end Gusset.Handle
