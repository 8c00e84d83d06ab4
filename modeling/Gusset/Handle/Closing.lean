import Gusset.Handle.Quiescence

/-! Close returns, and so does every caller after it, without another delivery. -/
namespace Gusset.Handle
open Foundation
open Relation (ReflTransGen)

-- Steps to the end of a call behind a visit that cannot be made.
def Visit.rank : Visit → Nat
  | .free _ _ => 0
  | .view _ _ _ | .submit => 2
  | .cancel _ _ _ => 6

/-- A bound on the steps a caller has to the end of its call, once the handle is closed. -/
def Pc.rank : Pc → Nat
  | .done _ => 0
  | .answerClosed | .latch _ | .issue _ | .bufClosed _ | .awaitClose => 1
  | .giveBack _ | .release _ | .closeSwap | .acquire | .raced _ _ | .discarded _ => 2
  | .input _ | .closed2 | .exited2 | .ceiling | .parked => 3
  | .poisoned1 _ | .ctxErr | .poisoned2 | .ffiSubmit | .insert _ | .outcome _ _ _ => 4
  | .exited1 _ | .recvLocked _ _ => 5
  | .closed1 _ | .claim _ _ | .discardClaim _ | .got _ _ _ _ | .race _ _ _ => 6
  | .await _ _ _ | .discardClosed _ => 7
  | .enterClosed v => v.rank + 1
  | .enterPtr v => v.rank + 2
  | .tryRLock v | .inside v => v.rank + 3
  | .unlock after => after.rank + 1

namespace State

variable {cfg : Config} {s s' : State} {i : Nat} {ctx : Bool} {pc pc' : Pc}

theorem freeThen_rank (id : TakeId) (out : Outcome) : (freeThen id out).rank ≤ 1 := by
  unfold freeThen
  split <;> simp [Pc.rank, Visit.rank]

theorem failed_rank (v : Visit) : v.failed.rank ≤ v.rank := by
  cases v with
  | view op data id =>
    cases op with
    | wait => exact Nat.zero_le _
    | waitBuffer => exact Nat.le_trans (freeThen_rank id _) (by simp [Visit.rank])
  | _ => simp [Visit.failed, Visit.rank, Pc.rank]

theorem after_rank (after : After) : after.pc.rank ≤ 4 := by
  cases after <;> simp [After.pc, Pc.rank]

theorem refusal_rank (why : Refusal) : why.pc.rank ≤ 1 := by
  cases why <;> simp [Refusal.pc, Pc.rank]

theorem settle_rank (mid : State) (t : Ticket) (owes : Bool) (after : After) :
    (mid.settle t owes after).2.rank ≤ 5 := by
  have below := after_rank after
  unfold settle
  split
  · exact Nat.le_refl _
  · simp only
    omega

/-- A handle whose Close has returned. -/
structure Over (s : State) : Prop where
  closed : s.sh.closed = true
  exited : s.sh.drainExited = true
  done : s.drainDone = true
  halted : s.closeDone = true
  free : s.mu = false

theorem books_received (books : Ledger.Books cfg.poolSize s.ledger)
    (here : s.threads[i]? = some ⟨ctx, pc⟩)
    (waits : pc.receives = true) : ∃ s', s.receiveSem = some s' := by
  have went := (books_never_blocks books).1 i _ here waits
  obtain ⟨u, moved⟩ := Option.isSome_iff_exists.mp went
  cases pc with
  | giveBack why | release t | recvLocked t after =>
    simp only [step, here, Option.bind_some, Option.map_eq_some_iff, threadStep, submitStep,
      waitStep, cgoStep, closeCallStep, Option.or_eq_some_iff] at moved
    grind -ring -linarith
  | _ => cases waits

/-- A caller that has not returned has a step that brings it nearer its end. -/
theorem Over.progress (halted : s.Over) (books : Ledger.Books cfg.poolSize s.ledger)
    (here : s.threads[i]? = some ⟨ctx, pc⟩) (pending : ∀ out, pc ≠ .done out) :
    ∃ c s' pc', threadStep cfg s ctx pc c = some (s', pc') ∧ pc'.rank < pc.rank := by
  obtain ⟨closed, exited, done, halted, free⟩ := halted
  cases pc with
  | done out => exact absurd rfl (pending out)
  | giveBack why =>
    obtain ⟨mid, received⟩ := books_received books here rfl
    have below := refusal_rank why
    exact ⟨.go, mid, why.pc, by simp [threadStep, submitStep, received],
      Nat.lt_of_le_of_lt below (by simp [Pc.rank])⟩
  | release t =>
    obtain ⟨mid, received⟩ := books_received books here rfl
    exact ⟨.go, mid.giveBack t, .issue t, by simp [threadStep, submitStep, received],
      by simp [Pc.rank]⟩
  | recvLocked t after =>
    obtain ⟨mid, received⟩ := books_received books here rfl
    have below := after_rank after
    exact ⟨.go, _, after.pc, by simp [threadStep, submitStep, waitStep, received]; rfl,
      Nat.lt_of_le_of_lt below (by simp [Pc.rank])⟩
  | await op t c =>
    have sent := waiting_sent books exited here rfl
    obtain ⟨res, found⟩ := Option.ne_none_iff_exists'.mp sent
    exact ⟨.go, _, .got op t c res, by simp [threadStep, submitStep, waitStep, found]; rfl,
      by simp [Pc.rank]⟩
  | acquire =>
      exact ⟨.drained, s, .answerClosed, by simp [threadStep, submitStep, done], by simp [Pc.rank]⟩
  | parked =>
    exact ⟨.drained, s, .giveBack .closedErr, by simp [threadStep, submitStep, done], by
      simp [Pc.rank]⟩
  | closed1 input =>
    exact ⟨.go, s, .answerClosed, by simp [threadStep, submitStep, closed], by simp [Pc.rank]⟩
  | exited1 input =>
    exact ⟨.go, s, .answerClosed, by simp [threadStep, submitStep, exited], by simp [Pc.rank]⟩
  | closed2 =>
    exact ⟨.go, s, .giveBack .closedErr, by simp [threadStep, submitStep, closed], by simp [Pc.rank]⟩
  | exited2 =>
    exact ⟨.go, s, .giveBack .closedErr, by simp [threadStep, submitStep, exited], by simp [Pc.rank]⟩
  | ceiling =>
    exact ⟨.go, s, .giveBack .closedErr, by simp [threadStep, submitStep, closed, free],
      by simp [Pc.rank]⟩
  | discardClosed t =>
    exact ⟨.go, s, .answerClosed, by simp [threadStep, submitStep, waitStep, closed],
      by simp [Pc.rank]⟩
  | closeSwap =>
    exact ⟨.go, s, .awaitClose,
      by simp [threadStep, submitStep, waitStep, cgoStep, closeCallStep, closed], by simp [Pc.rank]⟩
  | awaitClose =>
    exact ⟨.go, s, _, by simp [threadStep, submitStep, waitStep, cgoStep, closeCallStep, halted]; rfl,
      by simp [Pc.rank]⟩
  | input input =>
    cases input with
    | bytes n =>
      refine ⟨.go, s, _, rfl, ?_⟩
      split <;> simp [Pc.rank]
    | buffer => exact ⟨.go, s, _, rfl, by simp [Pc.rank]⟩
  | poisoned1 input | ctxErr =>
    refine ⟨.go, s, _, rfl, ?_⟩
    split <;> simp [Pc.rank]
  | poisoned2 =>
    refine ⟨.go, s, _, rfl, ?_⟩
    repeat' split
    all_goals simp [Pc.rank, Visit.rank]
  | ffiSubmit =>
    exact ⟨.refuse .closed, s, _, rfl, by simp [Pc.rank]⟩
  | insert t =>
    refine ⟨.go, { s with sh := (s.sh.insertLocked t).2 },
      .unlock (if (s.sh.insertLocked t).1 then .release t else .issue t),
      by simp [threadStep, submitStep, free], ?_⟩
    split <;> simp [Pc.rank]
  | issue t | latch e | bufClosed data | answerClosed => exact ⟨.go, _, _, rfl, by simp [Pc.rank]⟩
  | raced res id | discarded id =>
    exact ⟨.go, s, _, rfl, Nat.lt_of_le_of_lt (freeThen_rank _ _) (by simp [Pc.rank])⟩
  | outcome op res id =>
    have below := fun out => freeThen_rank id out
    refine ⟨.go, s, _, rfl, ?_⟩
    split
    · exact Nat.lt_of_le_of_lt (below _) (by simp [Pc.rank])
    · split
      · simp [Pc.rank, Visit.rank]
      · split <;> simp [Pc.rank]
  | claim op t =>
    cases claimed : s.sh.claimLocked t with
    | mk claim sh =>
      cases claim with
      | done res id owes =>
        exact ⟨.go, _, _, by simp only [threadStep, submitStep, waitStep, free, claimed]; rfl,
          Nat.lt_of_le_of_lt (settle_rank _ _ _ _) (by simp [Pc.rank])⟩
      | refused e =>
        exact ⟨.go, _, _, by simp only [threadStep, submitStep, waitStep, free, claimed]; rfl,
          by simp [Pc.rank]⟩
      | live =>
        have live := Ledger.claim_live (by rw [claimed])
        cases closed.symm.trans live.2.2.1
  | discardClaim t =>
    cases claimed : s.sh.claimLocked t with
    | mk claim sh =>
      cases claim with
      | done res id owes =>
        exact ⟨.go, _, _, by simp only [threadStep, submitStep, waitStep, free, claimed]; rfl,
          Nat.lt_of_le_of_lt (settle_rank _ _ _ _) (by simp [Pc.rank])⟩
      | refused e =>
        exact ⟨.go, _, _, by simp only [threadStep, submitStep, waitStep, free, claimed]; rfl,
          by simp [Pc.rank]⟩
      | live =>
        have live := Ledger.claim_live (by rw [claimed])
        cases closed.symm.trans live.2.2.1
  | got op t c res =>
    exact ⟨.go, _, _, by simp only [threadStep, submitStep, waitStep, free]; rfl,
      Nat.lt_of_le_of_lt (settle_rank _ _ _ _) (by simp [Pc.rank])⟩
  | race op t c =>
    have sent := waiting_sent books exited here rfl
    obtain ⟨res, found⟩ := Option.ne_none_iff_exists'.mp sent
    exact ⟨.go, _, _, by simp only [threadStep, submitStep, waitStep, free, found]; rfl,
      Nat.lt_of_le_of_lt (settle_rank _ _ _ _) (by simp [Pc.rank])⟩
  | enterClosed v =>
    exact ⟨.go, s, v.failed, by simp [threadStep, submitStep, waitStep, cgoStep, closed],
      Nat.lt_succ_of_le (failed_rank v)⟩
  | tryRLock v =>
    by_cases open_ : s.writer = .none
    · exact ⟨.go, { s with readers := s.readers + 1 }, .enterPtr v,
        by simp [threadStep, submitStep, waitStep, cgoStep, open_], by simp [Pc.rank]⟩
    · exact ⟨.go, s, v.failed, by simp [threadStep, submitStep, waitStep, cgoStep, open_],
        Nat.lt_of_le_of_lt (failed_rank v) (by simp [Pc.rank])⟩
  | enterPtr v =>
    exact ⟨.go, s, .unlock v.failed, by simp [threadStep, submitStep, waitStep, cgoStep, closed],
      Nat.succ_lt_succ (Nat.lt_succ_of_le (failed_rank v))⟩
  | inside v =>
    cases v with
    | submit =>
      refine ⟨.go, s, _, rfl, ?_⟩
      split <;> simp [Pc.rank, Visit.rank]
    | view op data id =>
      have below := fun out => freeThen_rank id out
      cases op with
      | wait =>
        exact ⟨.go, s, _, rfl,
          Nat.succ_lt_succ (Nat.lt_of_le_of_lt (below _) (by simp [Visit.rank]))⟩
      | waitBuffer => exact ⟨.go, s, _, rfl, by simp [Pc.rank, Visit.rank]⟩
    | cancel op t c => exact ⟨.go, s, _, rfl, by simp [Pc.rank, Visit.rank]⟩
    | free id out => exact ⟨.go, s, _, rfl, by simp [Pc.rank, Visit.rank]⟩
  | unlock after => exact ⟨.go, _, after, rfl, by simp [Pc.rank]⟩

/-- A later state of the same run. -/
abbrev Later (cfg : Config) : State → State → Prop := ReflTransGen (Step cfg anyTicket)

theorem Later.reaches {u : State} (reach : Reaches cfg anyTicket s) (later : Later cfg s u) :
    Reaches cfg anyTicket u := by
  induction later with
  | refl => exact reach
  | tail _ moved ih => exact ih.next moved

theorem over_of_done (reach : Reaches cfg anyTicket s) (halted : s.closeDone = true) : s.Over := by
  have locks := reaches_locks reach
  have swept := reaches_swept reach
  have last : s.closer = .done := locks.halted.mp halted
  have role : s.closer.role = .done := by rw [last]; rfl
  have free : census (fun th => th.pc.mu) s.threads = 0 := census_eq_zero _ (swept.unheld role)
  have total := locks.mu
  refine ⟨?_, Swept.exited (done_swept role) (reaches_books reach), swept.joined (done_swept role),
    halted, ?_⟩
  · exact (reaches_gates reach).shut.mpr (by simp [last])
  · simp only [free, last, ClosePc.mu] at total
    exact Bool.toNat_eq_zero.mp total.symm

theorem reader_accepted {rd rd' : ReaderPc} {c : ReadChoice}
    (went : readerStep s rd c = some (s', rd')) : s'.hist.accepted = s.hist.accepted := by
  unfold readerStep at went
  split at went <;> (try split at went) <;>
    grind -ring -linarith [receiveSem, giveBack, History.giveBack, History.consume, History.route,
      History.deliver,
      History.hand, History.dropAll]

theorem close_locked {cl cl' : ClosePc} {c : CloseChoice} (locked : cl.locked = true)
    (went : closeStep s cl c = some (s', cl')) :
    cl'.locked = true ∧ s'.hist.accepted = s.hist.accepted ∧ cl ≠ .done := by
  unfold closeStep at went
  split at went <;>
    grind -ring -linarith [ClosePc.locked, receiveSem, giveBack, History.giveBack, History.dropAll]

/-- Once Close has had `cgoMu` to itself no ticket is accepted, and once it is done its answer
stands. -/
structure Settled (s s' : State) : Prop where
  locked : s'.closer.locked = true
  accepted : s'.hist.accepted = s.hist.accepted
  answer : s.closeDone = true → s'.closeDone = true ∧ s'.closeErr = s.closeErr

theorem step_settled (gates : s.Gates) (locks : s.Locks) (locked : s.closer.locked = true) {a : Act}
    (went : s.step cfg a = some s') : Settled s s' := by
  have closed := gates.shut.mpr (locked_busy locked)
  cases a with
  | call c =>
    cases went
    exact ⟨locked, rfl, fun halted => ⟨halted, rfl⟩⟩
  | expire i =>
    simp only [State.step, Option.map_eq_some_iff] at went
    obtain ⟨th, here, rfl⟩ := went
    exact ⟨locked, rfl, fun halted => ⟨halted, rfl⟩⟩
  | thread i c =>
    simp only [State.step, Option.bind_eq_some_iff, Option.map_eq_some_iff] at went
    obtain ⟨th, here, r, went, rfl⟩ := went
    have turns := thread_turns went
    refine ⟨?_, ?_, fun halted => ⟨turns.halted.trans halted, turns.err⟩⟩
    · rcases turns.closer with same | ⟨openNow, _⟩
      · simpa only [same] using locked
      · rw [closed] at openNow
        cases openNow
    · apply (thread_sweeps went).accepted
      intro submitting
      have outside := gates.empty locked th (List.mem_of_getElem? here)
      rw [submitting] at outside
      cases outside
  | reader c =>
    simp only [State.step, Option.map_eq_some_iff] at went
    obtain ⟨r, went, rfl⟩ := went
    have turns := reader_turns went
    have accepted := reader_accepted went
    exact ⟨by simpa only [turns.closer] using locked, accepted,
      fun halted => ⟨turns.halted.trans halted, turns.err⟩⟩
  | closer c =>
    simp only [State.step, Option.map_eq_some_iff] at went
    obtain ⟨r, went, rfl⟩ := went
    obtain ⟨still, accepted, unfinished⟩ := close_locked locked went
    exact ⟨still, accepted, fun halted => absurd (locks.halted.mp halted) unfinished⟩

theorem Later.settled {u : State} (reach : Reaches cfg anyTicket s)
    (locked : s.closer.locked = true) (later : Later cfg s u) : Settled s u := by
  induction later with
  | refl => exact ⟨locked, rfl, fun halted => ⟨halted, rfl⟩⟩
  | tail before moved ih =>
    obtain ⟨a, went, _⟩ := moved
    have now := Later.reaches reach before
    have next := step_settled (reaches_gates now) (reaches_locks now) ih.locked went
    refine ⟨next.locked, next.accepted.trans ih.accepted, ?_⟩
    intro halted
    obtain ⟨still, err⟩ := next.answer (ih.answer halted).1
    exact ⟨still, err.trans (ih.answer halted).2⟩

/-- One caller's steps alone bring its call to its end. -/
def Returns (cfg : Config) (s : State) (i : Nat) : Prop :=
  ∃ (cs : List Choice) (u : State) (ctx : Bool) (out : Outcome),
    follow (fun s c => s.step cfg (.thread i c)) s cs = some u ∧
      u.threads[i]? = some ⟨ctx, .done out⟩

theorem returns_of_done (reach : Reaches cfg anyTicket s) (halted : s.closeDone = true)
    (here : s.threads[i]? = some ⟨ctx, pc⟩) : s.Returns cfg i := by
  -- On the steps the caller has left.
  induction rank : pc.rank using Nat.strong_induction_on generalizing s pc with
  | _ n ih =>
    by_cases finished : ∃ out, pc = .done out
    · obtain ⟨out, rfl⟩ := finished
      exact ⟨[], s, ctx, out, rfl, here⟩
    · obtain ⟨c, mid, pc', went, nearer⟩ := (over_of_done reach halted).progress (reaches_books reach)
        here (fun out done => finished ⟨out, done⟩)
      have turns := thread_turns went
      have moved : s.step cfg (.thread i c) =
          some { mid with threads := mid.threads.set i ⟨ctx, pc'⟩ } := by
        simp [State.step, here, went]
      obtain ⟨cs, u, ctx', out, run, last⟩ := ih pc'.rank (rank ▸ nearer)
        (reach.next ⟨.thread i c, moved, fun _ _ => trivial⟩) (turns.halted.trans halted)
        (by simp [turns.threads, List.getElem?_set_self', here]) rfl
      exact ⟨c :: cs, u, ctx', out, by simp only [follow, moved, Option.bind_some, run], last⟩

end State

-- Steps a caller has to where it holds neither lock, on a closed handle.
def Pc.hold : Pc → Nat
  | .recvLocked _ _ => 1
  | .enterPtr _ | .ffiSubmit | .insert _ => 2
  | .inside _ => 3
  | .unlock after => after.hold + 1
  | _ => 0

def ReaderVisit.rank : ReaderVisit → Nat
  | .take _ => 8
  | .binFree _ _ _ => 6
  | .exitFree _ rest => 2 * rest.card + 1

-- Steps drainPipe has to its end on a closed handle, when no completion comes in.
def ReaderPc.rank : ReaderPc → Nat
  | .gone => 0
  | .exitFree ids => 2 * ids.card + 1
  | .exitLocked _ => 2
  | .exitErr => 3
  | .exitClosed => 4
  | .next => 5
  | .pay _ => 6
  | .deliver _ _ _ => 8
  | .take _ | .takeLatch _ => 10
  | .enterClosed v => v.rank + 1
  | .enterPtr v => v.rank + 2
  | .tryRLock v => v.rank + 3
  | .inside v => v.rank + 4
  | .unlock after => after.rank + 1

namespace ClosePc

def phase : ClosePc → Nat
  | .idle => 16 | .rlock => 15 | .cancelAll => 14 | .runlock => 13 | .lock => 12 | .locking => 11
  | .unclaimed => 10 | .freeing _ => 9 | .handleClose => 8 | .clearPtr => 7 | .unlock => 6
  | .join => 5 | .final => 4 | .drain | .recv _ => 3 | .finish => 2 | .done => 1

-- The turns left in the loops of Close.
def turns (held : Nat) : ClosePc → Nat
  | .freeing ids => ids.card
  | .drain => 2 * held
  | .recv _ => 2 * held + 1
  | _ => 0

end ClosePc

-- Steps of what is under way: no new call, no expiry, no completion.
def Act.inner : Act → Bool
  | .thread _ _ | .closer _ => true
  | .reader (.consume _ _) => false
  | .reader _ => true
  | _ => false

namespace State

variable {cfg : Config} {s s' : State} {i : Nat} {ctx : Bool} {pc pc' : Pc}

def toll (s : State) : Nat ×ₗ Nat :=
  toLex (s.closer.phase, s.closer.turns s.sh.semTickets.card +
    census (fun th => th.pc.hold) s.threads + s.reader.rank)

/-- Something under way brings Close nearer its end. -/
def Presses (cfg : Config) (s : State) : Prop :=
  ∃ a u, a.inner = true ∧ s.step cfg a = some u ∧ u.toll < s.toll

theorem Presses.close {cl cl' : ClosePc} (here : s.closer = cl) (c : CloseChoice)
    (went : closeStep s cl c = some (s', cl')) (fewer : cl'.phase < cl.phase) : s.Presses cfg := by
  refine ⟨.closer c, { s' with closer := cl' }, rfl, by simp [State.step, here, went], ?_⟩
  exact Prod.Lex.toLex_lt_toLex.mpr (.inl (here ▸ fewer))

theorem Presses.loop {cl cl' : ClosePc} (here : s.closer = cl) (c : CloseChoice)
    (went : closeStep s cl c = some (s', cl')) (same : cl'.phase = cl.phase)
    (threads : s'.threads = s.threads) (reader : s'.reader = s.reader)
    (fewer : cl'.turns s'.sh.semTickets.card < cl.turns s.sh.semTickets.card) :
    s.Presses cfg := by
  refine ⟨.closer c, { s' with closer := cl' }, rfl, by simp [State.step, here, went], ?_⟩
  refine Prod.Lex.toLex_lt_toLex.mpr (.inr ⟨here ▸ same, ?_⟩)
  simp only [threads, reader, here]
  omega

theorem Presses.thread (closed : s.sh.closed = true) (idle : ∀ n, s.closer.turns n = 0)
    (here : s.threads[i]? = some ⟨ctx, pc⟩) {c : Choice}
    (went : threadStep cfg s ctx pc c = some (s', pc')) (fewer : pc'.hold < pc.hold) :
    s.Presses cfg := by
  have turns := thread_turns went
  have reader := (thread_sweeps went).reader
  have closer : s'.closer = s.closer := by
    rcases turns.closer with same | ⟨openNow, _⟩
    · exact same
    · rw [closed] at openNow
      cases openNow
  have counted := census_set (fun th : Thread => th.pc.hold) here ⟨ctx, pc'⟩
  refine ⟨.thread i c, _, rfl, by simp [State.step, here, went]; rfl, ?_⟩
  refine Prod.Lex.toLex_lt_toLex.mpr (.inr ⟨by simp only [closer], ?_⟩)
  simp only [closer, reader, turns.threads, idle]
  simp only at counted
  omega

theorem Presses.reader (idle : ∀ n, s.closer.turns n = 0) {rd' : ReaderPc} {c : ReadChoice}
    (inner : (Act.reader c).inner = true) (went : readerStep s s.reader c = some (s', rd'))
    (fewer : rd'.rank < s.reader.rank) : s.Presses cfg := by
  have turns := reader_turns went
  refine ⟨.reader c, { s' with reader := rd' }, inner, by simp [State.step, went], ?_⟩
  refine Prod.Lex.toLex_lt_toLex.mpr (.inr ⟨by simp only [turns.closer], ?_⟩)
  simp only [turns.closer, turns.threads, idle]
  omega

theorem freeThen_hold (id : TakeId) (out : Outcome) : (freeThen id out).hold = 0 := by
  unfold freeThen
  split <;> rfl

theorem failed_hold (v : Visit) : v.failed.hold = 0 := by
  cases v with
  | view op data id =>
    cases op with
    | wait => rfl
    | waitBuffer => exact freeThen_hold id _
  | _ => rfl

theorem after_hold (after : After) : after.pc.hold = 0 := by
  cases after <;> rfl

/-- A caller that holds a lock has a step towards giving it up. -/
theorem thread_leaves (books : Ledger.Books cfg.poolSize s.ledger) (closed : s.sh.closed = true)
    (here : s.threads[i]? = some ⟨ctx, pc⟩) (holds : 0 < pc.hold)
    (free : s.mu = false ∨ 0 < pc.mu) :
    ∃ c s' pc', threadStep cfg s ctx pc c = some (s', pc') ∧ pc'.hold < pc.hold := by
  cases pc with
  | recvLocked t after =>
    obtain ⟨mid, received⟩ := books_received books here rfl
    exact ⟨.go, _, after.pc, by simp [threadStep, submitStep, waitStep, received]; rfl,
      by simp [after_hold, Pc.hold]⟩
  | enterPtr v =>
    exact ⟨.go, s, .unlock v.failed, by simp [threadStep, submitStep, waitStep, cgoStep, closed],
      by simp [Pc.hold, failed_hold]⟩
  | inside v =>
    cases v with
    | submit =>
      refine ⟨.go, s, _, rfl, ?_⟩
      split <;> simp [Pc.hold]
    | view op data id =>
      cases op with
      | wait => exact ⟨.go, s, _, rfl, by simp [Pc.hold, freeThen_hold]⟩
      | waitBuffer => exact ⟨.go, s, _, rfl, by simp [Pc.hold]⟩
    | cancel op t c => exact ⟨.go, s, _, rfl, by simp [Pc.hold]⟩
    | free id out => exact ⟨.go, s, _, rfl, by simp [Pc.hold]⟩
  | ffiSubmit => exact ⟨.refuse .closed, s, _, rfl, by simp [Pc.hold]⟩
  | insert t =>
    have free : s.mu = false := free.resolve_right (by simp [Pc.mu])
    refine ⟨.go, _, _, by simp only [threadStep, submitStep, free]; rfl, ?_⟩
    split <;> simp [Pc.hold]
  | unlock after => exact ⟨.go, _, after, rfl, by simp [Pc.hold]⟩
  | _ => cases holds

theorem books_room (books : Ledger.Books cfg.poolSize s.ledger) (t : Ticket) :
    s.sh.roomFor t = true := by
  unfold Shared.roomFor
  split
  · rename_i c entry
    obtain ⟨j, w, here, ticket, chan, got⟩ := books.desk.waiter_of_pending entry
    rcases books.desk.parked _ (List.mem_of_getElem? here) got with ⟨_, empty, _⟩ | ⟨sent, _⟩
    · rw [chan] at empty
      exact Option.isNone_iff_eq_none.mpr empty
    · rw [ticket] at sent
      exact absurd (entry.symm.trans sent) nofun
  · rfl

theorem afterBin_rank (t : Ticket) (held : Bool) : (ReaderPc.afterBin t held).rank ≤ 6 := by
  cases held <;> simp [ReaderPc.afterBin, ReaderPc.rank]

theorem readerFailed_rank (v : ReaderVisit) : v.failed.rank ≤ v.rank := by
  cases v with
  | binFree id t held => exact afterBin_rank t held
  | _ => exact Nat.le_refl _

/-- drainPipe has a step towards its end that waits for no completion. -/
theorem reader_leaves (books : Ledger.Books cfg.poolSize s.ledger) (closed : s.sh.closed = true)
    (free : s.mu = false) (running : s.reader ≠ .gone) :
    ∃ c s' rd', (Act.reader c).inner = true ∧ readerStep s s.reader c = some (s', rd') ∧
      rd'.rank < s.reader.rank := by
  cases reader : s.reader with
  | gone => exact absurd reader running
  | next => exact ⟨.fail, s, .exitClosed, rfl, rfl, by simp [ReaderPc.rank]⟩
  | take t => exact ⟨.took [] 0, s, _, rfl, rfl, by simp [ReaderPc.rank]⟩
  | takeLatch t => exact ⟨.go, _, _, rfl, rfl, by simp [ReaderPc.rank]⟩
  | deliver t res id =>
    have ready : s.sh.sendReady t = true := by simp [Shared.sendReady, books_room books]
    refine ⟨.go, _, _, rfl, by simp only [readerStep, free, ready]; rfl, ?_⟩
    split
    · split
      · exact Nat.lt_of_le_of_lt (afterBin_rank t _) (by simp [ReaderPc.rank])
      · simp [ReaderPc.rank, ReaderVisit.rank]
    · simp [ReaderPc.rank]
    · exact Nat.lt_of_le_of_lt (afterBin_rank t _) (by simp [ReaderPc.rank])
  | pay t =>
    have went := (books_never_blocks books).2.1 t reader
    obtain ⟨u, moved⟩ := Option.isSome_iff_exists.mp went
    simp only [State.step, reader, readerStep, Option.map_eq_some_iff] at moved
    obtain ⟨_, ⟨mid, received, _⟩, _⟩ := moved
    exact ⟨.go, mid.giveBack t, .next, rfl, by simp [readerStep, received], by simp [ReaderPc.rank]⟩
  | enterClosed v =>
    exact ⟨.go, s, v.failed, rfl, by simp [readerStep, closed],
      Nat.lt_succ_of_le (readerFailed_rank v)⟩
  | tryRLock v =>
    by_cases open_ : s.writer = .none
    · exact ⟨.go, { s with readers := s.readers + 1 }, .enterPtr v, rfl,
        by simp [readerStep, open_], by simp [ReaderPc.rank]⟩
    · exact ⟨.go, s, v.failed, rfl, by simp [readerStep, open_],
        Nat.lt_of_le_of_lt (readerFailed_rank v) (by simp [ReaderPc.rank])⟩
  | enterPtr v =>
    exact ⟨.go, s, .unlock v.failed, rfl, by simp [readerStep, closed],
      Nat.succ_lt_succ (Nat.lt_succ_of_le (readerFailed_rank v))⟩
  | inside v =>
    have below := readerFailed_rank v
    cases v with
    | take t => exact ⟨.go, s, .take t, rfl, rfl, by simp [ReaderPc.rank, ReaderVisit.rank]⟩
    | binFree id t held | exitFree id rest =>
      exact ⟨.go, s, _, rfl, rfl, by simp only [ReaderPc.rank]; omega⟩
  | unlock after => exact ⟨.go, _, after, rfl, rfl, by simp [ReaderPc.rank]⟩
  | exitClosed =>
    exact ⟨.go, s, .exitLocked false, rfl, by simp [readerStep, closed], by simp [ReaderPc.rank]⟩
  | exitErr => exact ⟨.go, _, .exitLocked true, rfl, rfl, by simp [ReaderPc.rank]⟩
  | exitLocked failed =>
    have ready : s.sh.stopReady := fun t _ => books_room books t
    refine ⟨.go, _, _, rfl, by simp only [readerStep, free, ready]; rfl, ?_⟩
    simp [Shared.stopReading, closed, ReaderPc.rank]
  | exitFree ids =>
    by_cases none : ids = 0
    · exact ⟨.go, _, .gone, rfl, by simp only [readerStep, none, if_true]; rfl,
        by simp [ReaderPc.rank]⟩
    · obtain ⟨id, member⟩ := Multiset.exists_mem_of_ne_zero none
      have card := Multiset.card_erase_add_one member
      refine ⟨.free id, s, _, rfl, by simp only [readerStep, member, if_true]; rfl, ?_⟩
      simp only [ReaderPc.rank, ReaderVisit.rank]
      omega

theorem locks_hold (locks : 0 < pc.locks) : 0 < pc.hold := by
  cases pc with
  | enterPtr v | inside v | ffiSubmit | insert t => simp [Pc.hold]
  | unlock after => exact Nat.succ_pos _
  | _ => cases locks

theorem mu_hold (mu : 0 < pc.mu) : 0 < pc.hold := by
  cases pc with
  | recvLocked t after => exact Nat.one_pos
  | unlock after => exact Nat.succ_pos _
  | _ => cases mu

/-- Whoever holds `mu` while Close does not is a caller that can give it up. -/
theorem presses_mu (books : Ledger.Books cfg.poolSize s.ledger) (locks : s.Locks)
    (closed : s.sh.closed = true) (idle : ∀ n, s.closer.turns n = 0) (outside : s.closer.mu = 0)
    (held : s.mu = true) : s.Presses cfg := by
  have total := locks.mu
  simp only [outside, held, Bool.toNat_true] at total
  obtain ⟨j, th, here, mu⟩ := exists_of_census_pos (fun th : Thread => th.pc.mu) (l := s.threads)
    (by omega)
  obtain ⟨c, mid, pc', went, fewer⟩ := thread_leaves books closed here (mu_hold mu) (.inr mu)
  exact .thread closed idle here went fewer

-- Where Close waits for `cgoMu`: a caller or the reader is inside.
theorem presses_readers (books : Ledger.Books cfg.poolSize s.ledger) (gates : s.Gates)
    (closed : s.sh.closed = true) (waiting : s.closer = .locking) (free : s.mu = false)
    (inside : s.readers ≠ 0) : s.Presses cfg := by
  have idle : ∀ n, s.closer.turns n = 0 := fun n => by rw [waiting]; rfl
  have total := gates.readers
  simp only [waiting, ClosePc.locks] at total
  by_cases held : 0 < census (fun th => th.pc.locks) s.threads
  · obtain ⟨j, th, here, locked⟩ := exists_of_census_pos (fun th : Thread => th.pc.locks) held
    obtain ⟨c, mid, pc', went, fewer⟩ :=
      thread_leaves books closed here (locks_hold locked) (.inl free)
    exact .thread closed idle here went fewer
  · have running : s.reader ≠ .gone := by
      intro gone
      simp only [gone, ReaderPc.locks] at total
      omega
    obtain ⟨c, mid, rd', inner, went, fewer⟩ := reader_leaves books closed free running
    exact .reader idle inner went fewer

theorem presses (reach : Reaches cfg anyTicket s) (closed : s.sh.closed = true)
    (running : s.closeDone = false) : s.Presses cfg := by
  have books := reaches_books reach
  have gates := reaches_gates reach
  have locks := reaches_locks reach
  have writer := locks.writer
  cases here : s.closer with
  | idle => exact absurd here (gates.shut.mp closed)
  | rlock =>
    rw [here] at writer
    exact .close here .go (by simp only [closeStep, writer]; rfl) (by decide)
  | cancelAll => exact .close here .go rfl (by decide)
  | runlock => exact .close here .go rfl (by decide)
  | lock => exact .close here .go rfl (by decide)
  | locking =>
    have idle : ∀ n, s.closer.turns n = 0 := fun n => by rw [here]; rfl
    cases held : s.mu with
    | true => exact presses_mu books locks closed idle (by rw [here]; rfl) held
    | false =>
      by_cases none : s.readers = 0
      · exact .close here .go (by simp only [closeStep, none, if_true]; rfl) (by decide)
      · exact presses_readers books gates closed here held none
  | unclaimed =>
    cases held : s.mu with
    | true =>
      exact presses_mu books locks closed (fun n => by rw [here]; rfl) (by rw [here]; rfl) held
    | false =>
      exact .close here .go (by simp only [closeStep, held]; rfl) (by simp [ClosePc.phase])
  | freeing ids =>
    by_cases none : ids = 0
    · exact .close here .go (by simp only [closeStep, none, if_true]; rfl) (by simp [ClosePc.phase])
    · obtain ⟨id, member⟩ := Multiset.exists_mem_of_ne_zero none
      have card := Multiset.card_erase_add_one member
      have went : closeStep s (.freeing ids) (.free id) = some (s, .freeing (ids.erase id)) := by
        simp only [closeStep, member, if_true]
      refine .loop here (.free id) went rfl rfl rfl ?_
      simp only [ClosePc.turns]
      omega
  | handleClose => exact .close here (.result none) rfl (by decide)
  | clearPtr => exact .close here .go rfl (by decide)
  | unlock => exact .close here .go rfl (by decide)
  | join =>
    have idle : ∀ n, s.closer.turns n = 0 := fun n => by rw [here]; rfl
    cases held : s.mu with
    | true => exact presses_mu books locks closed idle (by rw [here]; rfl) held
    | false =>
      cases done : s.drainDone with
      | true => exact .close here .go (by simp only [closeStep, done, if_true]; rfl) (by decide)
      | false =>
        have going : s.reader ≠ .gone := by
          intro gone
          have stopped := (reaches_swept reach).ended (by rw [gone]; rfl)
          rw [done] at stopped
          cases stopped
        obtain ⟨c, mid, rd', inner, went, fewer⟩ := reader_leaves books closed held going
        exact .reader idle inner went fewer
  | final =>
    cases held : s.mu with
    | true =>
      exact presses_mu books locks closed (fun n => by rw [here]; rfl) (by rw [here]; rfl) held
    | false => exact .close here .go (by simp only [closeStep, held]; rfl) (by decide)
  | drain =>
    by_cases none : s.sh.semTickets = ∅
    · exact .close here .go (by simp only [closeStep, none, if_true]; rfl) (by decide)
    · obtain ⟨t, member⟩ := Finset.nonempty_iff_ne_empty.mpr none
      have card := Finset.card_erase_add_one member
      have went : closeStep s .drain (.ticket t) =
          some ({ s with sh := { s.sh with semTickets := s.sh.semTickets.erase t } }, .recv t) := by
        simp only [closeStep, member, if_true]
      refine .loop here (.ticket t) went rfl rfl rfl ?_
      simp only [ClosePc.turns]
      omega
  | recv t =>
    have went := (books_never_blocks books).2.2 t here
    obtain ⟨u, moved⟩ := Option.isSome_iff_exists.mp went
    simp only [State.step, here, closeStep, Option.map_eq_some_iff] at moved
    obtain ⟨_, ⟨mid, received, _⟩, _⟩ := moved
    have went : closeStep s (.recv t) .go = some (mid.giveBack t, .drain) := by
      simp only [closeStep, received, Option.map_some]
    obtain ⟨_, rfl⟩ := receiveSem_some received
    refine .loop here .go went rfl rfl rfl ?_
    simp [ClosePc.turns, giveBack]
  | finish => exact .close here .go rfl (by decide)
  | done =>
    rw [locks.halted.mpr here] at running
    cases running

/-- A Close that has begun comes to its end by steps of what is under way. -/
theorem close_returns (reach : Reaches cfg anyTicket s) (closed : s.sh.closed = true) :
    ∃ (acts : List Act) (u : State), (∀ a ∈ acts, a.inner = true) ∧
      follows cfg anyTicket s acts = some u ∧ u.closeDone = true := by
  induction toll : s.toll using WellFoundedLT.induction generalizing s with
  | _ n ih =>
    cases running : s.closeDone with
    | true => exact ⟨[], s, nofun, rfl, running⟩
    | false =>
      obtain ⟨a, mid, inner, went, fewer⟩ := presses reach closed running
      obtain ⟨acts, u, all, run, halted⟩ := ih mid.toll (toll ▸ fewer)
        (reach.next ⟨a, went, fun _ _ => trivial⟩) ((step_flags went).1 closed) rfl
      refine ⟨a :: acts, u, ?_, ?_, halted⟩
      · intro b member
        rcases List.mem_cons.mp member with rfl | later
        · exact inner
        · exact all b later
      · have first : (if ∀ t ∈ s.claims a, anyTicket s.ledger t then s.step cfg a else none) =
            some mid := by
          simp [anyTicket, went]
        simp only [follows, follow, first, Option.bind_some]
        exact run

-- What every Close call answers.
def closeAnswer (s : State) : Outcome :=
  match s.closeErr with
  | some e => .err e
  | none => .ok

theorem awaitClose_step {c : Choice} (here : s.threads[i]? = some ⟨ctx, .awaitClose⟩)
    (went : s.step cfg (.thread i c) = some s') :
    s.closeDone = true ∧ s'.threads[i]? = some ⟨ctx, .done s.closeAnswer⟩ := by
  simp only [State.step, here, Option.bind_some, Option.map_eq_some_iff] at went
  obtain ⟨r, went, rfl⟩ := went
  cases c with
  | go =>
    simp only [threadStep, submitStep, waitStep, cgoStep, closeCallStep, Option.none_or] at went
    split at went
    · rename_i halted
      cases went
      refine ⟨halted, ?_⟩
      simp only [List.getElem?_set_self', here, closeAnswer, Option.map_eq_map, Option.map_some]
      rfl
    · cases went
  | _ => cases went

theorem close_quiesces (reach : Reaches cfg anyTicket s) :
    (∀ i ctx c u, s.threads[i]? = some ⟨ctx, .awaitClose⟩ →
      s.step cfg (.thread i c) = some u → s.closeDone = true) ∧
    (s.sh.closed = true → ∃ (acts : List Act) (u : State), (∀ a ∈ acts, a.inner = true) ∧
      follows cfg anyTicket s acts = some u ∧ u.closeDone = true) ∧
    (s.closer.locked = true → ∀ u, Later cfg s u → u.hist.accepted = s.hist.accepted) ∧
    (s.closeDone = true → ∀ u, Later cfg s u →
      u.Quiesced ∧ (∀ i < u.threads.length, u.Returns cfg i) ∧
      (∀ i ctx c v, u.threads[i]? = some ⟨ctx, .awaitClose⟩ →
        u.step cfg (.thread i c) = some v → v.threads[i]? = some ⟨ctx, .done s.closeAnswer⟩)) := by
  refine ⟨fun i ctx c u here went => (awaitClose_step here went).1, close_returns reach, ?_, ?_⟩
  · intro locked u later
    exact (later.settled reach locked).accepted
  · intro halted u later
    have locked : s.closer.locked = true := by
      rw [(reaches_locks reach).halted.mp halted]
      rfl
    obtain ⟨still, err⟩ := (later.settled reach locked).answer halted
    have reachU := later.reaches reach
    refine ⟨quiesced_of_done reachU still, ?_, ?_⟩
    · intro i inside
      exact returns_of_done reachU still (List.getElem?_eq_getElem inside)
    · intro i ctx c v here went
      have same : u.closeAnswer = s.closeAnswer := by simp only [closeAnswer, err]
      exact same ▸ (awaitClose_step here went).2

-- Close overtakes a submitter whose permit is still to be given back.
def outlived : Option State :=
  follows ⟨2, 0⟩ anyTicket opened
    (submitUpTo 7 ++
      ([.reader (.consume 7 (some [])), .reader .go, .thread 0 .go, .thread 0 .go, .call .close,
        .thread 1 .go] : List Act) ++ List.replicate 7 (Act.closer .go) ++
      ([.closer (.result none)] : List Act) ++ List.replicate 2 (Act.closer .go) ++
      ([.reader .fail] : List Act) ++ List.replicate 3 (Act.reader .go) ++
      List.replicate 4 (Act.closer .go))

theorem outlived_runs : outlived.isSome = true := by decide +kernel

theorem close_quiesces_outlived :
    (outlived.get outlived_runs).threads = [⟨false, .release 7⟩, ⟨false, .awaitClose⟩] ∧
    (outlived.get outlived_runs).sh.sem = 1 ∧ (outlived.get outlived_runs).Quiesced ∧
    (outlived.get outlived_runs).Returns ⟨2, 0⟩ 0 := by
  have reach : Reaches ⟨2, 0⟩ anyTicket (outlived.get outlived_runs) :=
    follows_reaches (.start rfl) (Option.some_get _).symm
  obtain ⟨quiesced, returns, _⟩ := (close_quiesces reach).2.2.2 (by decide +kernel) _ .refl
  exact ⟨by decide +kernel, by decide +kernel, quiesced, returns 0 (by decide +kernel)⟩

end State

end Gusset.Handle
