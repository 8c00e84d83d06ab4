import Gusset.Handle.Runs

/-! `mu`, the write side of `cgoMu`, `s.ptr` and `closeDone`: each is where the Close stands, and
the holder of `mu` is one. -/
namespace Gusset.Handle
open Foundation

-- 1 where a caller holds `mu` across a receive.
def Pc.mu : Pc → Nat
  | .recvLocked _ _ => 1
  | .unlock after => after.mu
  | _ => 0

namespace ClosePc

def mu : ClosePc → Nat
  | .drain | .recv _ => 1
  | _ => 0

def writer : ClosePc → Writer
  | .locking => .waiting
  | .unclaimed | .freeing _ | .handleClose | .clearPtr | .unlock => .holding
  | _ => .none

-- Whether `s.ptr` is still set.
def ptr : ClosePc → Bool
  | .unlock | .join | .final | .drain | .recv _ | .finish | .done => false
  | _ => true

end ClosePc

namespace State

variable {cfg : Config} {s s' : State} {i : Nat} {ctx : Bool} {pc pc' : Pc}

structure Locks (s : State) : Prop where
  writer : s.writer = s.closer.writer
  alone : s.writer = .holding → s.readers = 0
  ptr : s.ptr = s.closer.ptr
  mu : census (fun th => th.pc.mu) s.threads + s.closer.mu = s.mu.toNat
  halted : s.closeDone = true ↔ s.closer = .done

@[grind =] theorem freeThen_mu (id : TakeId) (out : Outcome) : (freeThen id out).mu = 0 := by
  unfold freeThen
  split <;> rfl

@[grind =] theorem failed_mu (v : Visit) : v.failed.mu = 0 := by
  cases v with
  | view op data id => cases op <;> grind -ring -linarith [Visit.failed, Pc.mu]
  | _ => rfl

@[grind =] theorem after_mu (after : After) : after.pc.mu = 0 := by
  cases after <;> rfl

@[grind =] theorem refusal_mu (why : Refusal) : why.pc.mu = 0 := by
  cases why <;> rfl

/-- What a caller's step can do here: move `mu` along with its own place, or start the Close. -/
structure Turns (s s' : State) (pc pc' : Pc) : Prop where
  writer : s'.writer = s.writer
  ptr : s'.ptr = s.ptr
  halted : s'.closeDone = s.closeDone
  err : s'.closeErr = s.closeErr
  threads : s'.threads = s.threads
  closer : s'.closer = s.closer ∨ (s.sh.closed = false ∧ s'.closer = .rlock)
  readers : s'.readers ≤ s.readers ∨ s.writer = .none
  mu : pc.mu ≤ s.mu.toNat → s'.mu.toNat + pc.mu = s.mu.toNat + pc'.mu
  closed : s.sh.closed = true → s'.sh.closed = true
  exited : s'.sh.drainExited = s.sh.drainExited

theorem submit_turns {c : Choice} (went : submitStep cfg s ctx pc c = some (s', pc')) :
    Turns s s' pc pc' := by
  unfold submitStep at went
  split at went <;> (try split at went) <;> (try split at went) <;>
    constructor <;> grind -ring -linarith [Pc.mu, receiveSem, giveBack, Shared.insertLocked,
      Shared.notifyUncollectedLocked]

theorem wait_turns {c : Choice} (went : waitStep cfg s ctx pc c = some (s', pc')) :
    Turns s s' pc pc' := by
  unfold waitStep at went
  split at went <;> (try split at went) <;> (try split at went) <;>
    constructor <;> grind -ring -linarith
      [Pc.mu, receiveSem, giveBack, settle, Bool.toNat_le, Shared.claimLocked,
      Shared.collectLocked, Shared.registerLocked, Shared.waitChanLocked, Shared.detachLocked,
      Shared.abandonLocked, Shared.recycleWaitChanLocked, Shared.popTakeIDLocked,
      Shared.releaseSemLocked, Shared.receive, Shared.notifyUncollectedLocked]

theorem cgo_turns {c : Choice} (went : cgoStep s pc c = some (s', pc')) : Turns s s' pc pc' := by
  unfold cgoStep at went
  split at went <;> constructor <;> grind -ring -linarith [Pc.mu]

theorem closeCall_turns {c : Choice} (went : closeCallStep s pc c = some (s', pc')) :
    Turns s s' pc pc' := by
  unfold closeCallStep at went
  split at went <;> constructor <;> grind -ring -linarith [Pc.mu]

theorem thread_turns {c : Choice} (went : threadStep cfg s ctx pc c = some (s', pc')) :
    Turns s s' pc pc' := by
  simp only [threadStep, Option.or_eq_some_iff] at went
  rcases went with submit | ⟨_, wait | ⟨_, cgo | ⟨_, close⟩⟩⟩
  · exact submit_turns submit
  · exact wait_turns wait
  · exact cgo_turns cgo
  · exact closeCall_turns close

theorem Locks.thread (locks : s.Locks) (gates : s.Gates) (here : s.threads[i]? = some ⟨ctx, pc⟩)
    (turns : Turns s s' pc pc') :
    { s' with threads := s'.threads.set i ⟨ctx, pc'⟩ : State }.Locks := by
  have mine := le_census (fun th : Thread => th.pc.mu) here
  have moved := census_set (fun th : Thread => th.pc.mu) here ⟨ctx, pc'⟩
  have total := locks.mu
  have mu := turns.mu (by simp only at mine; omega)
  have closer : s'.closer.writer = s.closer.writer ∧ s'.closer.ptr = s.closer.ptr ∧
      s'.closer.mu = s.closer.mu ∧ (s'.closer = .done ↔ s.closer = .done) := by
    rcases turns.closer with same | ⟨openNow, new⟩
    · simp [same]
    · have idle : s.closer = .idle := by
        by_contra busy
        rw [gates.shut.mpr busy] at openNow
        cases openNow
      simp [new, idle, ClosePc.writer, ClosePc.ptr, ClosePc.mu]
  constructor
  · simp only [turns.writer, closer.1, locks.writer]
  · intro holding
    simp only [turns.writer] at holding
    have none := locks.alone holding
    rcases turns.readers with fewer | free
    · simp only
      omega
    · rw [free] at holding
      cases holding
  · simp only [turns.ptr, closer.2.1, locks.ptr]
  · simp only [turns.threads, closer.2.2.1] at moved ⊢
    omega
  · simp only [turns.halted, closer.2.2.2, locks.halted]

structure ReaderTurns (s s' : State) : Prop where
  writer : s'.writer = s.writer
  ptr : s'.ptr = s.ptr
  halted : s'.closeDone = s.closeDone
  err : s'.closeErr = s.closeErr
  threads : s'.threads = s.threads
  closer : s'.closer = s.closer
  mu : s'.mu = s.mu
  readers : s'.readers ≤ s.readers ∨ s.writer = .none
  closed : s'.sh.closed = s.sh.closed
  exited : s.sh.drainExited = true → s'.sh.drainExited = true

theorem reader_turns {rd rd' : ReaderPc} {c : ReadChoice}
    (went : readerStep s rd c = some (s', rd')) :
    ReaderTurns s s' := by
  unfold readerStep at went
  split at went <;> (try split at went) <;> constructor <;>
    grind -ring -linarith [receiveSem, giveBack, Shared.deliver, Shared.noteTake, Shared.stopReading,
      Shared.takeUnclaimedLocked, Shared.notifyUncollectedLocked]

/-- The body of Close moves all of them, and no caller. -/
theorem close_turns (locks : s.Locks) {pc' : ClosePc} {c : CloseChoice}
    (went : closeStep s s.closer c = some (s', pc')) :
    { s' with closer := pc' : State }.Locks := by
  obtain ⟨writer, alone, ptr, mu, halted⟩ := locks
  unfold closeStep at went
  split at went <;> constructor <;>
    grind -ring -linarith [receiveSem, giveBack, ClosePc.writer, ClosePc.ptr, ClosePc.mu, Bool.toNat_le]

theorem close_flags {rd rd' : ClosePc} {c : CloseChoice} (went : closeStep s rd c = some (s', rd')) :
    s'.sh.closed = s.sh.closed ∧ s'.sh.drainExited = s.sh.drainExited := by
  unfold closeStep at went
  split at went <;>
    grind -ring -linarith [receiveSem, giveBack, Shared.takeUnclaimedLocked,
      Shared.notifyUncollectedLocked]

/-- Neither flag is ever cleared. -/
theorem step_flags {a : Act} (went : s.step cfg a = some s') :
    (s.sh.closed = true → s'.sh.closed = true) ∧
    (s.sh.drainExited = true → s'.sh.drainExited = true) := by
  cases a with
  | call c =>
    cases went
    exact ⟨id, id⟩
  | expire i =>
    simp only [State.step, Option.map_eq_some_iff] at went
    obtain ⟨th, here, rfl⟩ := went
    exact ⟨id, id⟩
  | thread i c =>
    simp only [State.step, Option.bind_eq_some_iff, Option.map_eq_some_iff] at went
    obtain ⟨th, here, r, went, rfl⟩ := went
    have turns := thread_turns went
    exact ⟨turns.closed, fun yes => turns.exited.trans yes⟩
  | reader c =>
    simp only [State.step, Option.map_eq_some_iff] at went
    obtain ⟨r, went, rfl⟩ := went
    have turns := reader_turns went
    exact ⟨fun yes => turns.closed.trans yes, turns.exited⟩
  | closer c =>
    simp only [State.step, Option.map_eq_some_iff] at went
    obtain ⟨r, went, rfl⟩ := went
    obtain ⟨closed, exited⟩ := close_flags went
    exact ⟨fun yes => closed.trans yes, fun yes => exited.trans yes⟩

theorem opened_locks : opened.Locks where
  writer := rfl
  alone := nofun
  ptr := rfl
  mu := rfl
  halted := by simp [opened]

theorem Locks.step (locks : s.Locks) (gates : s.Gates) {a : Act} (went : s.step cfg a = some s') :
    s'.Locks := by
  cases a with
  | call c =>
    cases went
    have outside : c.pc.mu = 0 := by cases c <;> rfl
    exact { locks with mu := by simpa [outside] using locks.mu }
  | expire i =>
    simp only [State.step, Option.map_eq_some_iff] at went
    obtain ⟨th, here, rfl⟩ := went
    have same := census_set_same (fun th : Thread => th.pc.mu) (b := { th with ctx := true }) here rfl
    exact { locks with mu := by simpa only [same] using locks.mu }
  | thread i c =>
    simp only [State.step, Option.bind_eq_some_iff, Option.map_eq_some_iff] at went
    obtain ⟨th, here, r, went, rfl⟩ := went
    exact locks.thread gates here (thread_turns went)
  | reader c =>
    simp only [State.step, Option.map_eq_some_iff] at went
    obtain ⟨r, went, rfl⟩ := went
    have turns := reader_turns went
    constructor
    · simpa only [turns.writer, turns.closer] using locks.writer
    · intro holding
      simp only [turns.writer] at holding
      have none := locks.alone holding
      rcases turns.readers with fewer | free
      · simp only
        omega
      · rw [free] at holding
        cases holding
    · simpa only [turns.ptr, turns.closer] using locks.ptr
    · simpa only [turns.threads, turns.closer, turns.mu] using locks.mu
    · simpa only [turns.halted, turns.closer] using locks.halted
  | closer c =>
    simp only [State.step, Option.map_eq_some_iff] at went
    obtain ⟨r, went, rfl⟩ := went
    exact close_turns locks went

theorem reaches_locks {allowed : Ledger.Guard} (reach : Reaches cfg allowed s) : s.Locks := by
  apply reach.induction
  · rintro _ rfl
    exact opened_locks
  · rintro s s' before locks ⟨a, went, _⟩
    exact locks.step (reaches_gates before) went

end State

end Gusset.Handle
