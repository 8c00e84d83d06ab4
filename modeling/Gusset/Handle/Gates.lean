import Gusset.Handle.Routing
import Gusset.Handle.Program

/-! `cgoMu`, `closed` and `drainDone`: who can be inside Rust when, and when the reader is gone. -/
namespace Gusset.Handle
open Foundation

-- Read locks of `cgoMu`: the one a caller has, with those it is about to give up.
def Pc.locks : Pc → Nat
  | .enterPtr _ | .inside _ | .ffiSubmit | .insert _ => 1
  | .unlock after => 1 + after.locks
  | _ => 0

def ReaderPc.locks : ReaderPc → Nat
  | .enterPtr _ | .inside _ | .take _ | .takeLatch _ => 1
  | .unlock after => 1 + after.locks
  | _ => 0

def ClosePc.locks : ClosePc → Nat
  | .cancelAll | .runlock => 1
  | _ => 0

-- Close holds `cgoMu` exclusively or has done so.
def ClosePc.locked : ClosePc → Bool
  | .idle | .rlock | .cancelAll | .runlock | .lock | .locking => false
  | _ => true

-- A submitter between `enterCgo` and its insert.
def Pc.submitting : Pc → Bool
  | .inside .submit | .ffiSubmit | .insert _ => true
  | .unlock after => after.submitting
  | _ => false

namespace State

structure Gates (s : State) : Prop where
  readers : s.readers = census (fun th => th.pc.locks) s.threads + s.reader.locks + s.closer.locks
  shut : s.sh.closed = true ↔ s.closer ≠ .idle
  empty : s.closer.locked = true → ∀ th ∈ s.threads, th.pc.submitting = false
  done : s.drainDone = true → s.reader = .gone
  joined : s.closer = .final → s.drainDone = true

variable {cfg : Config} {s s' : State} {i : Nat} {ctx : Bool} {pc pc' : Pc}

/-- What a caller's step can do to the gates. -/
structure Passes (s s' : State) (pc pc' : Pc) : Prop where
  threads : s'.threads = s.threads
  reader : s'.reader = s.reader
  done : s'.drainDone = s.drainDone
  readers : pc.locks ≤ s.readers → s'.readers + pc.locks = s.readers + pc'.locks
  gate : (s'.sh.closed = s.sh.closed ∧ s'.closer = s.closer) ∨
    (s.sh.closed = false ∧ s'.sh.closed = true ∧ s'.closer = .rlock)
  enters : pc'.submitting = true → pc.submitting = true ∨ s.sh.closed = false

theorem failed_locks (v : Visit) : v.failed.locks = 0 ∧ v.failed.submitting = false := by
  cases v with
  | view op data id =>
    cases op with
    | wait => exact ⟨rfl, rfl⟩
    | waitBuffer =>
      simp only [Visit.failed, freeThen]
      split <;> exact ⟨rfl, rfl⟩
  | _ => exact ⟨rfl, rfl⟩

theorem freeThen_locks (id : TakeId) (out : Outcome) :
    (freeThen id out).locks = 0 ∧ (freeThen id out).submitting = false := by
  unfold freeThen
  split <;> exact ⟨rfl, rfl⟩

theorem Passes.keep (threads : s'.threads = s.threads) (reader : s'.reader = s.reader)
    (done : s'.drainDone = s.drainDone) (readers : s'.readers = s.readers)
    (closer : s'.closer = s.closer) (closed : s'.sh.closed = s.sh.closed)
    (locks : pc'.locks = pc.locks) (enters : pc'.submitting = true → pc.submitting = true) :
    Passes s s' pc pc' where
  threads := threads
  reader := reader
  done := done
  readers := fun _ => by rw [locks, readers]
  gate := .inl ⟨closed, closer⟩
  enters := fun inside => .inl (enters inside)

theorem receiveSem_some (received : s.receiveSem = some s') :
    0 < s.sh.sem ∧ s' = { s with sh := { s.sh with sem := s.sh.sem - 1 } } := by
  unfold receiveSem at received
  split at received
  · rename_i some_one
    exact ⟨some_one, (Option.some.inj received).symm⟩
  · cases received

theorem submit_passes {c : Choice} (went : submitStep cfg s ctx pc c = some (s', pc')) :
    Passes s s' pc pc' := by
  cases pc with
  | closed1 input | exited1 input | poisoned1 input | ctxErr | closed2 | exited2 =>
    cases c with
    | go =>
      cases went
      refine .keep rfl rfl rfl rfl rfl rfl ?_ ?_ <;> split <;> simp [Pc.locks, Pc.submitting]
    | _ => cases went
  | input input =>
    cases c with
    | go =>
      cases input with
      | bytes n =>
        cases went
        refine .keep rfl rfl rfl rfl rfl rfl ?_ ?_ <;> split <;> simp [Pc.locks, Pc.submitting]
      | buffer =>
        cases went
        exact .keep rfl rfl rfl rfl rfl rfl rfl (by simp [Pc.submitting])
    | refuse e =>
      cases input <;> cases went <;>
        exact .keep rfl rfl rfl rfl rfl rfl rfl (by simp [Pc.submitting])
    | _ => cases input <;> cases went
  | acquire | parked =>
    cases c with
    | go | ctx | drained =>
      simp only [submitStep] at went
      split at went
      · cases went
        exact .keep rfl rfl rfl rfl rfl rfl rfl (by simp [Pc.submitting])
      · cases went
    | _ => cases went
  | poisoned2 =>
    cases c with
    | go =>
      cases went
      refine .keep rfl rfl rfl rfl rfl rfl ?_ ?_ <;> split <;> try split
      all_goals simp [Pc.locks, Pc.submitting]
    | _ => cases went
  | ceiling =>
    cases c with
    | go =>
      simp only [submitStep] at went
      split at went
      · cases went
      · split at went
        · cases went
          exact .keep rfl rfl rfl rfl rfl rfl rfl (by simp [Pc.submitting])
        · split at went
          · cases went
            exact .keep rfl rfl rfl rfl rfl rfl rfl (by simp [Pc.submitting])
          · cases went
            refine .keep rfl rfl rfl rfl rfl ?_ rfl (by simp [Pc.submitting])
            simp only
            split <;> rfl
    | _ => cases went
  | giveBack why =>
    cases c with
    | go =>
      simp only [submitStep, Option.map_eq_some_iff] at went
      obtain ⟨mid, received, same⟩ := went
      obtain ⟨_, rfl⟩ := receiveSem_some received
      cases same
      refine .keep rfl rfl rfl rfl rfl rfl ?_ ?_ <;> cases why <;>
        simp [Refusal.pc, Pc.locks, Pc.submitting]
    | _ => cases went
  | ffiSubmit =>
    cases c with
    | ticket t =>
      simp only [submitStep] at went
      split at went
      · cases went
      · cases went
        exact .keep rfl rfl rfl rfl rfl rfl rfl (fun _ => rfl)
    | refuse e =>
      cases went
      exact .keep rfl rfl rfl rfl rfl rfl rfl (fun _ => rfl)
    | _ => cases went
  | insert t =>
    cases c with
    | go =>
      simp only [submitStep] at went
      split at went
      · cases went
      · cases went
        refine .keep rfl rfl rfl rfl rfl ?_ ?_ (fun _ => rfl)
        · change (s.sh.insertLocked t).2.closed = s.sh.closed
          rw [Ledger.insert_quiet]
        · simp only [Pc.locks]
          split <;> rfl
    | _ => cases went
  | release t =>
    cases c with
    | go =>
      simp only [submitStep, Option.map_eq_some_iff] at went
      obtain ⟨mid, received, same⟩ := went
      obtain ⟨_, rfl⟩ := receiveSem_some received
      cases same
      exact .keep rfl rfl rfl rfl rfl rfl rfl (by simp [Pc.submitting])
    | _ => cases went
  | issue t | latch e =>
    cases c with
    | go =>
      cases went
      exact .keep rfl rfl rfl rfl rfl rfl rfl (by simp [Pc.submitting])
    | _ => cases went
  | _ => cases went

-- The end of a claim, on the way of a caller that holds no read lock.
theorem Passes.settle {mid : State} {t : Ticket} {owes : Bool} {after : After}
    (ended : mid.settle t owes after = (s', pc')) (threads : mid.threads = s.threads)
    (reader : mid.reader = s.reader) (done : mid.drainDone = s.drainDone)
    (readers : mid.readers = s.readers) (closer : mid.closer = s.closer)
    (closed : mid.sh.closed = s.sh.closed) (locks : pc.locks = 0) : Passes s s' pc pc' := by
  unfold State.settle at ended
  cases owes with
  | true =>
    cases ended
    exact .keep threads reader done readers closer closed (by simp [locks, Pc.locks])
      (by simp [Pc.submitting])
  | false =>
    cases ended
    refine .keep threads reader done readers closer closed ?_ ?_ <;> cases after <;>
      simp [locks, After.pc, Pc.locks, Pc.submitting]

theorem claim_closed {sh : Shared} {t : Ticket} {claim : Shared.Claim}
    (claimed : s.sh.claimLocked t = (claim, sh)) : sh.closed = s.sh.closed := by
  cases claim with
  | done res id owes =>
    rw [(Ledger.claim_done claimed).2.2.2]
  | _ => rw [Ledger.claim_keeps claimed (by simp)]

theorem collect_closed (cap : Nat) (sh : Shared) (t : Ticket) (c : Nat) :
    ((sh.recycleWaitChanLocked cap c).collectLocked t).2.2.closed = sh.closed := by
  rw [Ledger.collect_fields, (Ledger.recycle_chosen cap sh c).1]

theorem wait_passes {c : Choice} (went : waitStep cfg s ctx pc c = some (s', pc')) :
    Passes s s' pc pc' := by
  cases pc with
  | claim op t | discardClaim t =>
    cases c with
    | go =>
      simp only [waitStep] at went
      split at went
      · cases went
      · split at went
        · rename_i claimed
          exact .settle (Option.some.inj went) rfl rfl rfl rfl rfl (claim_closed claimed) rfl
        · rename_i claimed
          cases went
          exact .keep rfl rfl rfl rfl rfl (claim_closed claimed) rfl (by simp [Pc.submitting])
        · rename_i claimed
          cases went
          refine .keep rfl rfl rfl rfl rfl ?_ rfl (by simp [Pc.submitting])
          obtain rfl := Ledger.claim_keeps claimed (by simp)
          first
          | rw [(Ledger.register_chosen s.sh t).1]
          | rfl
    | _ => cases went
  | await op t c =>
    rename_i choice
    cases choice with
    | go | ctx =>
      simp only [waitStep] at went
      split at went <;> cases went
      exact .keep rfl rfl rfl rfl rfl rfl rfl (by simp [Pc.submitting])
    | _ => cases went
  | got op t c res =>
    rename_i choice
    cases choice with
    | go =>
      simp only [waitStep] at went
      split at went
      · cases went
      · exact .settle (Option.some.inj went) rfl rfl rfl rfl rfl (collect_closed _ s.sh t c) rfl
    | _ => cases went
  | race op t c =>
    rename_i choice
    cases choice with
    | go =>
      simp only [waitStep] at went
      split at went
      · cases went
      · split at went
        · exact .settle (Option.some.inj went) rfl rfl rfl rfl rfl
            (collect_closed _ (s.sh.receive c) t c) rfl
        · cases went
          refine .keep rfl rfl rfl rfl rfl ?_ rfl (by simp [Pc.submitting])
          simp only [Shared.detachLocked, Shared.abandonLocked]
          rw [(Ledger.recycle_chosen _ _ c).1]
    | _ => cases went
  | recvLocked t after =>
    cases c with
    | go =>
      simp only [waitStep, Option.map_eq_some_iff] at went
      obtain ⟨mid, received, same⟩ := went
      obtain ⟨_, rfl⟩ := receiveSem_some received
      cases same
      refine .keep rfl rfl rfl rfl rfl rfl ?_ ?_ <;> cases after <;>
        simp [After.pc, Pc.locks, Pc.submitting]
    | _ => cases went
  | outcome op res id =>
    cases c with
    | go =>
      cases went
      have idle := freeThen_locks id
      refine .keep rfl rfl rfl rfl rfl rfl ?_ ?_
      · split
        · exact (idle _).1
        · split
          · rfl
          · split <;> rfl
      · split
        · simp [(idle _).2]
        · split
          · simp [Pc.submitting]
          · split <;> simp [Pc.submitting]
    | _ => cases went
  | bufClosed data =>
    cases c with
    | go =>
      cases went
      exact .keep rfl rfl rfl rfl rfl rfl rfl (by simp [Pc.submitting])
    | _ => cases went
  | raced res id | discarded id =>
    cases c with
    | go =>
      cases went
      exact .keep rfl rfl rfl rfl rfl rfl (freeThen_locks id _).1 (by simp [(freeThen_locks id _).2])
    | _ => cases went
  | discardClosed t =>
    cases c with
    | go =>
      cases went
      refine .keep rfl rfl rfl rfl rfl rfl ?_ ?_ <;> split <;> simp [Pc.locks, Pc.submitting]
    | _ => cases went
  | _ => cases went

theorem cgo_passes {c : Choice} (went : cgoStep s pc c = some (s', pc')) :
    Passes s s' pc pc' := by
  cases pc with
  | enterClosed v =>
    cases c with
    | go =>
      cases went
      obtain ⟨locks, outside⟩ := failed_locks v
      refine .keep rfl rfl rfl rfl rfl rfl ?_ ?_
      · split
        · exact locks
        · rfl
      · split
        · simp [outside]
        · simp [Pc.submitting]
    | _ => cases went
  | tryRLock v =>
    cases c with
    | go =>
      obtain ⟨locks, outside⟩ := failed_locks v
      simp only [cgoStep] at went
      split at went
      · cases went
        exact { threads := rfl, reader := rfl, done := rfl, readers := fun _ => rfl
                gate := .inl ⟨rfl, rfl⟩, enters := by simp [Pc.submitting] }
      · cases went
        exact .keep rfl rfl rfl rfl rfl rfl locks (by simp [outside])
    | _ => cases went
  | enterPtr v =>
    cases c with
    | go =>
      cases went
      obtain ⟨locks, outside⟩ := failed_locks v
      -- Only here does a submitter get in, and only while the handle is open.
      refine { threads := rfl, reader := rfl, done := rfl, readers := fun _ => ?_
               gate := .inl ⟨rfl, rfl⟩, enters := ?_ }
      · split <;> simp [locks, Pc.locks]
      · split
        · simp [Pc.submitting, outside]
        · rename_i openNow
          intro _
          simp only [not_or, Bool.not_eq_true] at openNow
          exact .inr openNow.1
    | _ => cases went
  | inside v =>
    cases c with
    | go =>
      cases v with
      | submit =>
        cases went
        refine .keep rfl rfl rfl rfl rfl rfl ?_ (fun _ => rfl)
        split <;> rfl
      | view op data id =>
        cases op with
        | wait =>
          cases went
          have idle := freeThen_locks id (.data data)
          exact .keep rfl rfl rfl rfl rfl rfl (by simp [Pc.locks, idle.1])
            (by simp [Pc.submitting, idle.2])
        | waitBuffer =>
          cases went
          exact .keep rfl rfl rfl rfl rfl rfl rfl (by simp [Pc.submitting])
      | _ =>
        cases went
        exact .keep rfl rfl rfl rfl rfl rfl rfl (by simp [Pc.submitting])
    | _ =>
      cases v with
      | view op data id => cases op <;> cases went
      | _ => cases went
  | unlock after =>
    cases c with
    | go =>
      cases went
      refine { threads := rfl, reader := rfl, done := rfl, readers := ?_
               gate := .inl ⟨rfl, rfl⟩, enters := ?_ }
      · simp only [Pc.locks]
        omega
      · exact .inl
    | _ => cases went
  | _ => cases went

theorem closeCall_passes {c : Choice} (went : closeCallStep s pc c = some (s', pc')) :
    Passes s s' pc pc' := by
  cases pc with
  | closeSwap =>
    cases c with
    | go =>
      simp only [closeCallStep] at went
      split at went
      · cases went
        exact .keep rfl rfl rfl rfl rfl rfl rfl (by simp [Pc.submitting])
      · rename_i openNow
        cases went
        exact { threads := rfl, reader := rfl, done := rfl, readers := fun _ => rfl
                gate := .inr ⟨by simpa using openNow, rfl, rfl⟩, enters := by simp [Pc.submitting] }
    | _ => cases went
  | awaitClose =>
    cases c with
    | go =>
      simp only [closeCallStep] at went
      split at went
      · cases went
        exact .keep rfl rfl rfl rfl rfl rfl rfl (by simp [Pc.submitting])
      · cases went
    | _ => cases went
  | answerClosed =>
    cases c with
    | go =>
      cases went
      exact .keep rfl rfl rfl rfl rfl rfl rfl (by simp [Pc.submitting])
    | _ => cases went
  | _ => cases went

theorem thread_passes {c : Choice} (went : threadStep cfg s ctx pc c = some (s', pc')) :
    Passes s s' pc pc' := by
  simp only [threadStep, Option.or_eq_some_iff] at went
  rcases went with submit | ⟨_, wait | ⟨_, cgo | ⟨_, close⟩⟩⟩
  · exact submit_passes submit
  · exact wait_passes wait
  · exact cgo_passes cgo
  · exact closeCall_passes close

theorem Gates.thread (gates : s.Gates) (here : s.threads[i]? = some ⟨ctx, pc⟩)
    (passes : Passes s s' pc pc') :
    { s' with threads := s'.threads.set i ⟨ctx, pc'⟩ : State }.Gates := by
  have mine := le_census (fun th : Thread => th.pc.locks) here
  have moved := census_set (fun th : Thread => th.pc.locks) here ⟨ctx, pc'⟩
  have total := gates.readers
  have locks := passes.readers (by simp only at mine; omega)
  simp only at moved
  constructor
  · rcases passes.gate with ⟨_, closer⟩ | ⟨openNow, _, closer⟩
    · simp only [passes.threads, passes.reader, closer]
      omega
    · have idle : s.closer = .idle := by
        by_contra busy
        rw [gates.shut.mpr busy] at openNow
        cases openNow
      simp only [passes.threads, passes.reader, closer, idle, ClosePc.locks] at total ⊢
      omega
  · rcases passes.gate with ⟨closed, closer⟩ | ⟨_, closed, closer⟩
    · simp only [closed, closer]
      exact gates.shut
    · simp [closed, closer]
  · intro locked th member
    rcases passes.gate with ⟨_, closer⟩ | ⟨_, _, closer⟩
    · simp only [closer] at locked
      have shut : s.sh.closed = true := gates.shut.mpr (by
        intro idle
        rw [idle] at locked
        cases locked)
      rw [passes.threads] at member
      rcases mem_set_cases member with rfl | ⟨j, _, old⟩
      · by_contra inRust
        rcases passes.enters (by simpa using inRust) with before | openNow
        · rw [gates.empty locked _ (List.mem_of_getElem? here)] at before
          cases before
        · rw [shut] at openNow
          cases openNow
      · exact gates.empty locked th (List.mem_of_getElem? old)
    · simp only [closer] at locked
      cases locked
  · intro done
    rw [passes.reader]
    exact gates.done (passes.done ▸ done)
  · intro final
    rcases passes.gate with ⟨_, closer⟩ | ⟨_, _, closer⟩
    · rw [passes.done]
      exact gates.joined (closer ▸ final)
    · rw [closer] at final
      cases final

theorem reader_failed_locks (v : ReaderVisit) : v.failed.locks = 0 := by
  cases v with
  | binFree id t held => cases held <;> rfl
  | _ => rfl

/-- What a step of the reader can do to the gates. -/
structure ReaderPasses (s s' : State) (pc pc' : ReaderPc) : Prop where
  threads : s'.threads = s.threads
  closer : s'.closer = s.closer
  closed : s'.sh.closed = s.sh.closed
  readers : pc.locks ≤ s.readers → s'.readers + pc.locks = s.readers + pc'.locks
  done : s'.drainDone = true → s.drainDone = true ∨ pc' = .gone
  stays : pc ≠ .gone

theorem deliver_closed (sh : Shared) (t : Ticket) (res : CallResult) (id : TakeId) :
    (sh.deliver t res id).2.closed = sh.closed := by
  unfold Shared.deliver Shared.noteTake
  split
  · rfl
  · split <;> split <;> rfl

theorem stop_closed (sh : Shared) (waiterErr : Err) :
    (sh.stopReading waiterErr).2.closed = sh.closed := by
  rw [Ledger.stop_fields]
  split <;> rfl

theorem reader_passes {pc pc' : ReaderPc} {c : ReadChoice}
    (went : readerStep s pc c = some (s', pc')) : ReaderPasses s s' pc pc' := by
  -- A step that leaves the flags and `cgoMu` alone.
  have keep : ∀ (mid : State) (after : ReaderPc), mid.threads = s.threads →
      mid.closer = s.closer → mid.sh.closed = s.sh.closed → mid.readers = s.readers →
      mid.drainDone = s.drainDone → after.locks = pc.locks → pc ≠ .gone →
      ReaderPasses s mid pc after := by
    intro mid after threads closer closed readers done locks stays
    exact { threads := threads, closer := closer, closed := closed
            readers := fun _ => by rw [locks, readers]
            done := fun h => .inl (done ▸ h), stays := stays }
  cases pc with
  | next =>
    cases c with
    | consume t inline =>
      simp only [readerStep] at went
      split at went
      · cases went
        refine keep _ _ rfl rfl rfl rfl rfl ?_ (by simp)
        split <;> rfl
      · cases went
    | fail =>
      cases went
      exact keep _ _ rfl rfl rfl rfl rfl rfl (by simp)
    | _ => cases went
  | take t =>
    cases c with
    | took data id =>
      cases went
      exact keep _ _ rfl rfl rfl rfl rfl rfl (by simp)
    | takeFailed e =>
      cases went
      refine keep _ _ rfl rfl rfl rfl rfl ?_ (by simp)
      split <;> rfl
    | _ => cases went
  | takeLatch t =>
    cases c with
    | go =>
      cases went
      exact keep _ _ rfl rfl rfl rfl rfl rfl (by simp)
    | _ => cases went
  | deliver t res id =>
    cases c with
    | go =>
      simp only [readerStep] at went
      split at went
      · cases went
      · have closed := deliver_closed s.sh t res id
        rcases routed : s.sh.deliver t res id with ⟨route, sh⟩
        simp only [routed] at went closed
        cases went
        refine keep _ _ rfl rfl closed rfl rfl ?_ (by simp)
        cases route with
        | sent => rfl
        | stored held => cases held <;> rfl
        | binned held =>
          simp only
          split
          · cases held <;> rfl
          · rfl
    | _ => cases went
  | pay t =>
    cases c with
    | go =>
      simp only [readerStep, Option.map_eq_some_iff] at went
      obtain ⟨mid, received, same⟩ := went
      obtain ⟨_, rfl⟩ := receiveSem_some received
      cases same
      exact keep _ _ rfl rfl rfl rfl rfl rfl (by simp)
    | _ => cases went
  | enterClosed v =>
    cases c with
    | go =>
      cases went
      refine keep _ _ rfl rfl rfl rfl rfl ?_ (by simp)
      split
      · exact reader_failed_locks v
      · rfl
    | _ => cases went
  | tryRLock v =>
    cases c with
    | go =>
      simp only [readerStep] at went
      split at went
      · cases went
        exact { threads := rfl, closer := rfl, closed := rfl, readers := fun _ => rfl
                done := .inl, stays := by simp }
      · cases went
        exact keep _ _ rfl rfl rfl rfl rfl (reader_failed_locks v) (by simp)
    | _ => cases went
  | enterPtr v =>
    cases c with
    | go =>
      cases went
      refine keep _ _ rfl rfl rfl rfl rfl ?_ (by simp)
      split
      · simp [ReaderPc.locks, reader_failed_locks]
      · rfl
    | _ => cases went
  | inside v =>
    cases c with
    | go =>
      cases v with
      | take t =>
        cases went
        exact keep _ _ rfl rfl rfl rfl rfl rfl (by simp)
      | binFree id t held =>
        cases went
        exact keep _ _ rfl rfl rfl rfl rfl (by simp [ReaderPc.locks, reader_failed_locks])
          (by simp)
      | exitFree id rest =>
        cases went
        exact keep _ _ rfl rfl rfl rfl rfl (by simp [ReaderPc.locks, reader_failed_locks])
          (by simp)
    | _ => cases v <;> cases went
  | unlock after =>
    cases c with
    | go =>
      cases went
      refine { threads := rfl, closer := rfl, closed := rfl, readers := ?_
               done := .inl, stays := by simp }
      simp only [ReaderPc.locks]
      omega
    | _ => cases went
  | exitClosed =>
    cases c with
    | go =>
      cases went
      refine keep _ _ rfl rfl rfl rfl rfl ?_ (by simp)
      split <;> rfl
    | _ => cases went
  | exitErr =>
    cases c with
    | go =>
      cases went
      exact keep _ _ rfl rfl rfl rfl rfl rfl (by simp)
    | _ => cases went
  | exitLocked failed =>
    cases c with
    | go =>
      simp only [readerStep] at went
      split at went
      · cases went
      · cases went
        exact keep _ _ rfl rfl (stop_closed s.sh _) rfl rfl rfl (by simp)
    | _ => cases went
  | exitFree ids =>
    cases c with
    | free id =>
      simp only [readerStep] at went
      split at went
      · cases went
        exact keep _ _ rfl rfl rfl rfl rfl rfl (by simp)
      · cases went
    | go =>
      simp only [readerStep] at went
      split at went
      · cases went
        exact { threads := rfl, closer := rfl, closed := rfl, readers := fun _ => rfl
                done := fun _ => .inr rfl, stays := by simp }
      · cases went
    | _ => cases went
  | gone => cases went

theorem Gates.reader_step (gates : s.Gates) {pc' : ReaderPc}
    (passes : ReaderPasses s s' s.reader pc') : { s' with reader := pc' : State }.Gates := by
  have total := gates.readers
  have locks := passes.readers (by omega)
  constructor
  · simp only [passes.threads, passes.closer]
    omega
  · simp only [passes.closed, passes.closer]
    exact gates.shut
  · simp only [passes.threads, passes.closer]
    exact gates.empty
  · intro done
    rcases passes.done done with before | gone
    · exact absurd (gates.done before) passes.stays
    · exact gone
  · intro final
    have before := gates.joined (passes.closer ▸ final)
    exact absurd (gates.done before) passes.stays

/-- What a step of Close can do to the gates. It begins at its swap and never comes back there. -/
structure ClosePasses (s s' : State) (pc pc' : ClosePc) : Prop where
  threads : s'.threads = s.threads
  reader : s'.reader = s.reader
  closed : s'.sh.closed = s.sh.closed
  done : s'.drainDone = s.drainDone
  readers : pc.locks ≤ s.readers → s'.readers + pc.locks = s.readers + pc'.locks
  begun : pc ≠ .idle ∧ pc' ≠ .idle
  locks : pc'.locked = true → pc.locked = true ∨ s.readers = 0
  joined : pc' = .final → s.drainDone = true

theorem close_passes {pc pc' : ClosePc} {c : CloseChoice}
    (went : closeStep s pc c = some (s', pc')) : ClosePasses s s' pc pc' := by
  -- A step that leaves `cgoMu` as it is.
  have keep : ∀ (mid : State) (after : ClosePc), mid.threads = s.threads →
      mid.reader = s.reader → mid.sh.closed = s.sh.closed → mid.drainDone = s.drainDone →
      mid.readers = s.readers → after.locks = pc.locks → pc ≠ .idle → after ≠ .idle →
      (after.locked = true → pc.locked = true) → (after = .final → s.drainDone = true) →
      ClosePasses s mid pc after := by
    intro mid after threads reader closed done readers locks begun still locked joined
    exact { threads := threads, reader := reader, closed := closed, done := done
            readers := fun _ => by rw [locks, readers]
            begun := ⟨begun, still⟩, locks := fun h => .inl (locked h), joined := joined }
  cases pc with
  | rlock =>
    cases c with
    | go =>
      simp only [closeStep] at went
      split at went
      · cases went
        exact { threads := rfl, reader := rfl, closed := rfl, done := rfl, readers := fun _ => rfl
                begun := by simp, locks := by simp [ClosePc.locked], joined := by simp }
      · cases went
    | _ => cases went
  | cancelAll =>
    cases c with
    | go =>
      cases went
      exact keep _ _ rfl rfl rfl rfl rfl rfl (by simp) (by simp) (by simp [ClosePc.locked])
        (by simp)
    | _ => cases went
  | runlock =>
    cases c with
    | go =>
      cases went
      refine { threads := rfl, reader := rfl, closed := rfl, done := rfl, readers := ?_
               begun := by simp, locks := by simp [ClosePc.locked], joined := by simp }
      simp only [ClosePc.locks]
      omega
    | _ => cases went
  | lock =>
    cases c with
    | go =>
      cases went
      exact keep _ _ rfl rfl rfl rfl rfl rfl (by simp) (by simp) (by simp [ClosePc.locked])
        (by simp)
    | _ => cases went
  | locking =>
    cases c with
    | go =>
      simp only [closeStep] at went
      split at went
      · rename_i free
        cases went
        exact { threads := rfl, reader := rfl, closed := rfl, done := rfl, readers := fun _ => rfl
                begun := by simp, locks := fun _ => .inr free, joined := by simp }
      · cases went
    | _ => cases went
  | unclaimed | final =>
    cases c with
    | go =>
      simp only [closeStep] at went
      split at went
      · cases went
      · cases went
        exact keep _ _ rfl rfl rfl rfl rfl rfl (by simp) (by simp) (fun _ => rfl) (by simp)
    | _ => cases went
  | freeing ids =>
    cases c with
    | free id | go =>
      simp only [closeStep] at went
      split at went
      · cases went
        exact keep _ _ rfl rfl rfl rfl rfl rfl (by simp) (by simp) (fun _ => rfl) (by simp)
      · cases went
    | _ => cases went
  | handleClose =>
    cases c with
    | result e =>
      cases went
      exact keep _ _ rfl rfl rfl rfl rfl rfl (by simp) (by simp) (fun _ => rfl) (by simp)
    | _ => cases went
  | clearPtr | unlock | finish =>
    cases c with
    | go =>
      cases went
      exact keep _ _ rfl rfl rfl rfl rfl rfl (by simp) (by simp) (fun _ => rfl) (by simp)
    | _ => cases went
  | join =>
    cases c with
    | go =>
      simp only [closeStep] at went
      split at went
      · rename_i stopped
        cases went
        exact keep _ _ rfl rfl rfl rfl rfl rfl (by simp) (by simp) (fun _ => rfl)
          (fun _ => stopped)
      · cases went
    | _ => cases went
  | drain =>
    cases c with
    | ticket t | go =>
      simp only [closeStep] at went
      split at went
      · cases went
        exact keep _ _ rfl rfl rfl rfl rfl rfl (by simp) (by simp) (fun _ => rfl) (by simp)
      · cases went
    | _ => cases went
  | recv t =>
    cases c with
    | go =>
      simp only [closeStep, Option.map_eq_some_iff] at went
      obtain ⟨mid, received, same⟩ := went
      obtain ⟨_, rfl⟩ := receiveSem_some received
      cases same
      exact keep _ _ rfl rfl rfl rfl rfl rfl (by simp) (by simp) (fun _ => rfl) (by simp)
    | _ => cases went
  | _ => cases went

theorem submitting_locks (inRust : pc.submitting = true) : 0 < pc.locks := by
  induction pc with
  | unlock after ih =>
    simp only [Pc.locks]
    omega
  | enterClosed v | tryRLock v => cases inRust
  | enterPtr v | inside v | ffiSubmit | insert t => simp [Pc.locks]
  | _ => cases inRust

theorem Gates.close_step (gates : s.Gates) {pc' : ClosePc}
    (passes : ClosePasses s s' s.closer pc') : { s' with closer := pc' : State }.Gates := by
  have total := gates.readers
  have locks := passes.readers (by omega)
  constructor
  · simp only [passes.threads, passes.reader]
    omega
  · have shut : s.sh.closed = true := gates.shut.mpr passes.begun.1
    simp [passes.closed, shut, passes.begun.2]
  · intro locked th member
    rw [passes.threads] at member
    rcases passes.locks locked with before | free
    · exact gates.empty before th member
    · by_contra inRust
      have mine := le_census_of_mem (fun th : Thread => th.pc.locks) member
      have held := submitting_locks (by simpa using inRust)
      omega
  · rw [passes.done, passes.reader]
    exact gates.done
  · intro final
    rw [passes.done]
    exact passes.joined final

theorem opened_gates : opened.Gates where
  readers := rfl
  shut := by simp [opened, Shared.opened]
  empty := by simp [opened]
  done := by simp [opened]
  joined := by simp [opened]

/-- One step keeps the gates. -/
theorem Gates.step (gates : s.Gates) {a : Act} (went : s.step cfg a = some s') : s'.Gates := by
  cases a with
  | call c =>
    cases went
    have outside : c.pc.locks = 0 ∧ c.pc.submitting = false := by cases c <;> exact ⟨rfl, rfl⟩
    refine { gates with readers := ?_, empty := ?_ }
    · simpa [outside.1] using gates.readers
    · intro locked th member
      rcases List.mem_append.mp member with old | new
      · exact gates.empty locked th old
      · rw [List.mem_singleton.mp new]
        exact outside.2
  | expire i =>
    simp only [State.step, Option.map_eq_some_iff] at went
    obtain ⟨th, here, rfl⟩ := went
    refine { gates with readers := ?_, empty := ?_ }
    · rw [gates.readers]
      have same := census_set_same (fun th : Thread => th.pc.locks) (b := { th with ctx := true })
        here rfl
      simp only [same]
    · intro locked other member
      rcases mem_set_cases member with rfl | ⟨j, _, old⟩
      · exact gates.empty locked th (List.mem_of_getElem? here)
      · exact gates.empty locked other (List.mem_of_getElem? old)
  | thread i c =>
    simp only [State.step, Option.bind_eq_some_iff, Option.map_eq_some_iff] at went
    obtain ⟨th, here, r, went, rfl⟩ := went
    exact gates.thread here (thread_passes went)
  | reader c =>
    simp only [State.step, Option.map_eq_some_iff] at went
    obtain ⟨r, went, rfl⟩ := went
    exact gates.reader_step (reader_passes went)
  | closer c =>
    simp only [State.step, Option.map_eq_some_iff] at went
    obtain ⟨r, went, rfl⟩ := went
    exact gates.close_step (close_passes went)

end State

end Gusset.Handle
