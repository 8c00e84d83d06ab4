import Gusset.Handle.Lifecycle
import Gusset.Handle.Gates

/-! Every step of the calls is some moves of the ledger, or none. -/
namespace Gusset.Handle
open Foundation
open Relation (ReflTransGen)

def Visit.role : Visit → Role
  | .submit => .holding
  | .cancel op t c => .waiting op t c
  | _ => .idle

def Pc.role : Pc → Role
  | .ctxErr | .closed2 | .exited2 | .poisoned2 | .ceiling | .parked | .giveBack _ | .ffiSubmit =>
    .holding
  | .insert t => .carrying t
  | .release t => .issuedOwing t
  | .issue t => .issued t
  | .await op t c | .race op t c => .waiting op t c
  | .got op t c res => .received op t c res
  | .recvLocked t _ => .owing t
  | .enterClosed v | .tryRLock v | .enterPtr v | .inside v => v.role
  | .unlock after => after.role
  | _ => .idle

def ReaderVisit.role : ReaderVisit → ReaderRole
  | .take t => .hand t
  | .binFree _ t held => if held then .owing t else .away
  | .exitFree _ _ => .gone

def ReaderPc.role : ReaderPc → ReaderRole
  | .next | .exitClosed | .exitErr | .exitLocked _ => .away
  | .take t | .takeLatch t | .deliver t _ _ => .hand t
  | .pay t => .owing t
  | .enterClosed v | .tryRLock v | .enterPtr v | .inside v => v.role
  | .unlock after => after.role
  | .exitFree _ | .gone => .gone

def ClosePc.role : ClosePc → CloserRole
  | .idle => .idle
  | .rlock | .cancelAll | .runlock | .lock | .locking => .closing
  | .unclaimed | .freeing _ | .handleClose | .clearPtr | .unlock | .join | .final => .sealed
  | .drain => .draining
  | .recv t => .owing t
  | .finish | .done => .done

def State.ledger (s : State) : Ledger where
  sh := s.sh
  hist := s.hist
  roles := s.threads.map fun th => th.pc.role
  reader := s.reader.role
  closer := s.closer.role

/-- The ticket a caller is about to claim. -/
def Pc.claims : Pc → Option Ticket
  | .claim _ t | .discardClaim t => some t
  | _ => none

/-- A receive and the collection in one section are the two moves in a row. -/
theorem Ledger.receive_collect {cap : Nat} {allowed : Guard} {L : Ledger} {i : Nat} {op : Op}
    {t : Ticket} {c : Nat} {res : CallResult} {id : TakeId} {owes : Bool} {sh : Shared}
    (here : L.roles[i]? = some (.waiting op t c)) (full : L.sh.chan c = some res)
    (done : ((L.sh.receive c).recycleWaitChanLocked cap c).collectLocked t = (id, owes, sh)) :
    ReflTransGen (Move cap allowed) L
      { L with sh := sh, hist := (L.hist.hand t ⟨.wait op, res, id⟩).spend t
               roles := L.roles.set i (debt owes t) } := by
  have first : Move cap allowed L _ := .receive L i op t c res here full
  have inside : i < L.roles.length := (List.getElem?_eq_some_iff.mp here).1
  have second : Move cap allowed _ _ :=
    .collect { L with sh := L.sh.receive c, roles := L.roles.set i (.received op t c res) }
      i op t c res id owes sh (List.getElem?_set_self inside) done
  simp only [List.set_set] at second
  exact .tail (.single first) second

namespace State

variable {cfg : Config} {allowed : Ledger.Guard} {s s' : State} {i : Nat} {ctx : Bool} {pc pc' : Pc}

theorem ledger_set (s : State) (i : Nat) (th : Thread) :
    { s with threads := s.threads.set i th : State }.ledger =
      { s.ledger with roles := s.ledger.roles.set i th.pc.role } := by
  simp [ledger, List.map_set]

theorem role_here (here : s.threads[i]? = some ⟨ctx, pc⟩) : s.ledger.roles[i]? = some pc.role := by
  simp [ledger, here]

/-- A step that keeps the shared state and what the caller holds is not seen in the ledger. -/
theorem ledger_quiet {th : Thread} (here : s.threads[i]? = some ⟨ctx, pc⟩)
    (same : th.pc.role = pc.role) :
    { s with threads := s.threads.set i th : State }.ledger = s.ledger := by
  rw [ledger_set]
  have place := role_here here
  have kept : s.ledger.roles.set i th.pc.role = s.ledger.roles := by
    rw [same]
    obtain ⟨inside, value⟩ := List.getElem?_eq_some_iff.mp place
    rw [← value, List.set_getElem_self]
  simp [kept]

theorem failed_role (v : Visit) : v.failed.role = v.role := by
  cases v with
  | view op data id =>
    cases op with
    | wait => rfl
    | waitBuffer =>
      simp only [Visit.failed, freeThen]
      split <;> rfl
  | _ => rfl

theorem freeThen_role (id : TakeId) (out : Outcome) : (freeThen id out).role = .idle := by
  unfold freeThen
  split <;> rfl

theorem after_role (after : After) : after.pc.role = .idle := by
  cases after <;> rfl

theorem refusal_role (why : Refusal) : why.pc.role = .idle := by
  cases why <;> rfl

/-- The moves of a caller's step, whatever else of the state the step touched. -/
abbrev Moves (cfg : Config) (allowed : Ledger.Guard) (s s' : State) (i : Nat) (th : Thread) :
    Prop :=
  ReflTransGen (Ledger.Move cfg.poolSize allowed) s.ledger
    { s' with threads := s'.threads.set i th : State }.ledger

theorem Moves.quiet (here : s.threads[i]? = some ⟨ctx, pc⟩) (same : pc'.role = pc.role)
    (kept : s'.ledger = s.ledger) (threads : s'.threads = s.threads) :
    Moves cfg allowed s s' i ⟨ctx, pc'⟩ := by
  unfold Moves
  rw [ledger_quiet (threads ▸ here) same, kept]

theorem Moves.same (here : s'.threads[i]? = some ⟨ctx, pc⟩) (same : pc'.role = pc.role)
    (moved : ReflTransGen (Ledger.Move cfg.poolSize allowed) s.ledger s'.ledger) :
    Moves cfg allowed s s' i ⟨ctx, pc'⟩ := by
  unfold Moves
  rw [ledger_quiet here same]
  exact moved

theorem Moves.one (moved : Ledger.Move cfg.poolSize allowed s.ledger
    { s'.ledger with roles := s'.ledger.roles.set i pc'.role }) :
    Moves cfg allowed s s' i ⟨ctx, pc'⟩ := by
  unfold Moves
  rw [ledger_set]
  exact .single moved

-- A submitter inside Rust keeps Close out of its exclusive section.
theorem Gates.open_for (gates : s.Gates) (here : s.threads[i]? = some ⟨ctx, pc⟩)
    (inRust : pc.submitting = true) : s.closer.role = .idle ∨ s.closer.role = .closing := by
  have shut := fun locked => gates.empty locked _ (List.mem_of_getElem? here)
  simp only [inRust] at shut
  cases h : s.closer with
  | idle => exact .inl rfl
  | rlock | cancelAll | runlock | lock | locking => exact .inr rfl
  | _ => simp [h, ClosePc.locked] at shut

theorem submit_moves {c : Choice} (here : s.threads[i]? = some ⟨ctx, pc⟩) (gates : s.Gates)
    (went : submitStep cfg s ctx pc c = some (s', pc')) :
    Moves cfg allowed s s' i ⟨ctx, pc'⟩ := by
  have place := role_here here
  cases pc with
  | closed1 input | exited1 input | poisoned1 input | ctxErr | closed2 | exited2 =>
    cases c with
    | go =>
      cases went
      refine .quiet here ?_ rfl rfl
      split <;> rfl
    | _ => cases went
  | input input =>
    cases c with
    | go =>
      cases input with
      | bytes n =>
        cases went
        refine .quiet here ?_ rfl rfl
        split <;> rfl
      | buffer =>
        cases went
        exact .quiet here rfl rfl rfl
    | refuse e =>
      cases input <;> cases went <;> exact .quiet here rfl rfl rfl
    | _ => cases input <;> cases went
  | acquire =>
    cases c with
    | go =>
      simp only [submitStep] at went
      split at went
      · rename_i room
        cases went
        exact .one (.acquire _ i place room)
      · cases went
    | ctx | drained =>
      simp only [submitStep] at went
      split at went
      · cases went
        exact .quiet here rfl rfl rfl
      · cases went
    | _ => cases went
  | poisoned2 =>
    cases c with
    | go =>
      cases went
      refine .quiet here ?_ rfl rfl
      split
      · rfl
      · split <;> rfl
    | _ => cases went
  | ceiling =>
    cases c with
    | go =>
      simp only [submitStep] at went
      split at went
      · cases went
      · split at went
        · cases went
          exact .quiet here rfl rfl rfl
        · split at went
          · cases went
            exact .quiet here rfl rfl rfl
          · cases went
            refine .same here rfl (.single ?_)
            split <;> exact .note _ s.sh.drainErr _
    | _ => cases went
  | parked =>
    cases c with
    | go =>
      simp only [submitStep] at went
      split at went
      · cases went
        exact .same here rfl (.single (.note _ s.sh.drainErr false))
      · cases went
    | ctx | drained =>
      simp only [submitStep] at went
      split at went
      · cases went
        exact .quiet here rfl rfl rfl
      · cases went
    | _ => cases went
  | giveBack why =>
    cases c with
    | go =>
      simp only [submitStep, Option.map_eq_some_iff] at went
      obtain ⟨mid, received, same⟩ := went
      obtain ⟨some_one, rfl⟩ := receiveSem_some received
      cases same
      refine .one ?_
      rw [refusal_role]
      exact .giveBack _ i place some_one
    | _ => cases went
  | ffiSubmit =>
    cases c with
    | ticket t =>
      simp only [submitStep] at went
      split at went
      · cases went
      · rename_i new
        cases went
        exact .one (.accept _ i t place new (gates.open_for here rfl))
    | refuse e =>
      cases went
      exact .quiet here rfl rfl rfl
    | _ => cases went
  | insert t =>
    cases c with
    | go =>
      simp only [submitStep] at went
      split at went
      · cases went
      · cases went
        refine .one ?_
        have after : (Pc.unlock (if (s.sh.insertLocked t).1 then .release t else .issue t)).role =
            if (s.sh.insertLocked t).1 then .issuedOwing t else .issued t := by
          simp only [Pc.role]
          split <;> rfl
        rw [after]
        exact .insert _ i t place
    | _ => cases went
  | release t =>
    cases c with
    | go =>
      simp only [submitStep, Option.map_eq_some_iff] at went
      obtain ⟨mid, received, same⟩ := went
      obtain ⟨some_one, rfl⟩ := receiveSem_some received
      cases same
      exact .one (.release _ i t place some_one)
    | _ => cases went
  | issue t =>
    cases c with
    | go =>
      cases went
      exact .one (.ret _ i t place)
    | _ => cases went
  | latch e =>
    cases c with
    | go =>
      cases went
      exact .quiet here rfl rfl rfl
    | _ => cases went
  | _ => cases went

-- The end of a claim: the caller owes a receive, or goes on holding nothing.
theorem settle_moves {mid : State} {t : Ticket} {owes : Bool} {after : After}
    (ended : mid.settle t owes after = (s', pc'))
    (moved : ReflTransGen (Ledger.Move cfg.poolSize allowed) s.ledger
      { mid.ledger with roles := mid.ledger.roles.set i (debt owes t) }) :
    Moves cfg allowed s s' i ⟨ctx, pc'⟩ := by
  unfold Moves
  rw [ledger_set]
  unfold settle at ended
  cases owes with
  | true =>
    cases ended
    exact moved
  | false =>
    cases ended
    simp only [after_role]
    exact moved

theorem wait_moves {c : Choice} (here : s.threads[i]? = some ⟨ctx, pc⟩)
    (may : ∀ t, pc.claims = some t → allowed s.ledger t)
    (went : waitStep cfg s ctx pc c = some (s', pc')) :
    Moves cfg allowed s s' i ⟨ctx, pc'⟩ := by
  have place := role_here here
  cases pc with
  | claim op t =>
    cases c with
    | go =>
      simp only [waitStep] at went
      split at went
      · cases went
      · split at went
        · rename_i res id owes sh done
          exact settle_moves (Option.some.inj went)
            (.single (.claim _ i t (.wait op) res id owes sh place (may t rfl) done))
        · rename_i e sh refused
          cases went
          obtain rfl := Ledger.claim_keeps refused (by simp)
          exact .quiet here rfl rfl rfl
        · rename_i sh live
          cases went
          obtain rfl := Ledger.claim_keeps live (by simp)
          exact .one (.register _ i t op place (may t rfl) (by simp [ledger, live]))
    | _ => cases went
  | await op t c =>
    rename_i choice
    cases choice with
    | go =>
      simp only [waitStep] at went
      split at went
      · rename_i res full
        cases went
        exact .one (.receive _ i op t c res place full)
      · cases went
    | ctx =>
      simp only [waitStep] at went
      split at went
      · cases went
        exact .quiet here rfl rfl rfl
      · cases went
    | _ => cases went
  | got op t c res =>
    rename_i choice
    cases choice with
    | go =>
      simp only [waitStep] at went
      split at went
      · cases went
      · exact settle_moves (Option.some.inj went)
          (.single (.collect _ i op t c res _ _ _ place rfl))
    | _ => cases went
  | race op t c =>
    rename_i choice
    cases choice with
    | go =>
      simp only [waitStep] at went
      split at went
      · cases went
      · split at went
        · rename_i res full
          -- The outcome landed before the lock: received and collected in one section.
          exact settle_moves (Option.some.inj went) (Ledger.receive_collect place full rfl)
        · rename_i empty
          cases went
          exact .one (.detach _ i op t c place empty)
    | _ => cases went
  | recvLocked t after =>
    cases c with
    | go =>
      simp only [waitStep, Option.map_eq_some_iff] at went
      obtain ⟨mid, received, same⟩ := went
      obtain ⟨some_one, rfl⟩ := receiveSem_some received
      cases same
      refine .one ?_
      rw [after_role]
      exact .payBack _ i t place some_one
    | _ => cases went
  | outcome op res id =>
    cases c with
    | go =>
      cases went
      refine .quiet here ?_ rfl rfl
      split
      · exact freeThen_role _ _
      · split
        · rfl
        · split <;> rfl
    | _ => cases went
  | bufClosed data =>
    cases c with
    | go =>
      cases went
      exact .quiet here rfl rfl rfl
    | _ => cases went
  | raced res id | discarded id =>
    cases c with
    | go =>
      cases went
      exact .quiet here (freeThen_role _ _) rfl rfl
    | _ => cases went
  | discardClosed t =>
    cases c with
    | go =>
      cases went
      refine .quiet here ?_ rfl rfl
      split <;> rfl
    | _ => cases went
  | discardClaim t =>
    cases c with
    | go =>
      simp only [waitStep] at went
      split at went
      · cases went
      · split at went
        · rename_i res id owes sh done
          exact settle_moves (Option.some.inj went)
            (.single (.claim _ i t .discard res id owes sh place (may t rfl) done))
        · rename_i e sh refused
          cases went
          obtain rfl := Ledger.claim_keeps refused (by simp)
          exact .quiet here rfl rfl rfl
        · rename_i sh live
          cases went
          obtain rfl := Ledger.claim_keeps live (by simp)
          exact .same here rfl
            (.single (.discard _ i t place (may t rfl) (by simp [ledger, live])))
    | _ => cases went
  | _ => cases went

theorem cgo_moves {c : Choice} (here : s.threads[i]? = some ⟨ctx, pc⟩)
    (went : cgoStep s pc c = some (s', pc')) : Moves cfg allowed s s' i ⟨ctx, pc'⟩ := by
  cases pc with
  | enterClosed v =>
    cases c with
    | go =>
      cases went
      refine .quiet here ?_ rfl rfl
      split
      · exact failed_role v
      · rfl
    | _ => cases went
  | tryRLock v =>
    cases c with
    | go =>
      simp only [cgoStep] at went
      split at went
      · cases went
        exact .quiet here rfl rfl rfl
      · cases went
        exact .quiet here (failed_role v) rfl rfl
    | _ => cases went
  | enterPtr v =>
    cases c with
    | go =>
      cases went
      refine .quiet here ?_ rfl rfl
      split
      · exact failed_role v
      · rfl
    | _ => cases went
  | inside v =>
    cases c with
    | go =>
      cases v with
      | submit =>
        cases went
        refine .quiet here ?_ rfl rfl
        split <;> rfl
      | view op data id =>
        cases op with
        | wait =>
          cases went
          exact .quiet here (freeThen_role _ _) rfl rfl
        | waitBuffer =>
          cases went
          exact .quiet here rfl rfl rfl
      | _ =>
        cases went
        exact .quiet here rfl rfl rfl
    | _ => cases v <;> try cases went
           rename_i op _ _
           cases op <;> cases went
  | unlock after =>
    cases c with
    | go =>
      cases went
      exact .quiet here rfl rfl rfl
    | _ => cases went
  | _ => cases went

theorem closeCall_moves {c : Choice} (here : s.threads[i]? = some ⟨ctx, pc⟩) (gates : s.Gates)
    (went : closeCallStep s pc c = some (s', pc')) : Moves cfg allowed s s' i ⟨ctx, pc'⟩ := by
  cases pc with
  | closeSwap =>
    cases c with
    | go =>
      simp only [closeCallStep] at went
      split at went
      · cases went
        exact .quiet here rfl rfl rfl
      · rename_i openNow
        cases went
        have idle : s.closer = .idle := by
          by_contra busy
          exact openNow (gates.shut.mpr busy)
        exact .same here rfl (.single (.close _ (by simp [ledger, idle, ClosePc.role])))
    | _ => cases went
  | awaitClose =>
    cases c with
    | go =>
      simp only [closeCallStep] at went
      split at went
      · cases went
        exact .quiet here rfl rfl rfl
      · cases went
    | _ => cases went
  | answerClosed =>
    cases c with
    | go =>
      cases went
      exact .quiet here rfl rfl rfl
    | _ => cases went
  | _ => cases went

theorem thread_moves {c : Choice} (here : s.threads[i]? = some ⟨ctx, pc⟩) (gates : s.Gates)
    (may : ∀ t, pc.claims = some t → allowed s.ledger t)
    (went : threadStep cfg s ctx pc c = some (s', pc')) :
    Moves cfg allowed s s' i ⟨ctx, pc'⟩ := by
  simp only [threadStep, Option.or_eq_some_iff] at went
  rcases went with submit | ⟨_, wait | ⟨_, cgo | ⟨_, close⟩⟩⟩
  · exact submit_moves here gates submit
  · exact wait_moves here may wait
  · exact cgo_moves here cgo
  · exact closeCall_moves here gates close

theorem reader_failed_role (v : ReaderVisit) : v.failed.role = v.role := by
  cases v with
  | binFree id t held => cases held <;> rfl
  | _ => rfl

theorem reader_moves {pc pc' : ReaderPc} {c : ReadChoice} (here : s.reader = pc)
    (went : readerStep s pc c = some (s', pc')) :
    ReflTransGen (Ledger.Move cfg.poolSize allowed) s.ledger
      { s' with reader := pc' : State }.ledger := by
  have role : s.ledger.reader = pc.role := by rw [← here]; rfl
  -- A step that keeps the shared state and the reader's role.
  have quiet : ∀ after : ReaderPc, after.role = pc.role →
      ReflTransGen (Ledger.Move cfg.poolSize allowed) s.ledger
        { s.ledger with reader := after.role } := by
    intro after same
    rw [same, ← role]
  cases pc with
  | next =>
    cases c with
    | consume t inline =>
      simp only [readerStep] at went
      split at went
      · rename_i taken
        cases went
        have moved : Ledger.Move cfg.poolSize allowed s.ledger _ :=
          .consume _ t role taken.1 taken.2
        cases inline with
        | some data => exact .single moved
        | none => exact .single moved
      · cases went
    | fail =>
      cases went
      exact quiet .exitClosed rfl
    | _ => cases went
  | take t =>
    cases c with
    | took data id =>
      cases went
      exact quiet (.unlock (.deliver t ⟨data, none⟩ id)) rfl
    | takeFailed e =>
      cases went
      apply quiet
      split <;> rfl
    | _ => cases went
  | takeLatch t =>
    cases c with
    | go =>
      cases went
      exact quiet (.unlock (.deliver t _ 0)) rfl
    | _ => cases went
  | deliver t res id =>
    cases c with
    | go =>
      simp only [readerStep] at went
      split at went
      · cases went
      · rename_i ready
        have send : s.sh.sendReady t = true := by
          by_contra blocked
          exact ready (.inr blocked)
        rcases routed : s.sh.deliver t res id with ⟨route, sh⟩
        have moved : Ledger.Move cfg.poolSize allowed s.ledger _ :=
          .deliver _ t res id route sh role send routed
        refine .single ?_
        simp only [routed] at went
        cases went
        cases route with
        | sent => exact moved
        | stored held => cases held <;> exact moved
        | binned held =>
          by_cases bare : id = 0
          · simp only [bare, if_true] at moved ⊢
            cases held <;> exact moved
          · simp only [bare, if_false]
            cases held <;> exact moved
    | _ => cases went
  | pay t =>
    cases c with
    | go =>
      simp only [readerStep, Option.map_eq_some_iff] at went
      obtain ⟨mid, received, same⟩ := went
      obtain ⟨some_one, rfl⟩ := receiveSem_some received
      cases same
      exact .single (.readerPays _ t role some_one)
    | _ => cases went
  | enterClosed v =>
    cases c with
    | go =>
      cases went
      apply quiet
      split
      · exact reader_failed_role v
      · rfl
    | _ => cases went
  | tryRLock v =>
    cases c with
    | go =>
      simp only [readerStep] at went
      split at went
      · cases went
        exact quiet (.enterPtr v) rfl
      · cases went
        exact quiet v.failed (reader_failed_role v)
    | _ => cases went
  | enterPtr v =>
    cases c with
    | go =>
      cases went
      apply quiet
      split
      · exact reader_failed_role v
      · rfl
    | _ => cases went
  | inside v =>
    cases c with
    | go =>
      cases v with
      | take t =>
        cases went
        exact quiet (.take t) rfl
      | binFree id t held =>
        cases went
        exact quiet (.unlock _) (reader_failed_role (.binFree id t held))
      | exitFree id rest =>
        cases went
        exact quiet (.unlock _) (reader_failed_role (.exitFree id rest))
    | _ => cases v <;> cases went
  | unlock after =>
    cases c with
    | go =>
      cases went
      exact quiet pc' rfl
    | _ => cases went
  | exitClosed =>
    cases c with
    | go =>
      cases went
      apply quiet
      split <;> rfl
    | _ => cases went
  | exitErr =>
    cases c with
    | go =>
      cases went
      have moved : Ledger.Move cfg.poolSize allowed s.ledger _ :=
        .note _ true s.sh.uncollected
      refine .single ?_
      convert moved using 1
      simp only [ledger, ReaderPc.role]
      rw [here]
      rfl
    | _ => cases went
  | exitLocked failed =>
    cases c with
    | go =>
      simp only [readerStep] at went
      split at went
      · cases went
      · rename_i ready
        cases went
        have send : s.sh.stopReady := by
          by_contra blocked
          exact ready (.inr blocked)
        exact .single (.stop _ (waiterErr failed) role (by cases failed <;> rfl) send)
    | _ => cases went
  | exitFree ids =>
    cases c with
    | free id =>
      simp only [readerStep] at went
      split at went
      · cases went
        exact quiet (.enterClosed _) rfl
      · cases went
    | go =>
      simp only [readerStep] at went
      split at went
      · cases went
        exact quiet .gone rfl
      · cases went
    | _ => cases went
  | gone => cases went

theorem carrying_locks {t : Ticket} (carries : pc.role = .carrying t) : 0 < pc.locks := by
  induction pc with
  | insert u => simp [Pc.locks]
  | unlock after ih =>
    simp only [Pc.locks]
    omega
  | enterClosed v | tryRLock v | enterPtr v | inside v =>
    cases v <;> cases carries
  | _ => cases carries

theorem close_moves {pc pc' : ClosePc} {c : CloseChoice} (here : s.closer = pc) (gates : s.Gates)
    (went : closeStep s pc c = some (s', pc')) :
    ReflTransGen (Ledger.Move cfg.poolSize allowed) s.ledger
      { s' with closer := pc' : State }.ledger := by
  have role : s.ledger.closer = pc.role := by rw [← here]; rfl
  have quiet : ∀ after : ClosePc, after.role = pc.role →
      ReflTransGen (Ledger.Move cfg.poolSize allowed) s.ledger
        { s.ledger with closer := after.role } := by
    intro after same
    rw [same, ← role]
  cases pc with
  | rlock =>
    cases c with
    | go =>
      simp only [closeStep] at went
      split at went
      · cases went
        exact quiet .cancelAll rfl
      · cases went
    | _ => cases went
  | cancelAll =>
    cases c with
    | go =>
      cases went
      exact quiet .runlock rfl
    | _ => cases went
  | runlock =>
    cases c with
    | go =>
      cases went
      exact quiet .lock rfl
    | _ => cases went
  | lock =>
    cases c with
    | go =>
      cases went
      exact quiet .locking rfl
    | _ => cases went
  | locking =>
    cases c with
    | go =>
      simp only [closeStep] at went
      split at went
      · rename_i free
        cases went
        refine .single (.lock _ role ?_)
        intro t member
        obtain ⟨th, inside, carries⟩ := List.mem_map.mp member
        have mine := le_census_of_mem (fun th => th.pc.locks) inside
        have locks := carrying_locks carries
        have total := gates.readers
        omega
      · cases went
    | _ => cases went
  | unclaimed =>
    cases c with
    | go =>
      simp only [closeStep] at went
      split at went
      · cases went
      · cases went
        have moved : Ledger.Move cfg.poolSize allowed s.ledger _ := .dropUnclaimed _ role
        rw [role] at moved
        exact .single moved
    | _ => cases went
  | freeing ids =>
    cases c with
    | free id =>
      simp only [closeStep] at went
      split at went
      · cases went
        exact quiet (.freeing _) rfl
      · cases went
    | go =>
      simp only [closeStep] at went
      split at went
      · cases went
        exact quiet .handleClose rfl
      · cases went
    | _ => cases went
  | handleClose =>
    cases c with
    | result e =>
      cases went
      exact quiet .clearPtr rfl
    | _ => cases went
  | clearPtr =>
    cases c with
    | go =>
      cases went
      exact quiet .unlock rfl
    | _ => cases went
  | unlock =>
    cases c with
    | go =>
      cases went
      exact quiet .join rfl
    | _ => cases went
  | join =>
    cases c with
    | go =>
      simp only [closeStep] at went
      split at went
      · cases went
        exact quiet .final rfl
      · cases went
    | _ => cases went
  | final =>
    cases c with
    | go =>
      simp only [closeStep] at went
      split at went
      · cases went
      · cases went
        have gone : s.ledger.reader = .gone := by
          have stopped := gates.done (gates.joined here)
          simp [ledger, stopped, ReaderPc.role]
        exact .single (.drain _ role gone)
    | _ => cases went
  | drain =>
    cases c with
    | ticket t =>
      simp only [closeStep] at went
      split at went
      · rename_i held
        cases went
        exact .single (.drainTicket _ t role held)
      · cases went
    | go =>
      simp only [closeStep] at went
      split at went
      · rename_i empty
        cases went
        exact .single (.drained _ role empty)
      · cases went
    | _ => cases went
  | recv t =>
    cases c with
    | go =>
      simp only [closeStep, Option.map_eq_some_iff] at went
      obtain ⟨mid, received, same⟩ := went
      obtain ⟨some_one, rfl⟩ := receiveSem_some received
      cases same
      exact .single (.closerPays _ t role some_one)
    | _ => cases went
  | finish =>
    cases c with
    | go =>
      cases went
      exact quiet .done rfl
    | _ => cases went
  | _ => cases went

/-- The ticket an action is about to claim. -/
def claims (s : State) : Act → Option Ticket
  | .thread i _ => (s.threads[i]?).bind fun th => th.pc.claims
  | _ => none

/-- Steps whose claims the guard lets through. -/
def Step (cfg : Config) (allowed : Ledger.Guard) (s s' : State) : Prop :=
  ∃ a, s.step cfg a = some s' ∧ ∀ t, s.claims a = some t → allowed s.ledger t

theorem step_moves (gates : s.Gates) (moved : Step cfg allowed s s') :
    ReflTransGen (Ledger.Move cfg.poolSize allowed) s.ledger s'.ledger := by
  obtain ⟨a, went, may⟩ := moved
  cases a with
  | call c =>
    cases went
    refine .single ?_
    have role : c.pc.role = .idle := by cases c <;> rfl
    have spawned : Ledger.Move cfg.poolSize allowed s.ledger _ := .spawn _
    simpa [ledger, role] using spawned
  | expire i =>
    simp only [step, Option.map_eq_some_iff] at went
    obtain ⟨th, here, rfl⟩ := went
    have kept : { s with threads := s.threads.set i { th with ctx := true } : State }.ledger =
        s.ledger := ledger_quiet here rfl
    rw [kept]
  | thread i c =>
    simp only [step, Option.bind_eq_some_iff, Option.map_eq_some_iff] at went
    obtain ⟨th, here, r, went, rfl⟩ := went
    refine thread_moves here gates ?_ went
    intro t claimed
    exact may t (by simp [claims, here, claimed])
  | reader c =>
    simp only [step, Option.map_eq_some_iff] at went
    obtain ⟨r, went, rfl⟩ := went
    exact reader_moves rfl went
  | closer c =>
    simp only [step, Option.map_eq_some_iff] at went
    obtain ⟨r, went, rfl⟩ := went
    exact close_moves rfl gates went

end State

end Gusset.Handle
