import Gusset.Handle.Guarantees
import Gusset.Handle.Locks

/-! What one Submit or one Wait does with its ticket, from its first step to its last, and who
answers for the permits that are out. -/
namespace Gusset.Handle
open Foundation

def Visit.waits (t : Ticket) : Visit → Bool
  | .submit => false
  | .cancel _ u _ => decide (u = t)
  | .view _ _ _ | .free _ _ => true

-- The visit comes after the ticket was collected.
def Visit.collected : Visit → Bool
  | .view _ _ _ | .free _ _ => true
  | _ => false

namespace Pc

/-- On the way of a Submit. -/
def submits : Pc → Bool
  | .closed1 _ | .exited1 _ | .poisoned1 _ | .input _ | .acquire | .ctxErr | .closed2 | .exited2
  | .poisoned2 | .ceiling | .parked | .giveBack _ | .ffiSubmit | .insert _ | .release _ | .issue _
  | .latch _ | .answerClosed | .done _ | .enterClosed .submit | .tryRLock .submit
  | .enterPtr .submit | .inside .submit | .unlock (.giveBack _) | .unlock (.release _)
  | .unlock (.issue _) => true
  | _ => false

-- A Submit up to its select on the semaphore.
def early : Pc → Bool
  | .closed1 _ | .exited1 _ | .poisoned1 _ | .input _ | .acquire => true
  | _ => false

/-- The ticket that Rust gave this Submit. -/
def brings : Pc → Option Ticket
  | .insert t | .release t | .issue t | .unlock (.release t) | .unlock (.issue t)
  | .done (.ticket t) => some t
  | _ => none

/-- On the way of a Wait for this ticket. -/
def waits (t : Ticket) : Pc → Bool
  | .claim _ u | .await _ u _ | .got _ u _ _ | .race _ u _ => decide (u = t)
  | .recvLocked u (.outcome _ _ _) | .recvLocked u (.raced _ _) => decide (u = t)
  | .outcome _ _ _ | .raced _ _ | .bufClosed _ | .done _ => true
  | .enterClosed v | .tryRLock v | .enterPtr v | .inside v => v.waits t
  | .unlock after => after.waits t
  | _ => false

/-- A Wait that has the outcome, or a refusal, and owes no permit. -/
def collected : Pc → Bool
  | .outcome _ _ _ | .raced _ _ | .bufClosed _ | .done _ => true
  | .enterClosed v | .tryRLock v | .enterPtr v | .inside v => v.collected
  | .unlock after => after.collected
  | _ => false

end Pc

def ReaderVisit.reads : ReaderVisit → Bool
  | .exitFree _ _ => false
  | _ => true

/-- The loop of drainPipe goes on. -/
def ReaderPc.reads : ReaderPc → Bool
  | .exitClosed | .exitErr | .exitLocked _ | .exitFree _ | .gone => false
  | .enterClosed v | .tryRLock v | .enterPtr v | .inside v => v.reads
  | .unlock after => after.reads
  | _ => true

namespace History

/-- Nothing that was returned or given back is forgotten. -/
structure Grows (h h' : History) : Prop where
  returned : h.returned ⊆ h'.returned
  gaveBack : ∀ t, h.gaveBack t ≤ h'.gaveBack t

variable (h : History) (t : Ticket)

theorem Grows.refl : h.Grows h := ⟨fun _ member => member, fun _ => Nat.le_refl _⟩

theorem grows_accept : h.Grows (h.accept t) := ⟨fun _ member => member, fun _ => Nat.le_refl _⟩

theorem grows_ret : h.Grows (h.ret t) :=
  ⟨fun _ member => Finset.mem_insert_of_mem member, fun _ => Nat.le_refl _⟩

theorem grows_spend : h.Grows (h.spend t) := ⟨fun _ member => member, fun _ => Nat.le_refl _⟩

theorem grows_hand (x : Handover) : h.Grows ((h.hand t x).spend t) :=
  ⟨fun _ member => member, fun _ => Nat.le_refl _⟩

theorem grows_giveBack : h.Grows (h.giveBack t) := by
  refine ⟨fun _ member => member, fun u => ?_⟩
  simp only [giveBack, Function.update_apply]
  split
  · rename_i same
    subst same
    exact Nat.le_succ _
  · exact Nat.le_refl _

end History

namespace State

variable {cfg : Config} {s s' : State} {ctx : Bool} {pc pc' : Pc}

theorem receiveSem_frame (received : s.receiveSem = some s') :
    s'.hist = s.hist ∧ s'.sh.closed = s.sh.closed ∧ s'.sh.abandoned = s.sh.abandoned := by
  unfold receiveSem at received
  split at received
  · cases received
    exact ⟨rfl, rfl, rfl⟩
  · cases received

theorem submit_stays {c : Choice} (went : submitStep cfg s ctx pc c = some (s', pc')) :
    pc'.submits = true := by
  have back (why : Refusal) : why.pc.submits = true := by cases why <;> rfl
  unfold submitStep at went
  split at went <;> grind -ring -linarith [Pc.submits, Option.map_eq_some_iff]

theorem submit_brings {c : Choice} (went : submitStep cfg s ctx pc c = some (s', pc')) {t : Ticket}
    (brings : pc'.brings = some t) :
    pc.brings = some t ∨ (t ∉ s.hist.accepted ∧ s'.hist = s.hist.accept t) := by
  have back (why : Refusal) : why.pc.brings = none := by cases why <;> rfl
  unfold submitStep at went
  split at went <;> grind -ring -linarith [Pc.brings, Option.map_eq_some_iff]

theorem submit_keeps {c : Choice} (went : submitStep cfg s ctx pc c = some (s', pc')) {t : Ticket}
    (brings : pc.brings = some t) : pc'.brings = some t ∧ s'.hist.accepted = s.hist.accepted := by
  have given (h : History) (u : Ticket) : (h.giveBack u).accepted = h.accepted := rfl
  unfold submitStep at went
  split at went <;> grind -ring -linarith
    [Pc.brings, Option.map_eq_some_iff, → receiveSem_frame, giveBack,
    History.ret]

theorem submit_issued {c : Choice} (went : submitStep cfg s ctx pc c = some (s', pc')) {t : Ticket}
    (halted : pc' = .done (.ticket t)) : t ∈ s'.hist.returned := by
  have back (why : Refusal) : why.pc ≠ .done (.ticket t) := by cases why <;> simp [Refusal.pc]
  unfold submitStep at went
  split at went <;> grind -ring -linarith [Option.map_eq_some_iff, History.ret]

theorem submit_grows {c : Choice} (went : submitStep cfg s ctx pc c = some (s', pc')) :
    s.hist.Grows s'.hist := by
  unfold submitStep at went
  split at went <;> grind -ring -linarith
    [Option.map_eq_some_iff, → receiveSem_frame, giveBack, History.Grows.refl,
    History.grows_accept, History.grows_ret, History.grows_giveBack]

theorem submit_shared {c : Choice} (went : submitStep cfg s ctx pc c = some (s', pc')) :
    s'.sh.closed = s.sh.closed ∧ s'.sh.abandoned = s.sh.abandoned := by
  unfold submitStep at went
  split at went <;> grind -ring -linarith [Option.map_eq_some_iff, → receiveSem_frame, giveBack,
    Shared.insertLocked, Shared.notifyUncollectedLocked]

theorem wait_waits {c : Choice} {t : Ticket} (went : waitStep cfg s ctx pc c = some (s', pc'))
    (waits : pc.waits t = true) : pc'.waits t = true := by
  have freed (id : TakeId) (out : Outcome) : (freeThen id out).waits t = true := by
    unfold freeThen
    split <;> rfl
  have later (u : Ticket) (after : After) (waits : (Pc.recvLocked u after).waits t = true) :
      after.pc.waits t = true := by
    cases after with
    | discarded id => cases waits
    | _ => rfl
  unfold waitStep at went
  split at went <;> grind -ring -linarith
    [Pc.waits, Visit.waits, settle, After.pc, Option.map_eq_some_iff]

theorem wait_grows {c : Choice} (went : waitStep cfg s ctx pc c = some (s', pc')) :
    s.hist.Grows s'.hist := by
  unfold waitStep at went
  split at went <;> grind -ring -linarith
    [Option.map_eq_some_iff, → receiveSem_frame, giveBack, settle,
    History.Grows.refl, History.grows_spend, History.grows_hand, History.grows_giveBack]

theorem wait_accepted {c : Choice} (went : waitStep cfg s ctx pc c = some (s', pc')) :
    s'.hist.accepted = s.hist.accepted := by
  have given (h : History) (u : Ticket) : (h.giveBack u).accepted = h.accepted := rfl
  unfold waitStep at went
  split at went <;> grind -ring -linarith
    [Option.map_eq_some_iff, → receiveSem_frame, giveBack, settle,
    History.spend, History.hand]

/-- How a Wait comes to owe nothing: it paid, its claim found the ticket without a permit or was
refused, the outcome it received was of such a ticket, or it gave up. -/
inductive Settles (s s' : State) (t : Ticket) : Pc → Prop
  | paid {pc : Pc} : 0 < s'.hist.gaveBack t → Settles s s' t pc
  | claimed {op : Op} : t ∉ s.sh.semTickets → Settles s s' t (.claim op t)
  | refused {op : Op} : t ∈ s.sh.abandoned ∨ s.sh.closed = true ∨ s.sh.drainExited = true ∨
      t ∈ s.sh.pending.keys → Settles s s' t (.claim op t)
  | got {op : Op} {d : Nat} {res : CallResult} : t ∉ s.sh.semTickets →
      Settles s s' t (.got op t d res)
  | raced {op : Op} {d : Nat} {res : CallResult} : s.sh.chan d = some res → t ∉ s.sh.semTickets →
      Settles s s' t (.race op t d)
  | gaveUp {op : Op} {d : Nat} : s.sh.chan d = none → Settles s s' t (.race op t d)

theorem settle_collected {mid : State} {t : Ticket} {owes : Bool} {after : After}
    (ended : some (settle mid t owes after) = some (s', pc')) (halted : pc'.collected = true) :
    owes = false := by
  cases owes with
  | false => rfl
  | true =>
    cases ended
    cases halted

/-- Why a claim was refused. -/
theorem claim_refused {sh sh' : Shared} {t : Ticket} {e : Err}
    (refused : sh.claimLocked t = (.refused e, sh')) :
    t ∉ sh.semTickets ∨ t ∈ sh.abandoned ∨ sh.closed = true ∨ sh.drainExited = true ∨
      t ∈ sh.pending.keys := by
  by_contra live
  simp only [not_or, Bool.not_eq_true] at live
  obtain ⟨held, unkept, openNow, running, unwaited⟩ := live
  unfold Shared.claimLocked at refused
  simp only [unkept, openNow, running, held, unwaited, Bool.or_self, if_false] at refused
  split at refused <;> cases refused

theorem wait_settles {c : Choice} {t : Ticket} (went : waitStep cfg s ctx pc c = some (s', pc'))
    (waits : pc.waits t = true) (halted : pc'.collected = true) :
    pc.collected = true ∨ Settles s s' t pc := by
  unfold waitStep at went
  split at went
  · rename_i op u
    obtain rfl : u = t := of_decide_eq_true waits
    right
    split at went
    · cases went
    · split at went
      · rename_i claimed
        have held := (Ledger.claim_done claimed).2.2.1
        exact .claimed (of_decide_eq_false (held.symm.trans (settle_collected went halted)))
      · rename_i claimed
        exact (claim_refused claimed).elim .claimed .refused
      · cases went
        cases halted
  · split at went
    · cases went
      cases halted
    · cases went
  · split at went
    · cases went
      cases halted
    · cases went
  · rename_i op u d res
    obtain rfl : u = t := of_decide_eq_true waits
    right
    split at went
    · cases went
    · have free := settle_collected went halted
      rw [Ledger.collect_fields, (Ledger.recycle_chosen cfg.poolSize s.sh d).1] at free
      exact .got (of_decide_eq_false free)
  · rename_i op u d
    obtain rfl : u = t := of_decide_eq_true waits
    right
    split at went
    · cases went
    · split at went
      · rename_i res full
        have free := settle_collected went halted
        rw [Ledger.collect_fields, (Ledger.recycle_chosen cfg.poolSize (s.sh.receive d) d).1] at free
        exact .raced full (of_decide_eq_false free)
      · rename_i empty
        exact .gaveUp empty
  · rename_i u after
    right
    obtain rfl : u = t := by
      cases after with
      | discarded id => cases waits
      | _ => exact of_decide_eq_true waits
    obtain ⟨mid, received, same⟩ := Option.map_eq_some_iff.mp went
    cases same
    exact .paid (by simp [giveBack, History.giveBack])
  · exact .inl rfl
  · exact .inl rfl
  · exact .inl rfl
  · cases waits
  · cases waits
  · cases waits
  · cases went

theorem wait_shared {c : Choice} {t : Ticket} (went : waitStep cfg s ctx pc c = some (s', pc'))
    (waits : pc.waits t = true) : s'.sh.closed = s.sh.closed ∧
      (s'.sh.abandoned = s.sh.abandoned ∨ ∃ op d, pc = .race op t d ∧ s.sh.chan d = none) := by
  have claims {u : Ticket} {claim : Shared.Claim} {sh : Shared}
      (claimed : s.sh.claimLocked u = (claim, sh)) :
      sh.closed = s.sh.closed ∧ sh.abandoned = s.sh.abandoned := by
    cases claim with
    | done res id owes => simp [(Ledger.claim_done claimed).2.2.2]
    | _ => simp [Ledger.claim_keeps claimed]
  have collects (sh : Shared) (u : Ticket) (d : Nat) :
      let sh' := ((sh.recycleWaitChanLocked cfg.poolSize d).collectLocked u).2.2
      sh'.closed = sh.closed ∧ sh'.abandoned = sh.abandoned := by
    rw [Ledger.collect_fields, (Ledger.recycle_chosen cfg.poolSize sh d).1]
    exact ⟨rfl, rfl⟩
  have registers (sh : Shared) (u : Ticket) : (sh.registerLocked u).2.closed = sh.closed ∧
      (sh.registerLocked u).2.abandoned = sh.abandoned := by
    rw [(Ledger.register_chosen sh u).1]
    exact ⟨rfl, rfl⟩
  have detaches (sh : Shared) (u : Ticket) (d : Nat) :
      (sh.detachLocked cfg.poolSize u d).closed = sh.closed := by
    rw [Shared.detachLocked, (Ledger.recycle_chosen cfg.poolSize _ d).1]
    rfl
  unfold waitStep at went
  split at went <;> grind -ring -linarith
    [Pc.waits, Option.map_eq_some_iff, → receiveSem_frame, giveBack, settle,
    Shared.receive]

theorem submit_accepted {c : Choice} (went : submitStep cfg s ctx pc c = some (s', pc')) :
    s'.hist.accepted = s.hist.accepted ∨ ∃ t, s'.hist = s.hist.accept t ∧ pc'.brings = some t := by
  have given (h : History) (u : Ticket) : (h.giveBack u).accepted = h.accepted := rfl
  unfold submitStep at went
  split at went <;> grind -ring -linarith
    [Pc.brings, Option.map_eq_some_iff, → receiveSem_frame, giveBack,
    History.ret]

/-- A visit leaves everything but `cgoMu` as it is. -/
theorem cgo_frame {c : Choice} (went : cgoStep s pc c = some (s', pc')) :
    s'.hist = s.hist ∧ s'.sh = s.sh := by
  unfold cgoStep at went
  split at went <;> grind -ring -linarith

theorem unlock_submits {after : Pc} (submits : (Pc.unlock after).submits = true) :
    after.submits = true ∧ after.brings = (Pc.unlock after).brings ∧
      ∀ t, after ≠ .done (.ticket t) := by
  cases after with
  | giveBack | release | issue => exact ⟨rfl, rfl, nofun⟩
  | _ => cases submits

theorem cgo_submits {c : Choice} (went : cgoStep s pc c = some (s', pc'))
    (submits : pc.submits = true) : pc'.submits = true ∧ pc'.brings = pc.brings ∧
      ∀ t, pc' ≠ .done (.ticket t) := by
  unfold cgoStep at went
  split at went
  · rename_i v
    cases v with
    | submit =>
      cases went
      split <;> exact ⟨rfl, rfl, nofun⟩
    | _ => cases submits
  · rename_i v
    cases v with
    | submit => split at went <;> cases went <;> exact ⟨rfl, rfl, nofun⟩
    | _ => cases submits
  · rename_i v
    cases v with
    | submit =>
      cases went
      split <;> exact ⟨rfl, rfl, nofun⟩
    | _ => cases submits
  · cases went
    split <;> exact ⟨rfl, rfl, nofun⟩
  · cases submits
  · cases submits
  · cases submits
  · cases submits
  · cases went
    exact unlock_submits submits
  · cases went

theorem failed_waits {v : Visit} {t : Ticket} (waits : v.waits t = true) :
    v.failed.waits t = true ∧ v.failed.collected = v.collected := by
  cases v with
  | submit => cases waits
  | cancel op u c => exact ⟨waits, rfl⟩
  | view op data id =>
    cases op with
    | wait => exact ⟨rfl, rfl⟩
    | waitBuffer =>
      simp only [Visit.failed, freeThen]
      split <;> exact ⟨rfl, rfl⟩
  | free id out => exact ⟨rfl, rfl⟩

theorem cgo_waits {c : Choice} {t : Ticket} (went : cgoStep s pc c = some (s', pc'))
    (waits : pc.waits t = true) : pc'.waits t = true ∧ pc'.collected = pc.collected := by
  have freed (id : TakeId) (out : Outcome) :
      (freeThen id out).waits t = true ∧ (freeThen id out).collected = true := by
    unfold freeThen
    split <;> exact ⟨rfl, rfl⟩
  unfold cgoStep at went
  split at went <;> grind -ring -linarith
    [Pc.waits, Pc.collected, Visit.waits, Visit.collected, failed_waits]

/-- What one step of a Submit does. -/
structure Submits (s s' : State) (pc pc' : Pc) : Prop where
  stays : pc'.submits = true
  accepted : s'.hist.accepted = s.hist.accepted ∨ ∃ t, t ∉ s.hist.accepted ∧
    s'.hist.accepted = insert t s.hist.accepted ∧ pc'.brings = some t
  brings : ∀ t, pc.brings = some t → pc'.brings = some t
  fresh : ∀ t, pc'.brings = some t → pc.brings = some t ∨
    (t ∉ s.hist.accepted ∧ t ∈ s'.hist.accepted)
  issued : ∀ t, pc' = .done (.ticket t) → t ∈ s'.hist.returned
  grows : s.hist.Grows s'.hist
  closed : s'.sh.closed = s.sh.closed
  abandoned : s'.sh.abandoned = s.sh.abandoned

theorem thread_submits {c : Choice} (went : threadStep cfg s ctx pc c = some (s', pc'))
    (submits : pc.submits = true) : Submits s s' pc pc' := by
  simp only [threadStep, Option.or_eq_some_iff] at went
  rcases went with submit | ⟨_, wait | ⟨_, cgo | ⟨_, close⟩⟩⟩
  · have shared := submit_shared submit
    refine ⟨submit_stays submit, ?_, fun t brings => (submit_keeps submit brings).1, ?_,
      fun t => submit_issued submit, submit_grows submit, shared.1, shared.2⟩
    · rcases submit_accepted submit with same | ⟨t, accepts, brings⟩
      · exact .inl same
      · rcases submit_brings submit brings with had | ⟨fresh, _⟩
        · exact .inl (submit_keeps submit had).2
        · exact .inr ⟨t, fresh, by rw [accepts]; rfl, brings⟩
    · intro t brings
      refine (submit_brings submit brings).imp_right ?_
      rintro ⟨fresh, accepts⟩
      rw [accepts]
      exact ⟨fresh, Finset.mem_insert_self t _⟩
  · exfalso
    unfold waitStep at wait
    split at wait
    all_goals first | cases submits | cases wait
  · obtain ⟨hist, sh⟩ := cgo_frame cgo
    obtain ⟨stays, brings, unissued⟩ := cgo_submits cgo submits
    exact ⟨stays, .inl (by rw [hist]), fun t had => brings.trans had,
      fun t has => .inl (brings.symm.trans has), fun t halted => absurd halted (unissued t),
      hist ▸ .refl _, by rw [sh], by rw [sh]⟩
  · unfold closeCallStep at close
    split at close
    · cases submits
    · cases submits
    · cases close
      refine ⟨rfl, .inl rfl, ?_, ?_, ?_, .refl _, rfl, rfl⟩
      all_goals
        intro t brings
        cases brings
    · cases close

/-- What one step of a Wait does. -/
structure Waits (t : Ticket) (s s' : State) (pc pc' : Pc) : Prop where
  stays : pc'.waits t = true
  accepted : s'.hist.accepted = s.hist.accepted
  grows : s.hist.Grows s'.hist
  closed : s'.sh.closed = s.sh.closed
  abandoned : s'.sh.abandoned = s.sh.abandoned ∨ ∃ op d, pc = .race op t d ∧ s.sh.chan d = none
  settles : pc'.collected = true → pc.collected = true ∨ Settles s s' t pc

theorem thread_waits {c : Choice} {t : Ticket}
    (went : threadStep cfg s ctx pc c = some (s', pc')) (waits : pc.waits t = true) :
    Waits t s s' pc pc' := by
  simp only [threadStep, Option.or_eq_some_iff] at went
  rcases went with submit | ⟨_, wait | ⟨_, cgo | ⟨_, close⟩⟩⟩
  · exfalso
    unfold submitStep at submit
    split at submit
    all_goals first | cases waits | cases submit
  · have shared := wait_shared wait waits
    exact ⟨wait_waits wait waits, wait_accepted wait, wait_grows wait, shared.1, shared.2,
      wait_settles wait waits⟩
  · obtain ⟨hist, sh⟩ := cgo_frame cgo
    obtain ⟨stays, collected⟩ := cgo_waits cgo waits
    exact ⟨stays, by rw [hist], hist ▸ .refl _, by rw [sh], .inl (by rw [sh]),
      fun halted => .inl (collected.symm.trans halted)⟩
  · exfalso
    unfold closeCallStep at close
    split at close
    all_goals first | cases waits | cases close

theorem waits_role {t : Ticket} (waits : pc.waits t = true) : pc.role ≠ .holding := by
  induction pc with
  | unlock after ih => exact ih waits
  | enterClosed v | tryRLock v | enterPtr v | inside v =>
    cases v with
    | submit => cases waits
    | _ => nofun
  | _ => first | (cases waits; done) | nofun

theorem afterBin_reads (t : Ticket) (held : Bool) : (ReaderPc.afterBin t held).reads = true := by
  cases held <;> rfl

theorem failed_reads {v : ReaderVisit} (reads : v.reads = true) : v.failed.reads = true := by
  cases v with
  | take t => rfl
  | binFree id t held => exact afterBin_reads t held
  | exitFree id rest => cases reads

theorem deliver_shared (sh : Shared) (t : Ticket) (res : CallResult) (id : TakeId) :
    (sh.deliver t res id).2.closed = sh.closed ∧
      (sh.deliver t res id).2.abandoned ⊆ sh.abandoned := by
  unfold Shared.deliver
  split
  · exact ⟨rfl, Finset.erase_subset t _⟩
  · have noted : (sh.noteTake t id).closed = sh.closed ∧
        (sh.noteTake t id).abandoned = sh.abandoned := by
      unfold Shared.noteTake
      split <;> exact ⟨rfl, rfl⟩
    split <;> exact ⟨noted.1, noted.2.subset⟩

theorem grows_route (h : History) (t : Ticket) (res : CallResult) (id : TakeId)
    (route : Shared.Route) : h.Grows (h.route t res id route) ∧
      (h.route t res id route).accepted = h.accepted := by
  cases route <;> exact ⟨⟨fun _ member => member, fun _ => Nat.le_refl _⟩, rfl⟩

/-- What one step of a reader that has not failed does. -/
structure Reads (s s' : State) (rd' : ReaderPc) : Prop where
  stays : rd'.reads = true
  accepted : s'.hist.accepted = s.hist.accepted
  grows : s.hist.Grows s'.hist
  closed : s'.sh.closed = s.sh.closed
  abandoned : s'.sh.abandoned ⊆ s.sh.abandoned

theorem Reads.same {rd' : ReaderPc} (stays : rd'.reads = true) (hist : s'.hist = s.hist)
    (sh : s'.sh = s.sh) : Reads s s' rd' :=
  ⟨stays, by rw [hist], hist ▸ .refl _, by rw [sh], by rw [sh]⟩

theorem reader_reads {rd rd' : ReaderPc} {c : ReadChoice}
    (went : readerStep s rd c = some (s', rd')) (reads : rd.reads = true) (works : c ≠ .fail) :
    Reads s s' rd' := by
  unfold readerStep at went
  split at went
  · split at went
    · cases went
      refine ⟨?_, rfl, ⟨fun _ member => member, fun _ => Nat.le_refl _⟩, rfl, subset_rfl⟩
      split <;> rfl
    · cases went
  · exact absurd rfl works
  · cases went
    exact .same rfl rfl rfl
  · cases went
    refine .same ?_ rfl rfl
    split <;> rfl
  · cases went
    exact .same rfl rfl rfl
  · rename_i t res id
    split at went
    · cases went
    · cases went
      have shared := deliver_shared s.sh t res id
      have routed := grows_route s.hist t res id (s.sh.deliver t res id).1
      refine ⟨?_, routed.2, routed.1, shared.1, shared.2⟩
      split
      · split
        · exact afterBin_reads t _
        · rfl
      · rfl
      · exact afterBin_reads t _
  · obtain ⟨mid, received, same⟩ := Option.map_eq_some_iff.mp went
    cases same
    obtain ⟨hist, closed, abandoned⟩ := receiveSem_frame received
    exact ⟨rfl, by simp [giveBack, History.giveBack, hist],
      by simpa [giveBack, hist] using s.hist.grows_giveBack _, closed, abandoned.subset⟩
  · cases went
    refine .same ?_ rfl rfl
    split
    · exact failed_reads reads
    · exact reads
  · split at went
    · cases went
      exact .same reads rfl rfl
    · cases went
      exact .same (failed_reads reads) rfl rfl
  · cases went
    refine .same ?_ rfl rfl
    split
    · exact failed_reads reads
    · exact reads
  · cases went
    exact .same rfl rfl rfl
  · cases went
    exact .same (failed_reads reads) rfl rfl
  · cases went
    exact .same reads rfl rfl
  · cases reads
  · cases reads
  · cases reads
  · cases reads
  · cases reads
  · cases went

theorem reads_role {rd : ReaderPc} (reads : rd.reads = true) : rd.role ≠ .gone := by
  induction rd with
  | unlock after ih => exact ih reads
  | enterClosed v | tryRLock v | enterPtr v | inside v =>
    cases v with
    | take t => nofun
    | binFree id t held => cases held <;> nofun
    | exitFree id rest => cases reads
  | _ => first | (cases reads; done) | nofun

end State

namespace Ledger

variable {cap : Nat} {L : Ledger}

theorem sum_census {α : Type} (A : Finset Ticket) (f : Ticket → α → Nat) (l : List α) :
    ∑ t ∈ A, census (f t) l = census (fun a => ∑ t ∈ A, f t a) l := by
  induction l with
  | nil => simp
  | cons a l ih => simp only [census_cons, Finset.sum_add_distrib, ih]

theorem card_le_sum_has {A S : Finset Ticket} (within : S ⊆ A) : S.card ≤ ∑ t ∈ A, has S t := by
  simp only [has, ← Finset.card_filter]
  apply Finset.card_le_card
  intro t member
  exact Finset.mem_filter.mpr ⟨within member, member⟩

theorem one_le_sum {A : Finset Ticket} {u : Ticket} (member : u ∈ A) :
    1 ≤ ∑ t ∈ A, if u = t then 1 else 0 := by
  rw [Finset.sum_ite_eq, if_pos member]

-- The accepted tickets whose permit is still out.
def unpaid (L : Ledger) : Finset Ticket := L.hist.accepted.filter fun t => L.hist.gaveBack t = 0

theorem Permits.accepted_of (p : Permits cap L) {t : Ticket} (counted : 0 < has L.sh.semTickets t +
    census (Role.carries t) L.roles + census (Role.owes t) L.roles + L.reader.owes t +
    L.closer.owes t) : t ∈ L.hist.accepted := by
  have total := p.located t
  by_contra missing
  rw [has_of_notMem missing] at total
  omega

theorem Permits.role_permits (p : Permits cap L) {r : Role} (member : r ∈ L.roles) :
    r.permits ≤ r.bare + (∑ t ∈ L.hist.accepted, r.carries t + ∑ t ∈ L.hist.accepted, r.owes t) := by
  have carried (u : Ticket) (here : r.carries u = 1) : u ∈ L.hist.accepted := by
    have one := le_census_of_mem (Role.carries u) member
    exact p.accepted_of (by omega)
  have owed (u : Ticket) (here : r.owes u = 1) : u ∈ L.hist.accepted := by
    have one := le_census_of_mem (Role.owes u) member
    exact p.accepted_of (by omega)
  cases r with
  | holding => exact Nat.le_add_right 1 _
  | carrying u =>
    have one := one_le_sum (carried u (if_pos rfl))
    simp only [Role.permits, Role.bare, Role.carries]
    omega
  | issuedOwing u | owing u =>
    have one := one_le_sum (owed u (if_pos rfl))
    simp only [Role.permits, Role.bare, Role.owes]
    omega
  | _ => exact Nat.zero_le _

/-- Every permit that is out is one of a submitter without a ticket or of an unpaid ticket. -/
theorem Permits.sem_le (p : Permits cap L) :
    L.sh.sem ≤ census Role.bare L.roles + L.unpaid.card := by
  have each : ∀ t ∈ L.hist.accepted, has L.sh.semTickets t + census (Role.carries t) L.roles +
      census (Role.owes t) L.roles + L.reader.owes t + L.closer.owes t =
      if L.hist.gaveBack t = 0 then 1 else 0 := by
    intro t member
    have total := p.located t
    rw [has_of_mem member] at total
    split <;> omega
  have sum := Finset.sum_congr rfl each
  rw [← Finset.card_filter, Finset.sum_add_distrib, Finset.sum_add_distrib, Finset.sum_add_distrib,
    Finset.sum_add_distrib, sum_census, sum_census] at sum
  have live := card_le_sum_has fun t member => p.live_accepted (t := t) member
  have callers := census_le Role.permits (fun r => r.bare + (∑ t ∈ L.hist.accepted, r.carries t +
    ∑ t ∈ L.hist.accepted, r.owes t)) fun r member => p.role_permits member
  rw [census_add, census_add] at callers
  have reader : L.reader.permits ≤ ∑ t ∈ L.hist.accepted, L.reader.owes t := by
    cases here : L.reader with
    | owing u => exact one_le_sum (p.accepted_of (by simp [here, ReaderRole.owes]))
    | _ => exact Nat.zero_le _
  have closer : L.closer.permits ≤ ∑ t ∈ L.hist.accepted, L.closer.owes t := by
    cases here : L.closer with
    | owing u => exact one_le_sum (p.accepted_of (by simp [here, CloserRole.owes]))
    | _ => exact Nat.zero_le _
  have count := p.count
  unfold unpaid
  omega

-- A submitter with a permit and no ticket yet.
def isBare : Role → Bool
  | .holding => true
  | _ => false

/-- If everybody who holds a permit is named by some member of `A`, the permits are no more than the
members. -/
theorem Permits.sem_le_card (p : Permits cap L) {A : Finset Nat} (names : Nat → Option (Nat ⊕ Ticket))
    (submitters : ∀ i, L.roles[i]? = some .holding → ∃ j ∈ A, names j = some (.inl i))
    (tickets : ∀ t ∈ L.unpaid, ∃ j ∈ A, names j = some (.inr t)) : L.sh.sem ≤ A.card := by
  let places := (List.range L.roles.length).filter fun i => (L.roles[i]?.map isBare).getD false
  have count : places.length = census Role.bare L.roles := by
    rw [length_filter_range]
    congr 1
    funext r
    cases r <;> rfl
  have distinct : places.Nodup := List.nodup_range.filter _
  have named : (places.toFinset.disjSum L.unpaid).map .some ⊆ A.image names := by
    intro x member
    obtain ⟨holder, held, rfl⟩ := Finset.mem_map.mp member
    apply Finset.mem_image.mpr
    rcases holder with i | t
    · have here := (List.mem_filter.mp (List.mem_toFinset.mp (Finset.inl_mem_disjSum.mp held))).2
      apply submitters i
      cases role : L.roles[i]? with
      | none => simp [role] at here
      | some r =>
        cases r with
        | holding => rfl
        | _ => simp [role, isBare] at here
    · exact tickets t (Finset.inr_mem_disjSum.mp held)
  calc L.sh.sem ≤ census Role.bare L.roles + L.unpaid.card := p.sem_le
    _ = ((places.toFinset.disjSum L.unpaid).map .some).card := by
      rw [Finset.card_map, Finset.card_disjSum, List.toFinset_card_of_nodup distinct, count]
    _ ≤ (A.image names).card := Finset.card_le_card named
    _ ≤ A.card := Finset.card_image_le

end Ledger

end Gusset.Handle
