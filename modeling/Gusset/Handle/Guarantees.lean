import Gusset.Handle.Runs

/-! What callers of a handle can rely on, in every interleaving of their calls. -/
namespace Gusset.Handle
open Foundation

/-- The next step of this caller is a receive that gives a permit back. -/
def Pc.receives : Pc → Bool
  | .giveBack _ | .release _ | .recvLocked _ _ => true
  | _ => false

-- Callers may claim any ticket number at all.
def anyTicket : Ledger.Guard := fun _ _ => True

instance (L : Ledger) (t : Ticket) : Decidable (anyTicket L t) := .isTrue trivial

namespace State

variable {cfg : Config} {allowed : Ledger.Guard} {s : State}

def submitters (s : State) : Nat := census (fun th => th.pc.role.holds) s.threads

def releasers (s : State) : Nat :=
  census (fun th => th.pc.role.releases) s.threads + s.reader.role.permits + s.closer.role.permits

-- Submitters between Rust accepting ticket `t` and the insert into `semTickets`.
def carriers (s : State) (t : Ticket) : Nat := census (fun th => th.pc.role.carries t) s.threads

-- Releasers of the permit of ticket `t`.
def releasersOf (s : State) (t : Ticket) : Nat :=
  census (fun th => th.pc.role.owes t) s.threads + s.reader.role.owes t + s.closer.role.owes t

/-- No receive that gives a permit back can block, with `mu` held or not. -/
def NeverBlocks (cfg : Config) (s : State) : Prop :=
  (∀ i th, s.threads[i]? = some th → th.pc.receives = true →
    (s.step cfg (.thread i .go)).isSome = true) ∧
  (∀ t, s.reader = .pay t → (s.step cfg (.reader .go)).isSome = true) ∧
  (∀ t, s.closer = .recv t → (s.step cfg (.closer .go)).isSome = true)

theorem books_count (books : Ledger.Books cfg.poolSize s.ledger) :
    s.sh.sem = s.sh.semTickets.card + s.submitters + s.releasers := by
  have count := books.permits.count
  have split : census Role.permits s.ledger.roles =
      s.submitters + census (fun th => th.pc.role.releases) s.threads := by
    unfold submitters
    rw [← census_add, ledger, census_map]
    simp only [Role.permits_eq]
  simp only [split] at count
  simp only [releasers]
  exact count.trans (by simp only [ledger]; omega)

theorem receives_holds {pc : Pc} (waits : pc.receives = true) :
    1 ≤ pc.role.holds + pc.role.releases := by
  cases pc with
  | giveBack why | release t | recvLocked t after => exact Nat.le_refl _
  | _ => cases waits

theorem books_never_blocks (books : Ledger.Books cfg.poolSize s.ledger) : NeverBlocks cfg s := by
  have count := books_count books
  have some_one : 0 < s.sh.sem → s.receiveSem.isSome = true := by
    intro some_one
    simp [receiveSem, some_one]
  refine ⟨?_, ?_, ?_⟩
  · intro i th here waits
    have held := receives_holds waits
    have submitter := le_census (fun th : Thread => th.pc.role.holds) here
    have releaser := le_census (fun th : Thread => th.pc.role.releases) here
    have enough := some_one (by unfold submitters releasers at count; omega)
    obtain ⟨mid, received⟩ := Option.isSome_iff_exists.mp enough
    obtain ⟨ctx, pc⟩ := th
    cases pc with
    | giveBack why => simp [step, here, threadStep, submitStep, received]
    | release t => simp [step, here, threadStep, submitStep, received]
    | recvLocked t after =>
      simp [step, here, threadStep, submitStep, waitStep, received]
    | _ => cases waits
  · intro t here
    have mine : s.reader.role.permits = 1 := by rw [here]; rfl
    have enough := some_one (by unfold releasers at count; omega)
    obtain ⟨mid, received⟩ := Option.isSome_iff_exists.mp enough
    simp [step, here, readerStep, received]
  · intro t here
    have mine : s.closer.role.permits = 1 := by rw [here]; rfl
    have enough := some_one (by unfold releasers at count; omega)
    obtain ⟨mid, received⟩ := Option.isSome_iff_exists.mp enough
    simp [step, here, closeStep, received]

theorem books_located (books : Ledger.Books cfg.poolSize s.ledger) (t : Ticket) :
    s.hist.gaveBack t + has s.sh.semTickets t + s.carriers t + s.releasersOf t =
      has s.hist.accepted t := by
  have total := books.permits.located t
  simp only [ledger, census_map] at total
  unfold carriers releasersOf
  omega

/-- Permit conservation: no give-back blocks, every permit in the semaphore is accounted for, and
the permit of each accepted ticket is given back once, no earlier than its completion was consumed
or the reader stopped. -/
theorem permits_conserved (reach : Reaches cfg anyTicket s) :
    NeverBlocks cfg s ∧
    s.sh.sem = s.sh.semTickets.card + s.submitters + s.releasers ∧ s.sh.sem ≤ cfg.poolSize ∧
    (∀ t, s.hist.gaveBack t + has s.sh.semTickets t + s.carriers t + s.releasersOf t =
      if t ∈ s.hist.accepted then 1 else 0) ∧
    (∀ t, 0 < s.hist.gaveBack t → t ∈ s.hist.consumed ∨ s.sh.drainExited = true) ∧
    (s.closer = .done → ∀ t ∈ s.hist.accepted, s.hist.gaveBack t + s.releasersOf t = 1) ∧
    (s.sh.drainExited = false →
      (s.hist.accepted \ s.hist.consumed).card ≤ cfg.poolSize) := by
  have books := reaches_books reach
  refine ⟨books_never_blocks books, books_count books, books.permits.room, books_located books,
    ?_, ?_, ?_⟩
  · intro t back
    have back : 0 < s.ledger.hist.gaveBack t := back
    exact (books.permits.early t (by omega)).imp_left (books.reader.delivered t)
  · intro finished t accepted
    have role : s.ledger.closer = .done := by simp [ledger, finished, ClosePc.role]
    have none : s.sh.semTickets = ∅ := books.permits.finished role
    have uncarried := books.permits.locked (by simp [role, CloserRole.locked]) t
    have total := books_located books t
    simp only [ledger, census_map] at uncarried
    rw [none, has_of_notMem (Finset.notMem_empty t), has_of_mem accepted] at total
    unfold carriers at total
    omega
  · exact books.permits.unconsumed_le books.reader

-- A Submit that Rust answers with ticket `t`, up to and including the answer.
def submitUpTo (t : Ticket) : List Act :=
  .call (.submit (.bytes 0)) ::
    List.replicate 13 (Act.thread 0 .go) ++ ([.thread 0 (.ticket t)] : List Act)

-- The completion overtakes the insert: the submitter is left to give the permit back.
def overtaken : Option State :=
  follows ⟨2, 0⟩ anyTicket opened
    (submitUpTo 7 ++
      ([.reader (.consume 7 (some [])), .reader .go, .thread 0 .go, .thread 0 .go] : List Act))

theorem overtaken_runs : overtaken.isSome = true := by decide

theorem permits_conserved_overtaken :
    ∃ s, overtaken = some s ∧ s.threads = [⟨false, .release 7⟩] ∧ s.releasers = 1 ∧
      s.sh.sem = 1 ∧ NeverBlocks ⟨2, 0⟩ s := by
  refine ⟨overtaken.get overtaken_runs, by simp, by decide, by decide, by decide, ?_⟩
  exact (permits_conserved (follows_reaches (.start rfl) (Option.some_get _).symm)).1

/-- The outcome that ends ticket `t`: what `deliver` was called with for it, or the closed error
the reader's exit sends. -/
def Ends (s : State) (t : Ticket) (res : CallResult) (id : TakeId) : Prop :=
  s.hist.delivered t = some (res, id) ∨
    (s.sh.drainExited = true ∧ id = 0 ∧ ∃ e, res = ⟨[], some e⟩ ∧ e.isClosed = true)

theorem waiter_member {th : Thread} {w : Waiter} (member : th ∈ s.threads)
    (waits : th.pc.role.waiter = some w) : some w ∈ s.ledger.desk.waiters := by
  simp only [Ledger.desk, ledger, List.map_map]
  exact List.mem_map.mpr ⟨th, member, waits⟩

/-- A channel in the free list is empty, in no entry of `pending`, with no waiter, and listed
once. -/
theorem books_free (books : Ledger.Books cfg.poolSize s.ledger) {c : Nat}
    (free : c ∈ s.sh.waitChans) :
    s.sh.chan c = none ∧ (∀ t, s.sh.pending.lookup t ≠ some (some c)) ∧
      (∀ th ∈ s.threads, ∀ w, th.pc.role.waiter = some w → w.chan ≠ c) ∧
      s.sh.waitChans.count c = 1 := by
  have desk := books.desk
  have counted := List.count_pos_iff.mpr free
  have one := desk.owned c
  have unused : ∀ w, some w ∈ s.ledger.desk.waiters → w.chan ≠ c := by
    intro w member same
    obtain ⟨i, here⟩ := List.mem_iff_getElem?.mp member
    exact desk.not_free here (same ▸ free)
  refine ⟨desk.free c free, ?_, ?_, ?_⟩
  · intro t entry
    obtain ⟨i, w, here, _, same, _⟩ := desk.waiter_of_pending entry
    exact unused w (List.mem_of_getElem? here) same
  · intro th member w waits
    exact unused w (waiter_member member waits)
  · change _ + s.sh.waitChans.count c ≤ 1 at one
    omega

/-- Exactly-once routing: a value taken for ticket `t` is the outcome of `t` with its own take id,
no outcome is handed out twice, and a recycled channel carries nothing over. -/
theorem routed_once (reach : Reaches cfg Ledger.returnedOnly s) :
    (∀ th ∈ s.threads, ∀ op t c res, th.pc = .got op t c res → s.Ends t res (s.sh.takeIDs t)) ∧
    (∀ t, ∀ x ∈ s.hist.handed t, s.Ends t x.result x.takeID) ∧
    (∀ t, (s.hist.handed t).length ≤ 1) ∧
    (∀ c ∈ s.sh.waitChans, s.sh.chan c = none ∧ (∀ t, s.sh.pending.lookup t ≠ some (some c)) ∧
      (∀ th ∈ s.threads, ∀ w, th.pc.role.waiter = some w → w.chan ≠ c) ∧
      s.sh.waitChans.count c = 1) := by
  have books := reaches_books reach
  have life := returned_lifecycle reach
  refine ⟨?_, ?_, ?_, ?_⟩
  · intro th member op t c res here
    have waits : th.pc.role.waiter = some ⟨op, t, c, some res⟩ := by rw [here]; rfl
    exact (books.desk.got _ res (waiter_member member waits) rfl).2.2
  · exact books.desk.handed
  · exact fun t => (life t).once
  · exact fun c free => books_free books free

-- Ticket 7 is submitted and returned, and a Wait on it registers.
def awaited : Option State :=
  follows ⟨2, 0⟩ Ledger.returnedOnly opened
    (submitUpTo 7 ++ List.replicate 3 (Act.thread 0 .go) ++
      ([.call (.wait .wait 7), .thread 1 .go] : List Act))

-- Its outcome is sent and received, and a second Wait and a Discard arrive before the collection.
def contested : Option State :=
  awaited.bind fun s => follows ⟨2, 0⟩ Ledger.returnedOnly s
    [.reader (.consume 7 (some [1])), .reader .go, .thread 1 .go, .call (.wait .waitBuffer 7),
      .call (.discard 7), .thread 3 .go]

theorem contested_runs : contested.isSome = true := by decide

theorem contested_reaches : Reaches ⟨2, 0⟩ Ledger.returnedOnly (contested.get contested_runs) := by
  obtain ⟨s, first, second⟩ := Option.bind_eq_some_iff.mp (Option.some_get contested_runs).symm
  exact follows_reaches (follows_reaches (.start rfl) first) second

theorem routed_once_contested :
    (contested.get contested_runs).threads[1]? = some ⟨false, .got .wait 7 0 ⟨[1], none⟩⟩ ∧
    (contested.get contested_runs).Ends 7 ⟨[1], none⟩ 0 := by
  refine ⟨by decide, ?_⟩
  exact (routed_once contested_reaches).1 ⟨false, .got .wait 7 0 ⟨[1], none⟩⟩ (by decide) _ _ _ _
    rfl

/-- A claim on this ticket is refused and changes nothing. -/
def Refuses (s : State) (t : Ticket) (answer : Err → Prop) : Prop :=
  ∃ e, s.sh.claimLocked t = (.refused e, s.sh) ∧ answer e

/-- A caller whose claim is refused returns the refusal; nothing else of the handle moves. -/
theorem Refuses.returns {t : Ticket} {answer : Err → Prop} (refuses : s.Refuses t answer)
    {j : Nat} {ctx : Bool} {pc : Pc} (here : s.threads[j]? = some ⟨ctx, pc⟩)
    (claiming : pc.claims = some t) (unlocked : s.mu = false) :
    ∃ e, answer e ∧ s.step cfg (.thread j .go) =
      some { s with threads := s.threads.set j ⟨ctx, .done (.err e)⟩ } := by
  obtain ⟨e, claimed, answered⟩ := refuses
  refine ⟨e, answered, ?_⟩
  cases pc with
  | claim op u | discardClaim u =>
    cases claiming
    simp [step, here, threadStep, submitStep, waitStep, unlocked, claimed]
  | _ => cases claiming

theorem closedErr_isClosed (sh : Shared) : sh.closedErr.isClosed = true := by
  unfold Shared.closedErr
  split <;> rfl

/-- A ticket being collected reads as busy. -/
theorem sent_busy (life : s.ledger.Lifecycle) {t : Ticket}
    (sent : s.sh.pending.lookup t = some none) :
    s.Refuses t fun e => e = .ticketBusy ∨ e.isClosed = true := by
  have waited : (s.ledger.slip t).pending ≠ none := by
    rw [show (s.ledger.slip t).pending = some none from sent]
    simp
  obtain ⟨_, _, unstored, unkept⟩ := (life t).registered waited
  have absent : s.sh.completed.lookup t = none := GoMap.lookup_eq_none.mpr unstored
  have unkept : t ∉ s.sh.abandoned := unkept
  unfold Refuses Shared.claimLocked
  simp only [absent, unkept, if_false]
  by_cases shut : (s.sh.closed || s.sh.drainExited) = true
  · exact ⟨_, by simp [shut], .inr (closedErr_isClosed s.sh)⟩
  · have running : s.sh.drainExited = false := by
      simp only [Bool.or_eq_true, not_or, Bool.not_eq_true] at shut
      exact shut.2
    have live : t ∈ s.sh.semTickets := by
      rcases (life t).sent sent with live | left
      · exact live
      · rw [show s.ledger.sh.drainExited = false from running] at left
        cases left
    have busy := GoMap.mem_keys_of_lookup sent
    exact ⟨.ticketBusy, by simp [shut, live, busy], .inl rfl⟩

/-- The outcome of `t` was sent, and its waiter has not collected it. -/
def Collecting (s : State) (t : Ticket) : Prop :=
  ∃ th ∈ s.threads, ∃ w, th.pc.role.waiter = some w ∧ w.ticket = t ∧
    (w.got.isSome = true ∨ (s.sh.chan w.chan).isSome = true)

theorem collecting_sent (books : Ledger.Books cfg.poolSize s.ledger) {t : Ticket}
    (collecting : s.Collecting t) : s.sh.pending.lookup t = some none := by
  obtain ⟨th, member, w, waits, rfl, outcome⟩ := collecting
  have found := waiter_member member waits
  cases got : w.got with
  | some res => exact (books.desk.got w res found got).1
  | none =>
    rcases books.desk.parked w found got with ⟨_, empty, _⟩ | sent
    · rw [got] at outcome
      rw [show s.sh.chan w.chan = none from empty] at outcome
      simp at outcome
    · exact sent.1

/-- No orphan waiter: an entry of `pending` with an empty channel is on a ticket still to be
delivered, and from the send to the collection nobody else gets at the ticket. -/
theorem no_orphan_waiter (reach : Reaches cfg Ledger.returnedOnly s) :
    (∀ t c, s.sh.pending.lookup t = some (some c) → s.sh.chan c = none →
      s.hist.delivered t = none ∧ t ∉ s.sh.abandoned ∧ t ∉ s.sh.completed.keys ∧
      s.sh.drainExited = false) ∧
    (∀ t, s.Collecting t → ∀ j ctx pc, s.threads[j]? = some ⟨ctx, pc⟩ → pc.claims = some t →
      s.mu = false → ∃ e, (e = .ticketBusy ∨ e.isClosed = true) ∧
        s.step cfg (.thread j .go) =
          some { s with threads := s.threads.set j ⟨ctx, .done (.err e)⟩ }) := by
  have books := reaches_books reach
  have life := returned_lifecycle reach
  refine ⟨?_, ?_⟩
  · intro t c entry _
    obtain ⟨_, undelivered, running⟩ := (life t).waiting c entry
    have waited : (s.ledger.slip t).pending ≠ none := by
      rw [show (s.ledger.slip t).pending = some (some c) from entry]
      simp
    obtain ⟨_, _, unstored, unkept⟩ := (life t).registered waited
    refine ⟨?_, unkept, unstored, (Bool.not_eq_true _).mp running⟩
    simpa [Ledger.slip, ledger] using undelivered
  · intro t collecting j ctx pc here claiming unlocked
    exact (sent_busy life (collecting_sent books collecting)).returns here claiming unlocked

theorem no_orphan_waiter_contested :
    ∃ e, (e = .ticketBusy ∨ e.isClosed = true) ∧
      (contested.get contested_runs).step ⟨2, 0⟩ (.thread 2 .go) =
        some { contested.get contested_runs with
          threads := (contested.get contested_runs).threads.set 2 ⟨false, .done (.err e)⟩ } := by
  refine (no_orphan_waiter contested_reaches).2 7 ?_ 2 false (.claim .waitBuffer 7) (by decide) rfl
    (by decide)
  exact ⟨⟨false, .got .wait 7 0 ⟨[1], none⟩⟩, by decide, _, rfl, rfl, .inl rfl⟩

/-- Ticket `t` is inside its own Submit call: Rust accepted it and the call has not returned. -/
def Submitting (s : State) (t : Ticket) : Prop :=
  0 < census (fun th => th.pc.role.window t) s.threads

/-- The refusal owed for a ticket that was never returned to anyone, or is spent. -/
def RefusesUnknown (s : State) (t : Ticket) : Prop :=
  s.Refuses t fun e => e = .unknownTicket ∨ e.isClosed = true

theorem refuses_unknown {t : Ticket} (unstored : t ∉ s.sh.completed.keys)
    (dead : t ∈ s.sh.semTickets → t ∈ s.sh.abandoned ∨ s.sh.drainExited = true) :
    s.RefusesUnknown t := by
  have absent : s.sh.completed.lookup t = none := GoMap.lookup_eq_none.mpr unstored
  unfold RefusesUnknown Refuses Shared.claimLocked
  simp only [absent]
  by_cases kept : t ∈ s.sh.abandoned
  · exact ⟨.unknownTicket, by simp [kept], .inl rfl⟩
  · by_cases shut : (s.sh.closed || s.sh.drainExited) = true
    · exact ⟨_, by simp [kept, shut], .inr (closedErr_isClosed s.sh)⟩
    · have outside : t ∉ s.sh.semTickets := by
        intro live
        rcases dead live with inBin | left
        · exact kept inBin
        · exact shut (by simp [left])
      exact ⟨.unknownTicket, by simp [kept, shut, outside], .inl rfl⟩

theorem submitting_iff (books : Ledger.Books cfg.poolSize s.ledger) (t : Ticket) :
    s.Submitting t ↔ t ∈ s.hist.accepted ∧ t ∉ s.hist.returned := by
  have total := books.permits.window t
  simp only [ledger, census_map] at total
  unfold Submitting
  by_cases accepted : t ∈ s.hist.accepted
  · rw [has_of_mem accepted] at total
    by_cases returned : t ∈ s.hist.returned
    · rw [has_of_mem returned] at total
      simp only [accepted, returned, not_true, and_false, iff_false]
      omega
    · rw [has_of_notMem returned] at total
      simp only [accepted, returned, not_false_eq_true, and_self, iff_true]
      omega
  · rw [has_of_notMem accepted] at total
    simp only [accepted, false_and, iff_false]
    omega

/-- In runs where nobody claims a ticket during its own Submit, a ticket that was not returned, or
is spent, is refused without effect, but for exactly that window: its result already stored, or its
entry already in `semTickets` with the reader running. -/
theorem unreturned_refused_iff (reach : Reaches cfg Ledger.settled s) (openNow : s.sh.closed = false)
    {t : Ticket} (foreign : t ∉ s.hist.returned ∨ t ∈ s.hist.spent) :
    (s.RefusesUnknown t ↔ ¬ (s.Submitting t ∧ (t ∈ s.sh.completed.keys ∨
      (t ∈ s.sh.semTickets ∧ s.sh.drainExited = false)))) ∧
    (s.RefusesUnknown t → ∀ j ctx pc, s.threads[j]? = some ⟨ctx, pc⟩ → pc.claims = some t →
      s.mu = false → ∃ e, (e = .unknownTicket ∨ e.isClosed = true) ∧
        s.step cfg (.thread j .go) =
          some { s with threads := s.threads.set j ⟨ctx, .done (.err e)⟩ }) := by
  have books := reaches_books reach
  have life := reaches_lifecycle reach
  refine ⟨⟨?_, ?_⟩, ?_⟩
  · rintro ⟨e, refused, answered⟩ ⟨submitting, stored | ⟨live, running⟩⟩
    · obtain ⟨res, present⟩ := Option.isSome_iff_exists.mp ((GoMap.mem_keys _ t).mp stored)
      simp [Shared.claimLocked, present] at refused
    · obtain ⟨_, unreturned⟩ := (submitting_iff books t).mp submitting
      have unstored : t ∉ s.sh.completed.keys := fun stored => ((life t).stored stored).1 live
      have unkept : t ∉ s.sh.abandoned := fun kept => unreturned ((life t).kept kept)
      have unwaited : t ∉ s.sh.pending.keys := by
        intro waited
        have waits : (s.ledger.slip t).pending ≠ none := fun absent =>
          GoMap.lookup_eq_none.mp absent waited
        exact unreturned ((life t).registered waits).1
      simp [Shared.claimLocked, GoMap.lookup_eq_none.mpr unstored, unkept, openNow, running, live,
        unwaited] at refused
  · intro outside
    rcases foreign with unreturned | spent
    · by_cases accepted : t ∈ s.hist.accepted
      · have submitting := (submitting_iff books t).mpr ⟨accepted, unreturned⟩
        simp only [submitting, true_and, not_or, not_and, Bool.not_eq_false] at outside
        exact refuses_unknown outside.1 fun live => .inr (outside.2 live)
      · apply refuses_unknown
        · intro stored
          have made := ((life t).stored stored).2.1
          exact accepted (books.reader.consumed (books.reader.delivered t made))
        · intro live
          exact absurd (books.permits.live_accepted live) accepted
    · obtain ⟨_, unstored, _, dead, _⟩ := (life t).spent spent
      exact refuses_unknown unstored dead
  · intro refuses j ctx pc here claiming unlocked
    exact refuses.returns here claiming unlocked

-- While ticket 7 is on its way into `semTickets`, somebody asks for ticket 9.
def mistaken : Option State :=
  follows ⟨2, 0⟩ Ledger.settled opened (submitUpTo 7 ++ ([.call (.wait .wait 9)] : List Act))

theorem mistaken_runs : mistaken.isSome = true := by decide

theorem unreturned_refused_mistaken :
    ∃ e, (e = .unknownTicket ∨ e.isClosed = true) ∧
      (mistaken.get mistaken_runs).step ⟨2, 0⟩ (.thread 1 .go) =
        some { mistaken.get mistaken_runs with
          threads := (mistaken.get mistaken_runs).threads.set 1 ⟨false, .done (.err e)⟩ } := by
  have reach : Reaches ⟨2, 0⟩ Ledger.settled (mistaken.get mistaken_runs) :=
    follows_reaches (.start rfl) (Option.some_get _).symm
  have refused := unreturned_refused_iff reach (by decide) (t := 9) (.inl (by decide))
  refine refused.2 (refused.1.mpr ?_) 1 false (.claim .wait 9) (by decide) rfl (by decide)
  rintro ⟨submitting, _⟩
  revert submitting
  unfold Submitting
  decide

-- The result of ticket 7 is stored before its Submit inserted it, and a guess at 7 comes in.
def guessed : Option State :=
  follows ⟨2, 0⟩ anyTicket opened
    (submitUpTo 7 ++
      ([.reader (.consume 7 (some [1])), .reader .go, .call (.wait .wait 7)] : List Act))

-- The guess runs first, then the Submit returns 7 and its owner waits.
def robbed : Option State :=
  guessed.bind fun s => follows ⟨2, 0⟩ anyTicket s
    (List.replicate 2 (Act.thread 1 .go) ++ List.replicate 3 (Act.thread 0 .go) ++
      ([.call (.wait .wait 7), .thread 2 .go] : List Act))

theorem guessed_runs : guessed.isSome = true := by decide

theorem robbed_runs : robbed.isSome = true := by decide

/-- A guess inside the window takes the owner's result; the owner then parks on a completion the
reader already delivered, with the permit still counted. -/
theorem guess_takes_result :
    (¬ ∀ s, Reaches ⟨2, 0⟩ anyTicket s → s.sh.closed = false → ∀ t,
      t ∉ s.hist.returned ∨ t ∈ s.hist.spent → s.RefusesUnknown t) ∧
    ∃ s, robbed = some s ∧
      s.threads = [⟨false, .done (.ticket 7)⟩, ⟨false, .done (.data [1])⟩,
        ⟨false, .await .wait 7 0⟩] ∧
      s.reader = .next ∧ (s.hist.delivered 7).isSome = true ∧ s.sh.chan 0 = none ∧
      s.sh.sem = 1 := by
  refine ⟨?_, robbed.get robbed_runs, by simp, by decide, by decide, by decide, by decide,
    by decide⟩
  intro refused
  have reach : Reaches ⟨2, 0⟩ anyTicket (guessed.get guessed_runs) :=
    follows_reaches (.start rfl) (Option.some_get _).symm
  obtain ⟨e, claimed, _⟩ := refused _ reach (by decide) 7 (.inl (by decide))
  have taken : ((guessed.get guessed_runs).sh.claimLocked 7).1 = .done ⟨[1], none⟩ 0 false := by
    decide
  rw [claimed] at taken
  cases taken

end State

end Gusset.Handle
