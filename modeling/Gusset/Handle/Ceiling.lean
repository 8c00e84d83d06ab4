import Gusset.Handle.Guarantees
import Gusset.Handle.Locks

/-! The ceiling on uncollected results: one token in `uncollectedCh`, any number of submitters
parked on it, and the ways in which a wake-up is passed on or lost. -/
namespace Gusset.Handle
open Foundation

def Visit.asks : Visit → Nat
  | .submit => 1
  | _ => 0

namespace Pc

/-- 1 for a submitter past the ceiling whose result may still be stored. -/
def asks (sh : Shared) : Pc → Nat
  | .enterClosed v | .tryRLock v | .enterPtr v | .inside v => v.asks
  | .ffiSubmit => 1
  | .insert t => if t ∈ sh.completed.keys then 0 else 1
  | _ => 0

-- Nobody parks by giving up a read lock.
def tidy : Pc → Bool
  | .unlock after => after ≠ .parked && after.tidy
  | _ => true

/-- The step of a submitter past the ceiling that ends in a refusal. -/
def fails (poisoned : Bool) : Pc → Choice → Bool
  | .ffiSubmit, .refuse _ => true
  | .inside .submit, .go => poisoned
  | _, _ => false

/-- The step that ends a live ticket with no signal: a waiter collects what it was sent. -/
def collects (sh : Shared) : Pc → Bool
  | .got _ t _ _ => t ∈ sh.semTickets
  | .race _ t c => (sh.chan c).isSome && decide (t ∈ sh.semTickets)
  | _ => false

end Pc

namespace State

variable {cfg : Config} {s s' : State} {i : Nat} {ctx : Bool} {pc pc' : Pc}

/-- What a caller's step means to those parked at the ceiling, on a handle that stays open: it
leaves a token; it parks with the results at the ceiling; it takes the token; or it neither parks
nor takes, and what it asks for and what is accepted falls only by a refusal or a collection. -/
def Toll (cfg : Config) (s s' : State) (pc pc' : Pc) (c : Choice) : Prop :=
  pc'.tidy = true ∧ (s'.sh.uncollected = true ∨
  (s'.sh.completed = s.sh.completed ∧
    ((pc = .ceiling ∧ pc' = .parked ∧ s'.sh = s.sh ∧
        cfg.maxUncollected ≤ s.sh.completed.len) ∨
      (pc = .parked ∧ pc' = .ceiling ∧ s'.sh.semTickets = s.sh.semTickets) ∨
      (pc' ≠ .parked ∧ s'.sh.uncollected = s.sh.uncollected ∧
        (pc = .ceiling → cfg.maxUncollected ≤ s.sh.completed.len + 1 ∧ pc'.asks s.sh = 1) ∧
        s.sh.semTickets.card ≤ s'.sh.semTickets.card + (if pc.collects s.sh then 1 else 0) ∧
        s.sh.semTickets.card + pc.asks s.sh ≤ s'.sh.semTickets.card + pc'.asks s.sh +
          (if pc.fails s.poisoned c then 1 else 0) + if pc.collects s.sh then 1 else 0))))

@[grind .] theorem refusal_asks (why : Refusal) (sh : Shared) :
    why.pc.asks sh = 0 ∧ why.pc ≠ .parked ∧ why.pc.tidy = true := by
  cases why <;> exact ⟨rfl, nofun, rfl⟩

@[grind .] theorem after_asks (after : After) (sh : Shared) :
    after.pc.asks sh = 0 ∧ after.pc ≠ .parked ∧ after.pc.tidy = true := by
  cases after <;> exact ⟨rfl, nofun, rfl⟩

@[grind =] theorem freeThen_asks (id : TakeId) (out : Outcome) (sh : Shared) :
    (freeThen id out).asks sh = 0 := by
  unfold freeThen
  split <;> rfl

@[grind .] theorem freeThen_tidy (id : TakeId) (out : Outcome) :
    freeThen id out ≠ .parked ∧ (freeThen id out).tidy = true := by
  unfold freeThen
  split <;> exact ⟨nofun, rfl⟩

@[grind →] theorem claim_signals {sh sh' : Shared} {t : Ticket} {res : CallResult} {id : TakeId}
    {owes : Bool} (claimed : sh.claimLocked t = (.done res id owes, sh')) :
    sh'.uncollected = true := by
  rw [(Ledger.claim_done claimed).2.2.2]

theorem submit_toll {c : Choice} (openNow : s.sh.closed = false) (running : s.sh.drainExited = false)
    (new : ∀ t, t ∉ s.hist.accepted → t ∉ s.sh.completed.keys)
    (carried : ∀ t, pc = .insert t → t ∉ s.sh.semTickets)
    (went : submitStep cfg s ctx pc c = some (s', pc')) : Toll cfg s s' pc pc' c := by
  unfold submitStep at went
  unfold Toll
  split at went <;> (try split at went) <;> (try split at went) <;>
    grind -ring -linarith [Visit.asks, Pc.asks, Pc.tidy, Pc.fails, Pc.collects, receiveSem,
      giveBack, Shared.insertLocked,
      Shared.notifyUncollectedLocked, Finset.card_insert_of_notMem, Finset.erase_insert]

theorem wait_toll {c : Choice} (went : waitStep cfg s ctx pc c = some (s', pc')) :
    Toll cfg s s' pc pc' c := by
  unfold waitStep at went
  unfold Toll
  split at went <;> (try split at went) <;> (try split at went) <;>
    grind -ring -linarith [Visit.asks, Pc.asks, Pc.tidy, Pc.fails, Pc.collects, receiveSem,
      giveBack, settle,
      Shared.claimLocked, Shared.collectLocked, Shared.registerLocked, Shared.waitChanLocked,
      Shared.detachLocked, Shared.abandonLocked, Shared.recycleWaitChanLocked,
      Shared.popTakeIDLocked, Shared.releaseSemLocked, Shared.receive,
      Shared.notifyUncollectedLocked, Finset.card_erase_add_one]

theorem cgo_toll {c : Choice} (openNow : s.sh.closed = false) (free : s.writer = .none)
    (ptr : s.ptr = true) (tidy : pc.tidy = true) (went : cgoStep s pc c = some (s', pc')) :
    Toll cfg s s' pc pc' c := by
  unfold cgoStep at went
  unfold Toll
  split at went <;> (try split at went) <;>
    grind -ring -linarith [Visit.asks, Pc.asks, Pc.tidy, Pc.fails, Pc.collects]

theorem closeCall_toll {c : Choice} (went : closeCallStep s pc c = some (s', pc')) :
    Toll cfg s s' pc pc' c := by
  unfold closeCallStep at went
  unfold Toll
  split at went <;> (try split at went) <;> (try split at went) <;>
    grind -ring -linarith [Pc.asks, Pc.tidy, Pc.fails, Pc.collects]

theorem thread_toll {c : Choice} (openNow : s.sh.closed = false) (running : s.sh.drainExited = false)
    (free : s.writer = .none) (ptr : s.ptr = true)
    (new : ∀ t, t ∉ s.hist.accepted → t ∉ s.sh.completed.keys)
    (carried : ∀ t, pc = .insert t → t ∉ s.sh.semTickets) (tidy : pc.tidy = true)
    (went : threadStep cfg s ctx pc c = some (s', pc')) : Toll cfg s s' pc pc' c := by
  simp only [threadStep, Option.or_eq_some_iff] at went
  rcases went with submit | ⟨_, wait | ⟨_, cgo | ⟨_, close⟩⟩⟩
  · exact submit_toll openNow running new carried submit
  · exact wait_toll wait
  · exact cgo_toll openNow free ptr tidy cgo
  · exact closeCall_toll close

-- Where the goroutine with this index stands.
def pcAt (s : State) (i : Nat) : Option Pc := s.threads[i]?.map Thread.pc

def asksAt (s : State) (i : Nat) : Nat :=
  match s.pcAt i with
  | some pc => pc.asks s.sh
  | none => 0

-- Some submitter is parked at the ceiling.
def parked (s : State) : Prop := ∃ th ∈ s.threads, th.pc = .parked

instance (s : State) : Decidable s.parked :=
  inferInstanceAs (Decidable (∃ th ∈ s.threads, th.pc = .parked))

theorem parked_iff : s.parked ↔ ∃ i, s.pcAt i = some .parked := by
  simp only [parked, pcAt, List.mem_iff_getElem?, Option.map_eq_some_iff]
  grind -ring -linarith

end State

/-- A handle beside those submitters that took the token and have not parked since. -/
structure Watched where
  state : State
  woken : Finset Nat

namespace Watched

def opened : Watched := ⟨.opened, ∅⟩

-- A submitter takes the token on its way from the select to the loop's test, and parks again there.
def note (before after : State) (woken : Finset Nat) : Act → Finset Nat
  | .thread i _ =>
    if before.pcAt i = some .parked ∧ after.pcAt i = some .ceiling then insert i woken
    else if after.pcAt i = some .parked then woken.erase i
    else woken
  | _ => woken

def step (cfg : Config) (w : Watched) (a : Act) : Option Watched :=
  (w.state.step cfg a).map fun s => ⟨s, note w.state s w.woken a⟩

/-- The results stored, the tickets accepted and the woken submitters that may bring one more. -/
def supply (w : Watched) : Nat :=
  w.state.sh.completed.len + w.state.sh.semTickets.card + ∑ i ∈ w.woken, w.state.asksAt i

-- A woken submitter has still to test the ceiling.
def tests (w : Watched) : Prop := ∃ i ∈ w.woken, w.state.pcAt i = some .ceiling

instance (w : Watched) : Decidable w.tests :=
  inferInstanceAs (Decidable (∃ i ∈ w.woken, w.state.pcAt i = some .ceiling))

/-- The steps that take away from the supply and signal nobody: a woken submitter is refused, a
waiter collects the result it was sent, or the result of an abandoned ticket is binned. -/
def lossy (w : Watched) : Act → Bool
  | .thread i c =>
    match w.state.pcAt i with
    | some pc => (decide (i ∈ w.woken) && pc.fails w.state.poisoned c) || pc.collects w.state.sh
    | none => false
  | .reader _ =>
    match w.state.reader with
    | .deliver t _ _ => decide (t ∈ w.state.sh.abandoned) && decide (t ∈ w.state.sh.semTickets)
    | _ => false
  | _ => false

/-- While a submitter is parked and there is no token, a lossy step is taken only where a woken
submitter has still to test the ceiling or the supply is above it. -/
def Spares (cfg : Config) (w : Watched) (a : Act) : Prop :=
  w.lossy a = true → w.state.parked → w.state.sh.uncollected = false →
    w.tests ∨ cfg.maxUncollected < w.supply

instance (cfg : Config) (w : Watched) (a : Act) : Decidable (w.Spares cfg a) :=
  inferInstanceAs (Decidable (_ → _))

/-- A submitter is parked although there is room, with no token, no submitter on its way from a
token to the end of its submitInput, and no accepted ticket left. -/
def Stranded (cfg : Config) (w : Watched) : Prop :=
  w.state.parked ∧ w.state.sh.completed.len < cfg.maxUncollected ∧
    w.state.sh.uncollected = false ∧ (∀ i ∈ w.woken, ∃ out, w.state.pcAt i = some (.done out)) ∧
    w.state.sh.semTickets = ∅

variable {cfg : Config} {w w' : Watched} {s s' : State} {i : Nat} {ctx : Bool} {pc pc' : Pc}
  {woken : Finset Nat} {t : Ticket}

/-- What keeps the parked submitters from being forgotten. -/
structure Kept (cfg : Config) (w : Watched) : Prop where
  tidy : ∀ i pc, w.state.pcAt i = some pc → pc.tidy = true
  enough : w.state.parked → w.state.sh.uncollected = false →
    w.tests ∨ cfg.maxUncollected ≤ w.supply

variable (woken) in
/-- One term of the sum changes. -/
theorem sum_moved {f g : Nat → Nat} (others : ∀ j, j ≠ i → g j = f j) :
    (i ∉ woken ∧ ∑ j ∈ woken, g j = ∑ j ∈ woken, f j) ∨
    (i ∈ woken ∧ ∑ j ∈ woken, g j + f i = ∑ j ∈ woken, f j + g i) := by
  by_cases member : i ∈ woken
  · right
    refine ⟨member, ?_⟩
    rw [← Finset.add_sum_erase woken f member, ← Finset.add_sum_erase woken g member]
    have rest : ∑ j ∈ woken.erase i, g j = ∑ j ∈ woken.erase i, f j :=
      Finset.sum_congr rfl fun j there => others j (Finset.ne_of_mem_erase there)
    omega
  · left
    refine ⟨member, Finset.sum_congr rfl fun j there => others j ?_⟩
    rintro rfl
    exact member there

theorem asks_congr {sh sh' : Shared} (same : sh'.completed = sh.completed) (pc : Pc) :
    pc.asks sh' = pc.asks sh := by
  cases pc <;> simp [Pc.asks, same]

theorem pcAt_set (here : s.threads[i]? = some ⟨ctx, pc⟩) (threads : s'.threads = s.threads) (j : Nat) :
    { s' with threads := s'.threads.set i ⟨ctx, pc'⟩ : State }.pcAt j =
      if j = i then some pc' else s.pcAt j := by
  have bound := (List.getElem?_eq_some_iff.mp here).1
  simp only [State.pcAt, threads]
  by_cases same : j = i
  · subst same
    simp [List.getElem?_set_self bound]
  · rw [if_neg same, List.getElem?_set_ne (Ne.symm same)]

theorem pcAt_here (here : s.threads[i]? = some ⟨ctx, pc⟩) : s.pcAt i = some pc := by
  simp [State.pcAt, here]

theorem note_takes {c : Choice} (before : s.pcAt i = some .parked)
    (after : s'.pcAt i = some .ceiling) :
    i ∈ note s s' woken (.thread i c) := by
  simp [note, before, after]

theorem note_keeps {c : Choice} (takes : ¬ (s.pcAt i = some .parked ∧ s'.pcAt i = some .ceiling))
    (moves : s'.pcAt i ≠ some .parked) : note s s' woken (.thread i c) = woken := by
  simp only [note, if_neg takes, if_neg moves]

/-- A step that loses nothing, or one the supply can spare. -/
theorem Kept.supplied (kept : Kept cfg ⟨s, woken⟩) {u : State} {a : Act}
    (spares : Spares cfg ⟨s, woken⟩ a) (parked : s.parked) (quiet : s.sh.uncollected = false)
    (tests : ∀ j ∈ woken, s.pcAt j = some .ceiling → tests ⟨u, woken⟩ ∨
      cfg.maxUncollected ≤ supply ⟨u, woken⟩)
    (falls : supply ⟨s, woken⟩ ≤ supply ⟨u, woken⟩ + if lossy ⟨s, woken⟩ a then 1 else 0) :
    Watched.tests ⟨u, woken⟩ ∨ cfg.maxUncollected ≤ supply ⟨u, woken⟩ := by
  by_cases loses : lossy ⟨s, woken⟩ a = true
  · rw [if_pos loses] at falls
    rcases spares loses parked quiet with ⟨j, member, there⟩ | above
    · exact tests j member there
    · right
      omega
  · rw [if_neg loses] at falls
    rcases kept.enough parked quiet with ⟨j, member, there⟩ | enough
    · exact tests j member there
    · right
      omega

theorem fails_collects {poisoned : Bool} {sh : Shared} {c : Choice}
    (fails : pc.fails poisoned c = true) :
    pc.collects sh = false := by
  cases pc <;> simp_all [Pc.fails, Pc.collects]

theorem Kept.thread (kept : Kept cfg ⟨s, woken⟩) {c : Choice} {u : State} (sh : u.sh = s'.sh)
    (at_ : ∀ j, u.pcAt j = if j = i then some pc' else s.pcAt j) (mine : s.pcAt i = some pc)
    (toll : State.Toll cfg s s' pc pc' c) (spares : Spares cfg ⟨s, woken⟩ (.thread i c)) :
    Kept cfg ⟨u, note s u woken (.thread i c)⟩ := by
  obtain ⟨tidy, toll⟩ := toll
  have here : u.pcAt i = some pc' := by simp [at_]
  have others : ∀ j, j ≠ i → u.pcAt j = s.pcAt j := fun j other => by rw [at_, if_neg other]
  constructor
  · intro j q there
    by_cases same : j = i
    · subst same
      cases here.symm.trans there
      exact tidy
    · exact kept.tidy j q ((others j same).symm.trans there)
  intro parked quiet
  simp only [sh] at quiet
  rcases toll with signal | ⟨completed, ⟨rfl, rfl, same, full⟩ | ⟨rfl, rfl, _⟩ | rest⟩
  · rw [signal] at quiet
    cases quiet
  · right
    simp only [supply, sh, same]
    omega
  · exact .inl ⟨i, note_takes (c := c) mine here, here⟩
  obtain ⟨moves, uncollected, tests, tickets, total⟩ := rest
  by_cases takes : s.pcAt i = some .parked ∧ u.pcAt i = some .ceiling
  · exact .inl ⟨i, note_takes (c := c) takes.1 takes.2, takes.2⟩
  rw [note_keeps takes (by rw [here]; simpa using moves)]
  have before : s.parked := by
    obtain ⟨j, there⟩ := State.parked_iff.mp parked
    have other : j ≠ i := by
      rintro rfl
      exact moves (Option.some.inj (here.symm.trans there))
    exact State.parked_iff.mpr ⟨j, (others j other).symm.trans there⟩
  have mineAsks : s.asksAt i = pc.asks s.sh := by simp [State.asksAt, mine]
  have hereAsks : u.asksAt i = pc'.asks s.sh := by
    simp only [State.asksAt, here, sh]
    exact asks_congr completed pc'
  have moved := sum_moved woken (i := i) (f := s.asksAt) (g := u.asksAt) (by
    intro j other
    simp only [State.asksAt, others j other, sh]
    split
    · exact asks_congr completed _
    · rfl)
  apply kept.supplied spares before (uncollected ▸ quiet)
  · intro j member there
    by_cases same : j = i
    · subst same
      cases mine.symm.trans there
      right
      have one : u.asksAt j ≤ ∑ k ∈ woken, u.asksAt k :=
        Finset.single_le_sum (fun _ _ => Nat.zero_le _) member
      obtain ⟨room, asks⟩ := tests rfl
      simp only [supply, sh, completed]
      omega
    · exact .inl ⟨j, member, (others j same).trans there⟩
  · have both : pc.fails s.poisoned c = true → pc.collects s.sh = false := fails_collects
    simp only [supply, sh, completed, lossy, mine]
    grind -ring -linarith

/-- A sum over some indices of a list is within the census of the list. -/
theorem sum_le_census {α : Type} (f : α → Nat) (l : List α) (ids : Finset Nat) :
    ∑ i ∈ ids, (l[i]?.map f).getD 0 ≤ census f l := by
  have all : census f l = ∑ i ∈ Finset.range l.length, (l[i]?.map f).getD 0 := by
    induction l using List.reverseRecOn with
    | nil => rfl
    | append_singleton l a ih =>
      rw [census_concat, ih, List.length_append, List.length_singleton, Finset.sum_range_succ]
      congr 1
      · apply Finset.sum_congr rfl
        intro i inside
        rw [List.getElem?_append_left (Finset.mem_range.mp inside)]
      · simp
  rw [all]
  apply Finset.sum_le_sum_of_ne_zero
  intro i _ some_
  rw [Finset.mem_range]
  by_contra outside
  rw [List.getElem?_eq_none (Nat.le_of_not_lt outside)] at some_
  exact some_ rfl

/-- A step of the reader that does not stop it: it stores a result, or it changes at most the
accepted tickets, which only the bin takes away from. -/
theorem reader_toll {rd rd' : ReaderPc} {c : ReadChoice}
    (went : State.readerStep s rd c = some (s', rd')) (running : s'.sh.drainExited = false) :
    s'.sh.uncollected = s.sh.uncollected ∧
    ((s'.sh.completed = s.sh.completed ∧ (s'.sh.semTickets = s.sh.semTickets ∨
        ∃ t res id, rd = .deliver t res id ∧ t ∈ s.sh.abandoned ∧
          s'.sh.semTickets = s.sh.semTickets.erase t)) ∨
      ∃ t res id, rd = .deliver t res id ∧ s'.sh.completed = s.sh.completed.insert t res ∧
        s'.sh.semTickets = s.sh.semTickets.erase t) := by
  unfold State.readerStep at went
  split at went <;> (try split at went) <;>
    grind -ring -linarith [State.receiveSem, State.giveBack, Shared.deliver, Shared.noteTake,
      Shared.stopReading]

theorem stored_accepted {cap : Nat} (books : Ledger.Books cap s.ledger) {t : Ticket}
    (stored : t ∈ s.sh.completed.keys) : t ∈ s.hist.accepted := by
  obtain ⟨res, found⟩ := Option.isSome_iff_exists.mp ((GoMap.mem_keys _ _).mp stored)
  have delivered := (books.desk.stored t res found).1
  exact books.reader.consumed (books.reader.delivered t (by
    simp only [Ledger.desk] at delivered
    simp [delivered]))

theorem carried_live (books : Ledger.Books cfg.poolSize s.ledger)
    (here : s.pcAt i = some (.insert t)) :
    t ∉ s.sh.semTickets := by
  obtain ⟨th, there, pc⟩ := Option.map_eq_some_iff.mp here
  have mine := le_census (fun th : Thread => th.pc.role.carries t) there
  have total := State.books_located books t
  have one : has s.hist.accepted t ≤ 1 := by unfold has; split <;> omega
  rw [pc] at mine
  simp only [Pc.role, Role.carries, if_true, State.carriers] at mine total
  intro live
  rw [has_of_mem live] at total
  omega

variable (woken) in
/-- The submitters that carry a ticket to its insert are no more than its permits. -/
theorem sum_carriers (books : Ledger.Books cfg.poolSize s.ledger) (t : Ticket) :
    ∑ j ∈ woken, (if s.pcAt j = some (.insert t) then 1 else 0) + has s.sh.semTickets t ≤ 1 := by
  have total := State.books_located books t
  have one : has s.hist.accepted t ≤ 1 := by unfold has; split <;> omega
  have within := sum_le_census (fun th : Thread => th.pc.role.carries t) s.threads woken
  have below : ∑ j ∈ woken, (if s.pcAt j = some (.insert t) then 1 else 0) ≤
      ∑ j ∈ woken, (s.threads[j]?.map fun th => th.pc.role.carries t).getD 0 := by
    apply Finset.sum_le_sum
    intro j _
    split
    · rename_i here
      obtain ⟨th, there, pc⟩ := Option.map_eq_some_iff.mp here
      simp [there, pc, Pc.role, Role.carries]
    · exact Nat.zero_le _
  unfold State.carriers at total
  omega

theorem Kept.reader (kept : Kept cfg ⟨s, woken⟩) (books : Ledger.Books cfg.poolSize s.ledger)
    {rd' : ReaderPc} {c : ReadChoice} (went : State.readerStep s s.reader c = some (s', rd'))
    (threads : s'.threads = s.threads) (running : s'.sh.drainExited = false)
    (spares : Spares cfg ⟨s, woken⟩ (.reader c)) :
    Kept cfg ⟨{ s' with reader := rd' }, woken⟩ := by
  have at_ : ∀ j, { s' with reader := rd' : State }.pcAt j = s.pcAt j := by
    intro j
    simp only [State.pcAt, threads]
  obtain ⟨uncollected, change⟩ := reader_toll went running
  constructor
  · intro j pc there
    exact kept.tidy j pc ((at_ j).symm.trans there)
  intro parked quiet
  have before : s.parked := by
    obtain ⟨j, there⟩ := State.parked_iff.mp parked
    exact State.parked_iff.mpr ⟨j, (at_ j).symm.trans there⟩
  apply kept.supplied spares before (uncollected ▸ quiet)
  · intro j member there
    exact .inl ⟨j, member, (at_ j).trans there⟩
  rcases change with ⟨completed, tickets⟩ | ⟨t, res, id, here, completed, tickets⟩
  · have asks : ∀ j, { s' with reader := rd' : State }.asksAt j = s.asksAt j := by
      intro j
      simp only [State.asksAt, at_]
      split
      · exact asks_congr completed _
      · rfl
    have sums : ∑ j ∈ woken, { s' with reader := rd' : State }.asksAt j = ∑ j ∈ woken, s.asksAt j :=
      Finset.sum_congr rfl fun j _ => asks j
    simp only [supply, completed, sums, lossy]
    rcases tickets with same | ⟨t, res, id, here, kept, same⟩
    · rw [same]
      omega
    · simp only [here, kept, same]
      by_cases live : t ∈ s.sh.semTickets
      · have one := Finset.card_erase_add_one live
        simp only [live, decide_true, Bool.and_true, if_true]
        omega
      · rw [Finset.erase_eq_of_notMem live]
        omega
  · have new : t ∉ s.sh.completed.keys := by
      intro stored
      obtain ⟨res', found⟩ := Option.isSome_iff_exists.mp ((GoMap.mem_keys _ _).mp stored)
      have delivered := (books.desk.stored t res' found).1
      have none := (books.reader.hand t (by simp [State.ledger, here, ReaderPc.role])).1
      simp only [Ledger.desk] at delivered
      rw [none] at delivered
      cases delivered
    have more : s'.sh.completed.len = s.sh.completed.len + 1 := by
      simp [GoMap.len, completed, Finset.card_insert_of_notMem new]
    have falls : ∑ j ∈ woken, s.asksAt j ≤
        ∑ j ∈ woken, { s' with reader := rd' : State }.asksAt j +
          ∑ j ∈ woken, (if s.pcAt j = some (.insert t) then 1 else 0) := by
      rw [← Finset.sum_add_distrib]
      apply Finset.sum_le_sum
      intro j _
      simp only [State.asksAt, at_]
      split
      · rename_i pc there
        rw [there]
        cases pc <;> simp [Pc.asks, completed]
        grind -ring -linarith
      · exact Nat.zero_le _
    have carriers := sum_carriers woken books t
    simp only [supply, more]
    by_cases live : t ∈ s.sh.semTickets
    · have one := Finset.card_erase_add_one live
      rw [has_of_mem live] at carriers
      rw [tickets]
      omega
    · rw [tickets, Finset.erase_eq_of_notMem live]
      omega

/-- A step that at most adds a goroutine that begins its call. -/
theorem Kept.calm (kept : Kept cfg ⟨s, woken⟩) {u : State} (sh : u.sh = s.sh)
    (at_ : ∀ j, u.pcAt j = s.pcAt j ∨ (s.pcAt j = none ∧ ∃ pc, u.pcAt j = some pc ∧
      pc.tidy = true ∧ pc ≠ .parked ∧ pc.asks s.sh = 0)) : Kept cfg ⟨u, woken⟩ := by
  have asks : ∀ j, u.asksAt j = s.asksAt j := by
    intro j
    rcases at_ j with same | ⟨none, pc, new, _, _, zero⟩
    · simp only [State.asksAt, same, sh]
    · simp only [State.asksAt, none, new, sh, zero]
  have sums : ∑ j ∈ woken, u.asksAt j = ∑ j ∈ woken, s.asksAt j :=
    Finset.sum_congr rfl fun j _ => asks j
  constructor
  · intro j pc there
    rcases at_ j with same | ⟨_, pc', new, tidy, _⟩
    · exact kept.tidy j pc (same.symm.trans there)
    · cases new.symm.trans there
      exact tidy
  · intro parked quiet
    have before : s.parked := by
      obtain ⟨j, there⟩ := State.parked_iff.mp parked
      rcases at_ j with same | ⟨_, pc', new, _, moves, _⟩
      · exact State.parked_iff.mpr ⟨j, same.symm.trans there⟩
      · exact absurd (Option.some.inj (new.symm.trans there)) moves
    rcases kept.enough before (sh ▸ quiet) with ⟨j, member, there⟩ | enough
    · left
      refine ⟨j, member, ?_⟩
      rcases at_ j with same | ⟨none, _⟩
      · exact same.trans there
      · exact absurd (none.symm.trans there) nofun
    · right
      simp only [supply, sh, sums]
      exact enough

/-- A step within the condition keeps them, on a handle that is still open and read. -/
theorem Kept.step (books : Ledger.Books cfg.poolSize w.state.ledger) (gates : w.state.Gates)
    (locks : w.state.Locks) {a : Act} (went : w.step cfg a = some w') (spares : w.Spares cfg a)
    (openNow : w'.state.sh.closed = false) (running : w'.state.sh.drainExited = false)
    (kept : Kept cfg w) : Kept cfg w' := by
  obtain ⟨s, woken⟩ := w
  simp only [step, Option.map_eq_some_iff] at went
  obtain ⟨u, went, rfl⟩ := went
  simp only at openNow running books gates locks
  have flags := State.step_flags went
  have wasOpen : s.sh.closed = false := by
    by_contra shut
    rw [flags.1 (by simpa using shut)] at openNow
    cases openNow
  have exited : s.sh.drainExited = false := by
    by_contra gone
    rw [flags.2 (by simpa using gone)] at running
    cases running
  have idle : s.closer = .idle := by
    by_contra busy
    rw [gates.shut.mpr busy] at wasOpen
    cases wasOpen
  cases a with
  | call c =>
    cases went
    refine kept.calm rfl ?_
    intro j
    by_cases last : j = s.threads.length
    · right
      subst last
      refine ⟨by simp [State.pcAt], c.pc, by simp [State.pcAt], ?_⟩
      cases c <;> exact ⟨rfl, nofun, rfl⟩
    · left
      simp only [State.pcAt]
      congr 1
      grind -ring -linarith
  | expire i =>
    simp only [State.step, Option.map_eq_some_iff] at went
    obtain ⟨th, here, rfl⟩ := went
    refine kept.calm rfl ?_
    intro j
    left
    simp only [State.pcAt]
    grind -ring -linarith
  | thread i c =>
    simp only [State.step, Option.bind_eq_some_iff, Option.map_eq_some_iff] at went
    obtain ⟨⟨ctx, pc⟩, here, ⟨s', pc'⟩, went, rfl⟩ := went
    have mine := pcAt_here here
    have writer : s.writer = .none := by rw [locks.writer, idle]; rfl
    have ptr : s.ptr = true := by rw [locks.ptr, idle]; rfl
    have toll := State.thread_toll wasOpen exited writer ptr
      (fun t new stored => new (stored_accepted books stored))
      (fun t carries => carried_live books (carries ▸ mine)) (kept.tidy i pc mine) went
    exact kept.thread rfl (pcAt_set here (State.thread_turns went).threads) mine toll spares
  | reader c =>
    simp only [State.step, Option.map_eq_some_iff] at went
    obtain ⟨⟨s', rd'⟩, went, rfl⟩ := went
    exact kept.reader books went (State.reader_turns went).threads running spares
  | closer c =>
    simp only [State.step, idle, Option.map_eq_some_iff] at went
    obtain ⟨r, went, rfl⟩ := went
    cases went

/-- The steps of a handle, whatever tickets its callers ask for. -/
def Step (cfg : Config) (w w' : Watched) : Prop := ∃ a, w.step cfg a = some w'

/-- Those within the condition. -/
def SparingStep (cfg : Config) (w w' : Watched) : Prop :=
  ∃ a, w.step cfg a = some w' ∧ w.Spares cfg a

theorem reaches_state (reach : Reachable (· = opened) (SparingStep cfg) w) :
    State.Reaches cfg anyTicket w.state := by
  obtain ⟨start, rfl, run⟩ := reach
  induction run with
  | refl => exact .start rfl
  | tail _ step ih =>
    obtain ⟨a, went, _⟩ := step
    obtain ⟨s, moved, rfl⟩ := Option.map_eq_some_iff.mp went
    exact ih.next ⟨a, moved, fun _ _ => trivial⟩

theorem reaches_kept (reach : Reachable (· = opened) (SparingStep cfg) w)
    (openNow : w.state.sh.closed = false) (running : w.state.sh.drainExited = false) :
    Kept cfg w := by
  revert openNow running
  apply reach.induction
  · rintro _ rfl _ _
    constructor
    · intro i pc there
      simp [opened, State.opened, State.pcAt] at there
    · intro parked
      simp [opened, State.opened, State.parked] at parked
  · rintro w w' before ih ⟨a, went, spares⟩ openNow running
    obtain ⟨s, moved, rfl⟩ := Option.map_eq_some_iff.mp (id went)
    have reached := reaches_state before
    have flags := State.step_flags moved
    refine Kept.step (State.reaches_books reached) (State.reaches_gates reached)
      (State.reaches_locks reached) went spares openNow running (ih ?_ ?_)
    · by_contra shut
      rw [flags.1 (by simpa using shut)] at openNow
      cases openNow
    · by_contra gone
      rw [flags.2 (by simpa using gone)] at running
      cases running

/-- No wake-up is lost at the ceiling, in the runs whose steps are all within the condition. -/
theorem none_forgotten (reach : Reachable (· = opened) (SparingStep cfg) w)
    (openNow : w.state.sh.closed = false) (running : w.state.sh.drainExited = false) :
    ¬ w.Stranded cfg := by
  rintro ⟨parked, room, quiet, finished, none⟩
  rcases (reaches_kept reach openNow running).enough parked quiet with ⟨i, member, tests⟩ | enough
  · obtain ⟨out, done⟩ := finished i member
    cases tests.symm.trans done
  · have idle : ∑ i ∈ w.woken, w.state.asksAt i = 0 := by
      apply Finset.sum_eq_zero
      intro i member
      obtain ⟨out, done⟩ := finished i member
      simp [State.asksAt, done, Pc.asks]
    simp only [supply, idle, none, Finset.card_empty] at enough
    omega

-- A step if it is within the condition.
def sparing (cfg : Config) (w : Watched) (a : Act) : Option Watched :=
  if w.Spares cfg a then w.step cfg a else none

end Watched

/-- One result is stored, with a ceiling of one and two more submitters parked; a Wait collects it,
and the token wakes the first of the two, which stands before `ffi.Submit`. -/
def wakeOne : List Act :=
  ([.call (.submit (.bytes 0))] : List Act) ++ List.replicate 14 (Act.thread 0 .go) ++
  ([.thread 0 (.ticket 7), .thread 0 .go, .thread 0 .go, .thread 0 .go,
    .reader (.consume 7 (some [])), .reader .go, .reader .go,
    .call (.submit (.bytes 0)), .call (.submit (.bytes 0)), .call (.wait .wait 7)] : List Act) ++
  List.replicate 10 (Act.thread 1 .go) ++ List.replicate 10 (Act.thread 2 .go) ++
  ([.thread 3 .go] : List Act) ++ List.replicate 6 (Act.thread 1 .go)

/-- The woken submitter's job is accepted. -/
def relayed : Option Watched :=
  follow (Watched.sparing ⟨3, 1⟩) .opened
    (wakeOne ++ ([.thread 1 (.ticket 8), .thread 1 .go] : List Act))

theorem relayed_runs : relayed.isSome = true := by decide +kernel

theorem none_forgotten_relayed :
    (relayed.get relayed_runs).state.parked ∧
    (relayed.get relayed_runs).state.sh.semTickets = {8} ∧
    ¬ (relayed.get relayed_runs).Stranded ⟨3, 1⟩ := by
  have reach : Reachable (· = Watched.opened) (Watched.SparingStep ⟨3, 1⟩)
      (relayed.get relayed_runs) := by
    refine Reachable.follow ?_ (.start rfl) (Option.some_get _).symm
    intro w a w' went
    obtain ⟨spares, moved⟩ := Option.ite_none_right_eq_some.mp went
    exact ⟨a, moved, spares⟩
  exact ⟨by decide +kernel, by decide +kernel,
    Watched.none_forgotten reach (by decide +kernel) (by decide +kernel)⟩

/-- The woken submitter is refused by Rust and returns. -/
def dropped : Option Watched :=
  follow (Watched.step ⟨3, 1⟩) .opened
    (wakeOne ++ ([.thread 1 (.refuse (.engine 0)), .thread 1 .go, .thread 1 .go] : List Act))

theorem dropped_runs : dropped.isSome = true := by decide +kernel

/-- The second one stays parked, with no result stored and nobody left to signal. -/
theorem wakeup_lost :
    ∃ w, Reachable (· = Watched.opened) (Watched.Step ⟨3, 1⟩) w ∧ w.state.sh.closed = false ∧
      w.state.sh.drainExited = false ∧ w.Stranded ⟨3, 1⟩ := by
  refine ⟨dropped.get dropped_runs, ?_, by decide +kernel, by decide +kernel, ?_⟩
  · exact Reachable.follow (fun _ a _ went => ⟨a, went⟩) (.start rfl) (Option.some_get _).symm
  · refine ⟨by decide +kernel, by decide +kernel, by decide +kernel, ?_, by decide +kernel⟩
    have one : (dropped.get dropped_runs).woken = {1} := by decide +kernel
    intro i member
    rw [one, Finset.mem_singleton] at member
    subst member
    exact ⟨.err (.engine 0), by decide +kernel⟩

end Gusset.Handle
