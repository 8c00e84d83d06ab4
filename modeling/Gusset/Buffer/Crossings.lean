import Gusset.Buffer.Runs

/-! Who may be inside Rust, and when: behind a read lock of `cgoMu`, or Close alone, before
HandleClose. -/
namespace Gusset.Buffer
open Foundation
open Handle (Ticket TakeId Bytes Err anyTicket)

-- Past `enterCgo`.
def callerInside : Handle.Pc → Bool
  | .inside _ | .ffiSubmit | .insert _ => true
  | .unlock after => callerInside after
  | _ => false

def readerInside : Handle.ReaderPc → Bool
  | .inside _ | .take _ | .takeLatch _ => true
  | .unlock after => readerInside after
  | _ => false

def Pc.isInside : Pc → Bool
  | .inside _ | .bufAlloc _ _ => true
  | .unlock after => after.isInside
  | _ => false

-- HandleClose has been called.
def handleClosed : Handle.ClosePc → Bool
  | .clearPtr | .unlock | .join | .final | .drain | .recv _ | .finish | .done => true
  | _ => false

variable {cfg : Config} {s s' : State} {b b' : Handle.State} {i : Nat} {pc pc' : Pc}

@[grind =] theorem freeThen_inside (id : TakeId) (out : Handle.Outcome) :
    callerInside (Handle.freeThen id out) = false := by
  unfold Handle.freeThen
  split <;> rfl

@[grind =] theorem failed_inside (v : Handle.Visit) : callerInside v.failed = false := by
  cases v with
  | view op data id => cases op <;> grind -ring -linarith [Handle.Visit.failed, callerInside]
  | _ => rfl

@[grind =] theorem after_inside (after : Handle.After) : callerInside after.pc = false := by
  cases after <;> rfl

@[grind =] theorem refusal_inside (why : Handle.Refusal) : callerInside why.pc = false := by
  cases why <;> rfl

@[grind =] theorem readerFailed_inside (v : Handle.ReaderVisit) :
    readerInside v.failed = false := by
  cases v with
  | binFree id t held => cases held <;> rfl
  | _ => rfl

@[grind =] theorem visitFailed_inside (v : Visit) : v.failed.isInside = false := by
  cases v <;> rfl

@[grind =] theorem visitFailed_locks (v : Visit) : v.failed.locks = 0 := by
  cases v <;> rfl

/-- Nobody gets inside a handle that Close has begun on. -/
theorem caller_enters {cfg : Handle.Config} {ctx : Bool} {pc pc' : Handle.Pc} {c : Handle.Choice}
    (went : Handle.State.threadStep cfg b ctx pc c = some (b', pc'))
    (inside : callerInside pc' = true) : callerInside pc = true ∨ b.sh.closed = false := by
  simp only [Handle.State.threadStep, Option.or_eq_some_iff] at went
  rcases went with submit | ⟨_, wait | ⟨_, cgo | ⟨_, close⟩⟩⟩
  · unfold Handle.State.submitStep at submit
    split at submit <;> (try split at submit) <;> (try split at submit) <;>
      grind -ring -linarith [callerInside, Handle.State.receiveSem]
  · unfold Handle.State.waitStep at wait
    split at wait <;> (try split at wait) <;> (try split at wait) <;>
      grind -ring -linarith [callerInside, Handle.State.receiveSem, Handle.State.settle]
  · unfold Handle.State.cgoStep at cgo
    split at cgo <;> grind -ring -linarith [callerInside]
  · unfold Handle.State.closeCallStep at close
    split at close <;> grind -ring -linarith [callerInside]

theorem reader_enters {rd rd' : Handle.ReaderPc} {c : Handle.ReadChoice}
    (went : Handle.State.readerStep b rd c = some (b', rd')) (inside : readerInside rd' = true) :
    readerInside rd = true ∨ b.sh.closed = false := by
  unfold Handle.State.readerStep at went
  split at went <;> (try split at went) <;>
    grind -ring -linarith [readerInside, Handle.State.receiveSem, Handle.ReaderPc.afterBin]

/-- What a call on a `*Buffer` can do to the locks. -/
structure Enters (s s' : State) (pc pc' : Pc) : Prop where
  users : s'.users = s.users
  writer : s'.base.writer = s.base.writer
  closer : s'.base.closer = s.base.closer
  threads : s'.base.threads = s.base.threads
  reader : s'.base.reader = s.base.reader
  inside : pc'.isInside = true → pc.isInside = true ∨ s.base.sh.closed = false
  locks : pc'.locks ≤ pc.locks ∨ s.base.writer = .none

theorem Moves.enters (moves : Moves cfg s pc s' pc') : Enters s s' pc pc' := by
  have base {s' : State} (base : s'.base = s.base) (users : s'.users = s.users)
      (inside : pc'.isInside = true → pc.isInside = true ∨ s.base.sh.closed = false)
      (locks : pc'.locks ≤ pc.locks ∨ s.base.writer = .none) : Enters s s' pc pc' := by
    constructor
    · exact users
    all_goals first | rw [base] | assumption
  cases moves with
  | allocated | freed =>
    exact base (cross_base _) (cross_users _) (fun _ => .inl rfl) (.inl (Nat.le_refl _))
  | latch => exact ⟨rfl, rfl, rfl, rfl, rfl, (fun no => by cases no), .inl (Nat.le_refl _)⟩
  | refused next =>
    rcases next with rfl | rfl
    · exact base rfl rfl (fun no => by cases no) (.inl (Nat.le_refl _))
    · exact base rfl rfl (fun no => by cases no) (.inl (Nat.le_refl _))
  | claim here mine next =>
    rcases next with rfl | rfl
    · exact base rfl rfl (fun no => by cases no) (.inl (Nat.le_refl _))
    · exact base rfl rfl (fun no => by cases no) (.inl (Nat.le_refl _))
  | shut | busy =>
    refine base rfl rfl ?_ (.inl ?_)
    · rw [visitFailed_inside]
      exact fun no => by cases no
    · rw [visitFailed_locks]
      exact Nat.zero_le _
  | cleared =>
    refine base rfl rfl ?_ (.inl ?_)
    · simp only [Pc.isInside, visitFailed_inside]
      exact fun no => by cases no
    · simp only [Pc.locks, visitFailed_locks]
      exact Nat.le_refl _
  | lock free => exact base rfl rfl (fun no => by cases no) (.inr free)
  | inside isOpen => exact base rfl rfl (fun _ => .inr isOpen) (.inl (Nat.le_refl _))
  | ask | refuse | tooLate | view =>
    exact base rfl rfl (fun _ => .inl rfl) (.inl (Nat.le_refl _))
  | unlock => exact base rfl rfl .inl (.inl (Nat.le_add_left _ _))
  | _ => exact base rfl rfl (fun no => by cases no) (.inl (Nat.le_refl _))

structure Apart (s : State) : Prop where
  callers : s.base.closer.locked = true → ∀ th ∈ s.base.threads, callerInside th.pc = false
  reader : s.base.closer.locked = true → readerInside s.base.reader = false
  users : s.base.closer.locked = true → ∀ pc ∈ s.users, pc.isInside = false
  alone : s.base.writer = .holding → ∀ pc ∈ s.users, pc.locks = 0

theorem caller_locks {pc : Handle.Pc} (inside : callerInside pc = true) : 0 < pc.locks := by
  cases pc with
  | inside v | ffiSubmit | insert t => exact Nat.one_pos
  | unlock after => simp [Handle.Pc.locks]
  | _ => cases inside

theorem reader_locks {rd : Handle.ReaderPc} (inside : readerInside rd = true) : 0 < rd.locks := by
  cases rd with
  | inside v | take t | takeLatch t => exact Nat.one_pos
  | unlock after => simp [Handle.ReaderPc.locks]
  | _ => cases inside

theorem user_locks (inside : pc.isInside = true) : 0 < pc.locks := by
  cases pc with
  | inside v | bufAlloc n charge => exact Nat.one_pos
  | unlock after => simp [Pc.locks]
  | _ => cases inside

-- What Close does to its own lock.
theorem closer_locks {cl cl' : Handle.ClosePc} {c : Handle.CloseChoice}
    (went : Handle.State.closeStep b cl c = some (b', cl')) :
    b'.threads = b.threads ∧ b'.reader = b.reader ∧
    (cl'.locked = true → cl.locked = true ∨ (cl = .locking ∧ c = .go ∧ b.readers = 0)) ∧
    (b'.writer = .holding → b.writer = .holding ∨ (cl = .locking ∧ c = .go)) := by
  unfold Handle.State.closeStep at went
  split at went <;> grind -ring -linarith
    [Handle.ClosePc.locked, Handle.State.receiveSem, Handle.State.giveBack]

theorem unlocked_of_open (gates : b.Gates) (openNow : b.sh.closed = false) :
    b.closer.locked = false := by
  by_contra locked
  have shut := gates.shut.mpr (by
    intro idle
    rw [idle] at locked
    exact locked rfl)
  rw [shut] at openNow
  cases openNow

theorem Apart.thread (apart : Apart s) (gates : s.base.Gates) {ctx : Bool} {pc pc' : Handle.Pc}
    {c : Handle.Choice} (here : s.base.threads[i]? = some ⟨ctx, pc⟩)
    (went : Handle.State.threadStep cfg.handle s.base ctx pc c = some (b', pc'))
    (base : s'.base = { b' with threads := b'.threads.set i ⟨ctx, pc'⟩ })
    (users : s'.users = s.users) : Apart s' := by
  have turns := Handle.State.thread_turns went
  have passes := Handle.State.thread_passes went
  have locked : s'.base.closer.locked = true → s.base.closer.locked = true := by
    intro locked
    rcases turns.closer with same | ⟨_, new⟩
    · simpa [base, same] using locked
    · simp only [base, new] at locked
      cases locked
  constructor
  · intro now th member
    simp only [base, turns.threads] at member
    rcases mem_set_cases member with rfl | ⟨j, _, old⟩
    · by_contra inside
      rcases caller_enters went (by simpa using inside) with before | openNow
      · rw [apart.callers (locked now) _ (List.mem_of_getElem? here)] at before
        cases before
      · rw [unlocked_of_open gates openNow] at locked
        cases locked now
    · exact apart.callers (locked now) th (List.mem_of_getElem? old)
  · intro now
    simpa [base, passes.reader] using apart.reader (locked now)
  · intro now pc member
    exact apart.users (locked now) pc (users ▸ member)
  · intro holding pc member
    simp only [base, turns.writer] at holding
    exact apart.alone holding pc (users ▸ member)

theorem Apart.base (apart : Apart s) (gates : s.base.Gates) {a : Handle.Act}
    (fits : s.fits a = true) (went : s.base.step cfg.handle a = some b')
    (base : s'.base = b') (users : s'.users = s.users) : Apart s' := by
  subst base
  cases a with
  | call c =>
    simp only [Handle.State.step, Option.some.injEq] at went
    have outside : callerInside c.pc = false := by cases c <;> rfl
    constructor
    · intro locked th member
      rw [← went] at locked member
      rcases List.mem_append.mp member with old | new
      · exact apart.callers locked th old
      · rw [List.mem_singleton.mp new]
        exact outside
    · rw [← went]
      exact apart.reader
    · rw [← went, users]
      exact apart.users
    · rw [← went, users]
      exact apart.alone
  | expire j =>
    simp only [Handle.State.step, Option.map_eq_some_iff] at went
    obtain ⟨th, here, same⟩ := went
    constructor
    · intro locked other member
      rw [← same] at locked member
      rcases mem_set_cases member with rfl | ⟨j, _, old⟩
      · exact apart.callers locked th (List.mem_of_getElem? here)
      · exact apart.callers locked other (List.mem_of_getElem? old)
    · rw [← same]
      exact apart.reader
    · rw [← same, users]
      exact apart.users
    · rw [← same, users]
      exact apart.alone
  | thread j c =>
    simp only [Handle.State.step, Option.bind_eq_some_iff, Option.map_eq_some_iff] at went
    obtain ⟨th, here, r, went, same⟩ := went
    exact apart.thread gates here went same.symm users
  | reader c =>
    simp only [Handle.State.step, Option.map_eq_some_iff] at went
    obtain ⟨r, went, same⟩ := went
    have turns := Handle.State.reader_turns went
    constructor
    · rw [← same, turns.closer, turns.threads]
      exact apart.callers
    · rw [← same, turns.closer]
      intro locked
      by_contra inside
      rcases reader_enters went (by simpa using inside) with before | openNow
      · rw [apart.reader locked] at before
        cases before
      · rw [unlocked_of_open gates openNow] at locked
        cases locked
    · rw [← same, turns.closer, users]
      exact apart.users
    · rw [← same, turns.writer, users]
      exact apart.alone
  | closer c =>
    simp only [Handle.State.step, Option.map_eq_some_iff] at went
    obtain ⟨r, went, same⟩ := went
    obtain ⟨threads, reader, locking, holding⟩ := closer_locks went
    have alone : s.base.closer = .locking → c = .go → ∀ pc ∈ s.users, pc.locks = 0 := by
      rintro waiting rfl
      simpa [State.fits, waiting] using fits
    have total := gates.readers
    constructor
    · rw [← same, threads]
      intro locked th member
      by_contra inside
      rcases locking locked with before | ⟨_, _, none⟩
      · exact inside (apart.callers before th member)
      · have held := caller_locks (show callerInside th.pc = true by simpa using inside)
        have counted := le_census_of_mem (fun th : Handle.Thread => th.pc.locks) member
        omega
    · rw [← same, reader]
      intro locked
      by_contra inside
      rcases locking locked with before | ⟨_, _, none⟩
      · exact inside (apart.reader before)
      · have held := reader_locks (show readerInside s.base.reader = true by simpa using inside)
        omega
    · rw [← same, users]
      intro locked pc member
      by_contra inside
      rcases locking locked with before | ⟨waiting, go, _⟩
      · exact inside (apart.users before pc member)
      · have held := user_locks (show pc.isInside = true by simpa using inside)
        have free := alone waiting go pc member
        omega
    · rw [← same, users]
      intro now pc member
      rcases holding now with before | ⟨waiting, go⟩
      · exact apart.alone before pc member
      · exact alone waiting go pc member

theorem opened_apart : Apart .opened where
  callers := nofun
  reader := nofun
  users := nofun
  alone := nofun

-- A new call here starts outside.
theorem Apart.enter (apart : Apart s) (base : s'.base = s.base) (users : s'.users = s.users ++ [pc])
    (outside : pc.isInside = false) (unlocked : pc.locks = 0) : Apart s' := by
  constructor
  · rw [base]
    exact apart.callers
  · rw [base]
    exact apart.reader
  · rw [base, users]
    intro locked other member
    rcases List.mem_append.mp member with old | new
    · exact apart.users locked other old
    · rw [List.mem_singleton.mp new]
      exact outside
  · rw [base, users]
    intro holding other member
    rcases List.mem_append.mp member with old | new
    · exact apart.alone holding other old
    · rw [List.mem_singleton.mp new]
      exact unlocked

theorem Apart.user (apart : Apart s) (gates : s.base.Gates) (here : s.users[i]? = some pc)
    (enters : Enters s s' pc pc') : Apart { s' with users := s'.users.set i pc' } := by
  have member := List.mem_of_getElem? here
  constructor
  · simp only [enters.closer, enters.threads]
    exact apart.callers
  · simp only [enters.closer, enters.reader]
    exact apart.reader
  · simp only [enters.closer, enters.users]
    intro locked other inside
    rcases mem_set_cases inside with rfl | ⟨j, _, old⟩
    · by_contra entered
      rcases enters.inside (by simpa using entered) with before | openNow
      · rw [apart.users locked _ member] at before
        cases before
      · rw [unlocked_of_open gates openNow] at locked
        cases locked
    · exact apart.users locked other (List.mem_of_getElem? old)
  · simp only [enters.writer, enters.users]
    intro holding other inside
    rcases mem_set_cases inside with rfl | ⟨j, _, old⟩
    · rcases enters.locks with fewer | free
      · have before := apart.alone holding _ member
        omega
      · rw [free] at holding
        cases holding
    · exact apart.alone holding other (List.mem_of_getElem? old)

theorem Apart.step (apart : Apart s) (gates : s.base.Gates) {a : Act}
    (went : s.step cfg a = some s') : Apart s' := by
  cases a with
  | base a =>
    simp only [State.step, Option.ite_none_right_eq_some, Option.map_eq_some_iff] at went
    obtain ⟨fits, b', moved, rfl⟩ := went
    exact apart.base gates fits moved rfl (cross_users _)
  | newBuffer n =>
    cases went
    exact apart.enter rfl rfl rfl rfl
  | bytes b =>
    simp only [State.step] at went
    split at went
    · cases went
    · split at went
      · cases went
      · cases went
        refine apart.enter rfl rfl ?_ ?_ <;> split <;> rfl
  | free b =>
    simp only [State.step] at went
    split at went
    · cases went
    · split at went
      · cases went
      · cases went
        exact apart.enter rfl rfl rfl rfl
  | collect b =>
    simp only [State.step] at went
    split at went
    · cases went
    · split at went
      · cases went
      · cases went
        exact apart.enter rfl rfl rfl rfl
  | user i c =>
    simp only [State.step, Option.bind_eq_some_iff, Option.map_eq_some_iff] at went
    obtain ⟨pc, here, r, moved, rfl⟩ := went
    exact apart.user gates here (user_moves moved).enters

theorem reaches_apart (reach : Reaches cfg s) : Apart s := by
  apply reach.induction
  · rintro _ rfl
    exact opened_apart
  · rintro s s' before apart ⟨a, went⟩
    exact apart.step (reaches_gates before) went

/-- Whoever takes this step has `cgoMu` for reading, or is Close and has it alone. -/
def State.Holds (s : State) : Act → Prop
  | .base (.thread i _) => ∃ th, s.base.threads[i]? = some th ∧ 0 < th.pc.locks
  | .base (.reader _) => 0 < s.base.reader.locks
  | .base (.closer _) => 0 < s.base.closer.locks ∨
      (s.base.writer = .holding ∧ s.base.readers = 0 ∧ ∀ pc ∈ s.users, pc.locks = 0)
  | .user i _ => ∃ pc, s.users[i]? = some pc ∧ 0 < pc.locks
  | _ => False

theorem crossing_inside {pc : Handle.Pc} {x : Crossing} (crosses : callerCrossing pc = some x) :
    callerInside pc = true := by
  unfold callerCrossing at crosses
  split at crosses <;> first | rfl | cases crosses

theorem readerCrossing_inside {rd : Handle.ReaderPc} {c : Handle.ReadChoice} {x : Crossing}
    (crosses : readerCrossing rd c = some x) : readerInside rd = true := by
  unfold readerCrossing at crosses
  split at crosses <;> first | rfl | cases crosses

theorem userCrossing_inside {c : Choice} {x : Crossing} (crosses : s.userCrossing pc c = some x) :
    pc.isInside = true := by
  unfold State.userCrossing at crosses
  split at crosses <;> first | rfl | cases crosses

-- Close is inside behind its read lock, or where it holds `cgoMu`.
theorem closerCrossing_inside {cl : Handle.ClosePc} {c : Handle.CloseChoice} {x : Crossing}
    (crosses : closerCrossing cl c = some x) :
    (0 < cl.locks ∨ cl.writer = .holding) ∧ cl.ptr = true ∧ handleClosed cl = false := by
  unfold closerCrossing at crosses
  split at crosses <;> first | (cases crosses; done) |
    simp [Handle.ClosePc.locks, Handle.ClosePc.writer, Handle.ClosePc.ptr, handleClosed]

theorem ptr_of_unlocked {cl : Handle.ClosePc} (unlocked : cl.locked = false) :
    cl.ptr = true ∧ handleClosed cl = false := by
  cases cl <;> simp_all [Handle.ClosePc.locked, Handle.ClosePc.ptr, handleClosed]

/-- No access to Rust without the lock, after HandleClose or through a nil `s.ptr`. -/
theorem crosses_guarded (reach : Reaches cfg s) {a : Act} {x : Crossing}
    (crosses : s.crosses a = some x) :
    s.Holds a ∧ s.base.ptr = true ∧ handleClosed s.base.closer = false := by
  have apart := reaches_apart reach
  have locks := reaches_locks reach
  have early : s.base.closer.locked = false →
      s.base.ptr = true ∧ handleClosed s.base.closer = false := by
    intro unlocked
    rw [locks.ptr]
    exact ptr_of_unlocked unlocked
  cases a with
  | base a =>
    cases a with
    | thread i c =>
      simp only [State.crosses, crossing, Option.bind_eq_some_iff] at crosses
      obtain ⟨th, here, crosses⟩ := crosses
      have inside := crossing_inside crosses
      refine ⟨⟨th, here, caller_locks inside⟩, early ?_⟩
      by_contra locked
      rw [apart.callers (by simpa using locked) th (List.mem_of_getElem? here)] at inside
      cases inside
    | reader c =>
      have inside := readerCrossing_inside crosses
      refine ⟨reader_locks inside, early ?_⟩
      by_contra locked
      rw [apart.reader (by simpa using locked)] at inside
      cases inside
    | closer c =>
      obtain ⟨held, ptr, before⟩ := closerCrossing_inside crosses
      refine ⟨?_, locks.ptr.trans ptr, before⟩
      rcases held with reading | holding
      · exact .inl reading
      · have writing : s.base.writer = .holding := locks.writer.trans holding
        exact .inr ⟨writing, locks.alone writing, apart.alone writing⟩
    | _ => cases crosses
  | user i c =>
    simp only [State.crosses, Option.bind_eq_some_iff] at crosses
    obtain ⟨pc, here, crosses⟩ := crosses
    have inside := userCrossing_inside crosses
    refine ⟨⟨pc, here, user_locks inside⟩, early ?_⟩
    by_contra locked
    rw [apart.users (by simpa using locked) pc (List.mem_of_getElem? here)] at inside
    cases inside
  | _ => cases crosses

end Gusset.Buffer
