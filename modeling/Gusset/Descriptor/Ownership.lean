import Gusset.Descriptor.Program

/-! Who may release the write end, in every state a run reaches: the winner of the swap on `closed`
or the joiner it handed its duty to, one of them at a time, under `pipe_write_lock`. -/
namespace Gusset.Descriptor
open Foundation

/-! ### What a place says -/

/-- The pipe is still to be released by this thread. -/
def Pc.duty : Pc → Nat
  | .signalling _ | .draining _ | .sorting _ _ | .upgrading _ _ | .spawningJoiner _ _ | .joining _ _
  | .releasing _ | .swappingFd _ => 1
  | _ => 0

def Pc.holdsLock : Pc → Nat
  | .attempting _ | .swappingFd _ | .closingFd _ _ => 1
  | _ => 0

/-- A descriptor is swapped out and not closed yet. -/
def Pc.closing : Pc → Nat
  | .closingFd _ raw => raw.isSome.toNat
  | _ => 0

def Pc.opening : Pc → Nat
  | .checking | .spawning _ | .awaiting | .nonblocking | .publishing | .registering => 1
  | _ => 0

def Pc.swaps : Pc → Nat
  | .swapping _ => 1
  | _ => 0

def Pc.idle : Pc → Bool
  | .outside | .exited => true
  | _ => false

def Handle.owed (h : Handle) : Bool := h.closed && !h.released

/-- Neither the first nor the last step of `open`, nor in or right after an attempt. -/
def Pc.plain : Pc → Bool
  | .checking | .registering | .attempting _ | .blocked => false
  | _ => true

/-- Between two attempts, or in one. -/
def Pc.tries : Pc → Bool
  | .locking | .attempting _ | .sleeping => true
  | _ => false

/-- What a thread knows from where it stands, and what it has written late. -/
structure Stands (h : Handle) (th : Thread) : Prop where
  publishes : th.pc.opening = 1 → h.published = (th.pc == .registering)
  keeps : th.pc.opening = 1 → th.arcs = if th.pc = .checking then 0 else 1
  reads : ∀ raw, th.pc = .attempting (some raw) → h.pipeWriteFd = some raw
  late : th.late ≤ 1
  last : th.pc = .blocked → th.late = 1 → h.closed = true
  fresh : th.pc.tries = true → th.late = 0

/-- What the fields of a handle say about each other. -/
structure Sound (cfg : Config) (h : Handle) : Prop where
  number : h.pipeWriteFd = if h.published && !h.released then some cfg.pipeWriteFd else none
  ordered : h.released = true → h.closed = true
  unopened : h.result = none → h.closed = false
  outcome : ∀ ok, h.result = some ok → h.published = ok
  stray : h.stray = 0

/-- The counts over all threads, what they know, and who there is while `open` runs and after. -/
structure Owned (cfg : Config) (s : State) : Prop where
  sound : Sound cfg s.handle
  stands : ∀ (i : Nat) (th : Thread), s.threads[i]? = some th → Stands s.handle th
  duties : census (fun th => th.pc.duty) s.threads = s.handle.owed.toNat
  locks : census (fun th => th.pc.holdsLock) s.threads = s.handle.pipeWriteLock.toNat
  openers : census (fun th => th.pc.opening) s.threads = s.handle.result.isNone.toNat
  closings : s.handle.closes + census (fun th => th.pc.closing) s.threads =
    (s.handle.published && s.handle.released).toNat
  quiet : s.handle.result = none → ∀ (i : Nat) (th : Thread), s.threads[i]? = some th →
    th.pc.opening = 0 → th.arcs = 0 ∧ th.pc.idle = true
  someone : s.handle.result = some true →
    s.handle.closed = true ∨ 0 < s.strong ∨ 0 < census (fun th => th.pc.swaps) s.threads

variable {cfg : Config} {s t : State} {i : Nat} {th : Thread} {a : Act} {e : Effect}

/-- What the counts say of one thread. -/
structure Placed (h : Handle) (th : Thread) : Prop where
  duty : th.pc.duty = 1 → h.closed = true ∧ h.released = false
  lock : th.pc.holdsLock = 1 → h.pipeWriteLock = true
  opening : th.pc.opening = 1 → h.result = none
  alone : h.result = none → th.pc.opening = 0 → th.arcs = 0 ∧ th.pc.idle = true
  closes : h.closes ≤ (h.published && h.released).toNat

theorem Owned.placed (owned : Owned cfg s) (member : s.threads[i]? = some th) :
    Placed s.handle th := by
  have duty := le_census (fun th => th.pc.duty) member
  have lock := le_census (fun th => th.pc.holdsLock) member
  have opening := le_census (fun th => th.pc.opening) member
  rw [owned.duties] at duty
  rw [owned.locks] at lock
  rw [owned.openers] at opening
  constructor
  · intro one
    grind -ring -linarith [Handle.owed]
  · intro one
    grind -ring -linarith
  · intro one
    cases here : s.handle.result with
    | none => rfl
    | some ok =>
      rw [here, one] at opening
      exact absurd opening (by simp)
  · intro none other
    exact owned.quiet none i th member other
  · exact Nat.le_trans (Nat.le_add_right _ _) (Nat.le_of_eq owned.closings)

/-! ### One step of one thread -/

/-- A move that no count sees. -/
structure Alike (h : Handle) (pc pc' : Pc) : Prop where
  duty : pc'.duty = pc.duty
  lock : pc'.holdsLock = pc.holdsLock
  opening : pc'.opening = pc.opening
  closing : pc'.closing = pc.closing
  plain : pc'.plain = true
  early : pc ≠ .registering
  swaps : pc.swaps = 0 ∨ h.closed = true
  fresh : pc'.tries = false ∨ pc.tries = true
  idle : h.result = none → pc'.opening = 0 → pc'.idle = true

/-- Everything a step can do to one thread, and to the handle. -/
inductive Acts (cfg : Config) (s : State) (th : Thread) : Effect → Prop
  | walk {pc' arcs sent workers started} (alike : Alike s.handle th.pc pc') (more : th.arcs ≤ arcs)
      (few : s.handle.result = none → pc'.opening = 0 → arcs = 0)
      (opener : pc'.opening = 1 → arcs = 1) (new : ∀ x ∈ started, x = worker) :
      Acts cfg s th ⟨{ s.handle with workers := workers },
        { th with arcs := arcs, pc := pc', sent := sent }, started⟩
  | fail {pc' arcs} (here : th.pc.opening = 1) (early : th.pc ≠ .registering)
      (next : pc' = .outside ∨ pc' = .swapping .dropper) :
      Acts cfg s th ⟨{ s.handle with result := some false }, { th with arcs := arcs, pc := pc' }, []⟩
  | publish (here : th.pc = .publishing) :
      Acts cfg s th ⟨{ s.handle with pipeWriteFd := some cfg.pipeWriteFd, published := true },
        th.goto .registering, []⟩
  | register (here : th.pc = .registering) :
      Acts cfg s th ⟨{ s.handle with result := some true }, th.goto .outside, []⟩
  | complete (here : th.pc = .outside) (mine : 0 < th.arcs) :
      Acts cfg s th ⟨s.handle, { th with pc := .locking, late := 0 }, []⟩
  | look (here : th.pc = .locking) (free : s.handle.pipeWriteLock = false) :
      Acts cfg s th ⟨{ s.handle with pipeWriteLock := true },
        th.goto (.attempting s.handle.pipeWriteFd), []⟩
  | skip (here : th.pc = .attempting none) :
      Acts cfg s th ⟨{ s.handle with pipeWriteLock := false }, th.goto .outside, []⟩
  | attempt {raw pc'} (here : th.pc = .attempting (some raw))
      (next : pc' = .outside ∨ pc' = .blocked) : Acts cfg s th (attempt s.handle th pc')
  | retry (here : th.pc = .blocked) (still : s.handle.closed = false) :
      Acts cfg s th ⟨s.handle, th.goto .sleeping, []⟩
  | win {who} (here : th.pc = .swapping who) (first : s.handle.closed = false) :
      Acts cfg s th ⟨{ s.handle with closed := true }, th.goto (.signalling who), []⟩
  | keep {who foreign} (here : th.pc = .spawningJoiner who foreign) :
      Acts cfg s th ⟨s.handle, { th with arcs := th.arcs - 1, pc := .joining who foreign }, []⟩
  | hand {who foreign} (here : th.pc = .spawningJoiner who foreign) :
      Acts cfg s th ⟨s.handle, { th with arcs := th.arcs - 1, pc := .waiting s.threads.length },
        [⟨false, 1, .joining .joiner foreign, false, 0⟩]⟩
  | lock {who} (here : th.pc = .releasing who) (free : s.handle.pipeWriteLock = false) :
      Acts cfg s th ⟨{ s.handle with pipeWriteLock := true }, th.goto (.swappingFd who), []⟩
  | swapFd {who} (here : th.pc = .swappingFd who) :
      Acts cfg s th ⟨{ s.handle with pipeWriteFd := none, released := true },
        th.goto (.closingFd who s.handle.pipeWriteFd), []⟩
  | closeFd {who raw} (here : th.pc = .closingFd who raw) :
      Acts cfg s th ⟨{ s.handle with
        pipeWriteLock := false, closes := s.handle.closes + raw.isSome.toNat },
        th.goto who.after, []⟩
  | drop (here : th.pc = .dropping ∨ th.pc = .outside) (mine : th.pc = .outside → 0 < th.arcs) :
      Acts cfg s th ⟨s.handle, th.letGo s.strong, []⟩

theorem threadStep_cases {c : Choice} (went : s.threadStep cfg i th c = some e) :
    openStep cfg s th th.pc c = some e ∨ writeStep s th th.pc c = some e ∨
      closeStep s i th th.pc c = some e := by
  rcases Option.or_eq_some_iff.mp went with here | ⟨_, rest⟩
  · exact .inl here
  · rcases Option.or_eq_some_iff.mp rest with here | ⟨_, here⟩
    · exact .inr (.inl here)
    · exact .inr (.inr here)

theorem letGo_cases (th : Thread) (strong : Nat) :
    (th.letGo strong).pc = .outside ∨ (th.letGo strong).pc = .swapping .dropper := by
  unfold Thread.letGo
  dsimp only
  split
  · exact .inr rfl
  · exact .inl rfl

theorem Placed.returned {h : Handle} {pc : Pc} (placed : Placed h th) (here : th.pc = pc)
    (other : pc.opening = 0) (busy : pc.idle = false) : h.result ≠ none := by
  intro none
  subst here
  rw [(placed.alone none other).2] at busy
  cases busy

/-- A step inside of a call that is not `open`. -/
theorem Acts.step {pc pc' : Pc} {workers : List Nat} (placed : Placed s.handle th)
    (here : th.pc = pc) (inside : pc.opening = 0 ∧ pc.idle = false)
    (won : pc.swaps = 0 ∨ s.handle.closed = true)
    (same : pc'.duty = pc.duty ∧ pc'.holdsLock = pc.holdsLock ∧ pc'.opening = 0 ∧
      pc'.closing = pc.closing) (plain : pc'.plain = true)
    (fresh : pc'.tries = false ∨ pc.tries = true) :
    Acts cfg s th ⟨{ s.handle with workers := workers }, th.goto pc', []⟩ := by
  have returned := placed.returned here inside.1 inside.2
  have early : th.pc ≠ .registering := by
    intro last
    rw [← here, last] at inside
    cases inside.1
  subst here
  exact .walk ⟨same.1, same.2.1, by rw [same.2.2.1, inside.1], same.2.2.2, plain, early, won, fresh,
    fun none => absurd none returned⟩ (Nat.le_refl _) (fun none => absurd none returned)
    (fun one => by rw [same.2.2.1] at one; cases one) (List.forall_mem_nil _)

theorem Alike.opens {h : Handle} {pc pc' : Pc} (before : pc.opening = 1) (after : pc'.opening = 1)
    (plain : pc'.plain = true) (early : pc ≠ .registering) : Alike h pc pc' := by
  unfold Pc.opening at before after
  split at before <;> first | contradiction | split at after <;> first | contradiction | skip
  all_goals exact ⟨rfl, rfl, rfl, rfl, plain, early, .inl rfl, .inl rfl, fun _ other =>
    absurd other Nat.one_ne_zero⟩

theorem open_acts {c : Choice} (stands : Stands s.handle th)
    (went : openStep cfg s th th.pc c = some e) : Acts cfg s th e := by
  have keeps := stands.keeps
  have walk (pc' : Pc) {workers : List Nat} {started : List Thread} (here : th.pc.opening = 1)
      (first : th.pc ≠ .checking) (early : th.pc ≠ .registering) (after : pc'.opening = 1)
      (plain : pc'.plain = true) (new : ∀ x ∈ started, x = worker) :
      Acts cfg s th ⟨{ s.handle with workers := workers }, th.goto pc', started⟩ := by
    have one : th.arcs = 1 := by rw [keeps here, if_neg first]
    exact .walk (.opens here after plain early) (Nat.le_refl _)
      (fun _ other => by rw [after] at other; cases other) (fun _ => one) new
  unfold openStep at went
  split at went
  all_goals
    rename_i here
    cases went
  · exact .fail (by rw [here]; rfl) (by simp [here]) (.inl rfl)
  · have zero : th.arcs = 0 := by rw [keeps (by rw [here]; rfl), if_pos here]
    exact .walk (.opens (by rw [here]; rfl) rfl rfl (by simp [here])) (by omega) nofun
      (fun _ => rfl) nofun
  · exact walk .awaiting (by rw [here]; rfl) (by simp [here]) (by simp [here]) rfl rfl
      (List.forall_mem_nil _)
  · exact .fail (by rw [here]; rfl) (by simp [here]) (letGo_cases th _)
  · exact walk _ (by rw [here]; rfl) (by simp [here]) (by simp [here]) rfl rfl (by simp)
  · exact .fail (by rw [here]; rfl) (by simp [here]) (letGo_cases th _)
  · exact walk .nonblocking (by rw [here]; rfl) (by simp [here]) (by simp [here]) rfl rfl
      (List.forall_mem_nil _)
  · exact .fail (by rw [here]; rfl) (by simp [here]) (letGo_cases th _)
  · exact walk .publishing (by rw [here]; rfl) (by simp [here]) (by simp [here]) rfl rfl
      (List.forall_mem_nil _)
  · exact .publish here
  · exact .register here

theorem write_acts {c : Choice} (placed : Placed s.handle th)
    (went : writeStep s th th.pc c = some e) : Acts cfg s th e := by
  unfold writeStep at went
  split at went
  · rename_i here
    split at went
    · cases went
    · rename_i free
      cases went
      exact .look here (by simpa using free)
  · cases went
    exact .skip ‹_›
  · cases went
    exact .attempt ‹_› (.inl rfl)
  · cases went
    exact .attempt ‹_› (.inl rfl)
  · cases went
    exact .attempt ‹_› (.inr rfl)
  · rename_i here
    cases went
    split
    · exact .step placed here ⟨rfl, rfl⟩ (.inl rfl) ⟨rfl, rfl, rfl, rfl⟩ rfl (.inl rfl)
    · rename_i still
      exact .retry here (by simpa using still)
  · rename_i here
    cases went
    exact .step placed here ⟨rfl, rfl⟩ (.inl rfl) ⟨rfl, rfl, rfl, rfl⟩ rfl (.inr rfl)
  · cases went


theorem close_acts {c : Choice} (placed : Placed s.handle th)
    (went : closeStep s i th th.pc c = some e) : Acts cfg s th e := by
  unfold closeStep at went
  split at went
  · rename_i here
    split at went
    · rename_i done
      cases went
      exact .step placed here ⟨rfl, rfl⟩ (.inr done) ⟨rfl, rfl, rfl, rfl⟩ rfl (.inl rfl)
    · rename_i first
      cases went
      exact .win here (by simpa using first)
  · rename_i here
    cases went
    exact .step placed here ⟨rfl, rfl⟩ (.inl rfl) ⟨rfl, rfl, rfl, rfl⟩ rfl (.inl rfl)
  · rename_i here
    cases went
    exact .step placed here ⟨rfl, rfl⟩ (.inl rfl) ⟨rfl, rfl, rfl, rfl⟩ rfl (.inl rfl)
  · rename_i here
    cases went
    split
    · exact .step placed here ⟨rfl, rfl⟩ (.inl rfl) ⟨rfl, rfl, rfl, rfl⟩ rfl (.inl rfl)
    · exact .step placed here ⟨rfl, rfl⟩ (.inl rfl) ⟨rfl, rfl, rfl, rfl⟩ rfl (.inl rfl)
  · rename_i here
    have returned := placed.returned here rfl rfl
    cases went
    split
    · exact .step placed here ⟨rfl, rfl⟩ (.inl rfl) ⟨rfl, rfl, rfl, rfl⟩ rfl (.inl rfl)
    · exact .walk (here ▸ ⟨rfl, rfl, rfl, rfl, rfl, Pc.noConfusion, .inl rfl, .inl rfl,
        fun none => absurd none returned⟩) (Nat.le_succ _) (fun none => absurd none returned)
        (fun one => absurd one Nat.zero_ne_one) (List.forall_mem_nil _)
  · cases went
    exact .keep ‹_›
  · cases went
    exact .hand ‹_›
  · rename_i here
    cases went
    exact .step placed here ⟨rfl, rfl⟩ (.inl rfl) ⟨rfl, rfl, rfl, rfl⟩ rfl (.inl rfl)
  · rename_i here
    split at went
    · cases went
      exact .step placed here ⟨rfl, rfl⟩ (.inl rfl) ⟨rfl, rfl, rfl, rfl⟩ rfl (.inl rfl)
    · cases went
  · rename_i here
    split at went
    · cases went
    · rename_i free
      cases went
      exact .lock here (by simpa using free)
  · cases went
    exact .swapFd ‹_›
  · cases went
    exact .closeFd ‹_›
  · rename_i here
    split at went
    · cases went
      exact .step placed here ⟨rfl, rfl⟩ (.inl rfl) ⟨rfl, rfl, rfl, rfl⟩ rfl (.inl rfl)
    · cases went
  · rename_i here
    cases went
    exact .step placed here ⟨rfl, rfl⟩ (.inl rfl) ⟨rfl, rfl, rfl, rfl⟩ rfl (.inl rfl)
  · rename_i here
    split at went
    · cases went
      exact .step placed here ⟨rfl, rfl⟩ (.inl rfl) ⟨rfl, rfl, rfl, rfl⟩ rfl (.inl rfl)
    · cases went
  · rename_i here
    have returned := placed.returned here rfl rfl
    cases went
    exact .walk (here ▸ ⟨rfl, rfl, rfl, rfl, rfl, Pc.noConfusion, .inl rfl, .inl rfl,
      fun none => absurd none returned⟩) (Nat.le_refl _) (fun none => absurd none returned)
        (fun one => absurd one Nat.zero_ne_one) (List.forall_mem_nil _)
  · rename_i here
    cases went
    exact .drop (.inl here) (fun other => by rw [here] at other; cases other)
  · cases went

theorem move_acts {m : Move} (placed : Placed s.handle th) (here : th.pc = .outside)
    (went : moveStep s th m = some e) : Acts cfg s th e := by
  have outside {pc' : Pc} (same : pc'.duty = 0 ∧ pc'.holdsLock = 0 ∧ pc'.opening = 0 ∧ pc'.closing = 0)
      (plain : pc'.plain = true) (calm : pc'.tries = false)
      (idle : s.handle.result = none → pc'.idle = true) : Alike s.handle th.pc pc' := by
    rw [here]
    exact ⟨same.1, same.2.1, same.2.2.1, same.2.2.2, plain, Pc.noConfusion, .inl rfl,
      .inl calm, fun none _ => idle none⟩
  have owner (mine : 0 < th.arcs) : s.handle.result ≠ none := by
    intro none
    have zero := (placed.alone none (by rw [here]; rfl)).1
    omega
  have none_left (none : s.handle.result = none) : th.arcs = 0 :=
    (placed.alone none (by rw [here]; rfl)).1
  unfold moveStep at went
  split at went
  all_goals
    split at went
    rotate_left
    · cases went
    rename_i may
    cases went
  · exact .walk (here ▸ outside ⟨rfl, rfl, rfl, rfl⟩ rfl rfl fun _ => rfl) (Nat.le_succ _)
      (fun none => by rw [none] at may; cases may.1) (fun one => by rw [here] at one; cases one) nofun
  · exact .complete here may.2
  · exact .walk (outside ⟨rfl, rfl, rfl, rfl⟩ rfl rfl fun none => absurd none (owner may))
      (Nat.le_refl _) (fun none _ => none_left none) nofun nofun
  · exact .drop (.inr here) (fun _ => may)
  · have same : Alike s.handle th.pc th.pc := by
      exact outside (by rw [here]; exact ⟨rfl, rfl, rfl, rfl⟩) (by rw [here]; rfl) (by rw [here]; rfl)
        fun _ => by rw [here]; rfl
    exact .walk same (Nat.le_refl _) (fun none _ => none_left none)
      (fun one => by rw [here] at one; cases one) (by simp)
  · exact .walk (outside ⟨rfl, rfl, rfl, rfl⟩ rfl rfl fun _ => rfl) (Nat.le_refl _)
      (fun none _ => none_left none) nofun nofun

/-! ### What one step keeps -/

@[simp] theorem after_duty (who : Who) : who.after.duty = 0 := by cases who <;> rfl

@[simp] theorem after_holdsLock (who : Who) : who.after.holdsLock = 0 := by cases who <;> rfl

@[simp] theorem after_opening (who : Who) : who.after.opening = 0 := by cases who <;> rfl

@[simp] theorem after_closing (who : Who) : who.after.closing = 0 := by cases who <;> rfl

@[simp] theorem after_plain (who : Who) : who.after.plain = true := by cases who <;> rfl

@[simp] theorem after_tries (who : Who) : who.after.tries = false := by cases who <;> rfl

theorem opening_counts {pc : Pc} (one : pc.opening = 1) :
    pc.duty = 0 ∧ pc.holdsLock = 0 ∧ pc.closing = 0 ∧ pc.swaps = 0 := by
  unfold Pc.opening at one
  split at one <;> first | exact ⟨rfl, rfl, rfl, rfl⟩ | cases one

/-- Neither in `open` nor between the attempts of a write there is nothing to know. -/
theorem stands_plain {h : Handle} (late : th.late ≤ 1) (plain : th.pc.plain = true)
    (other : th.pc.opening = 0) (calm : th.pc.tries = false) : Stands h th := by
  constructor
  · intro one
    rw [other] at one
    cases one
  · intro one
    rw [other] at one
    cases one
  · intro raw here
    rw [here] at plain
    cases plain
  · exact late
  · intro here
    rw [here] at plain
    cases plain
  · intro yes
    rw [calm] at yes
    cases yes

theorem workers_count {f : Thread → Nat} {started : List Thread} (new : ∀ x ∈ started, x = worker)
    (none : f worker = 0) : census f started = 0 := by
  apply census_eq_zero
  intro x member
  rw [new x member, none]

section Thread

variable (sound : Sound cfg s.handle) (stands : Stands s.handle th) (placed : Placed s.handle th)
  (acts : Acts cfg s th e)

include placed acts in
theorem Acts.lock_kept : e.thread.pc.holdsLock + census (fun th => th.pc.holdsLock) e.started +
    s.handle.pipeWriteLock.toNat = th.pc.holdsLock + e.handle.pipeWriteLock.toNat := by
  have lock := placed.lock
  cases acts with
  | walk alike more few opener new =>
    rw [workers_count new rfl]
    simp [alike.lock]
  | fail here early next =>
    have out := (opening_counts here).2.1
    rcases next with rfl | rfl <;>
      grind -ring -linarith [Pc.holdsLock, census_nil, census_cons, after_holdsLock]
  | attempt here next =>
    rcases next with rfl | rfl <;> grind -ring -linarith
      [Descriptor.attempt, Pc.holdsLock, census_nil, census_cons, after_holdsLock]
  | drop here mine =>
    rcases letGo_cases th s.strong with next | next <;>
      grind -ring -linarith [Pc.holdsLock, census_nil, census_cons, after_holdsLock]
  | _ => grind -ring -linarith [Thread.goto, Pc.holdsLock, census_nil, census_cons, after_holdsLock]

include sound placed acts in
theorem Acts.duty_kept : e.thread.pc.duty + census (fun th => th.pc.duty) e.started +
    s.handle.owed.toNat = th.pc.duty + e.handle.owed.toNat := by
  have ordered := sound.ordered
  have duty := placed.duty
  cases acts with
  | walk alike more few opener new =>
    rw [workers_count new rfl]
    simp [alike.duty, Handle.owed]
  | fail here early next =>
    have out := (opening_counts here).1
    rcases next with rfl | rfl <;>
      grind -ring -linarith [Pc.duty, Handle.owed, census_nil, census_cons, after_duty]
  | attempt here next =>
    rcases next with rfl | rfl <;> grind -ring -linarith
      [Descriptor.attempt, Pc.duty, Handle.owed, census_nil, census_cons, after_duty]
  | drop here mine =>
    rcases letGo_cases th s.strong with next | next <;>
      grind -ring -linarith [Pc.duty, Handle.owed, census_nil, census_cons, after_duty]
  | _ =>
      grind -ring -linarith [Thread.goto, Pc.duty, Handle.owed, census_nil, census_cons, after_duty]

include placed acts in
theorem Acts.opening_kept : e.thread.pc.opening + census (fun th => th.pc.opening) e.started +
    s.handle.result.isNone.toNat = th.pc.opening + e.handle.result.isNone.toNat := by
  have opening := placed.opening
  cases acts with
  | walk alike more few opener new =>
    rw [workers_count new rfl]
    simp [alike.opening]
  | fail here early next =>
    have out := (opening_counts here).2.2.2
    rcases next with rfl | rfl <;>
      grind -ring -linarith [Pc.opening, census_nil, census_cons, after_opening]
  | attempt here next =>
    rcases next with rfl | rfl <;>
      grind -ring -linarith [Descriptor.attempt, Pc.opening, census_nil, census_cons, after_opening]
  | drop here mine =>
    rcases letGo_cases th s.strong with next | next <;>
      grind -ring -linarith [Pc.opening, census_nil, census_cons, after_opening]
  | _ => grind -ring -linarith [Thread.goto, Pc.opening, census_nil, census_cons, after_opening]

include sound placed acts in
theorem Acts.closing_kept : e.handle.closes + (e.thread.pc.closing +
    census (fun th => th.pc.closing) e.started) + (s.handle.published && s.handle.released).toNat =
      s.handle.closes + th.pc.closing + (e.handle.published && e.handle.released).toNat := by
  have duty := placed.duty
  have opening := placed.opening
  have unopened := sound.unopened
  have ordered := sound.ordered
  have number : s.handle.pipeWriteFd.isSome = (s.handle.published && !s.handle.released) := by
    rw [sound.number]
    split <;> simp_all
  cases acts with
  | walk alike more few opener new =>
    rw [workers_count new rfl]
    simp [alike.closing]
  | fail here early next =>
    have out := (opening_counts here).2.2.1
    rcases next with rfl | rfl <;> grind -ring -linarith
      [Pc.closing, Pc.opening, Pc.duty, census_nil, census_cons, after_closing]
  | attempt here next =>
    rcases next with rfl | rfl <;> grind -ring -linarith
      [Descriptor.attempt, Pc.closing, Pc.opening, Pc.duty, census_nil, census_cons, after_closing]
  | drop here mine =>
    rcases letGo_cases th s.strong with next | next <;> grind -ring -linarith
      [Pc.closing, Pc.opening, Pc.duty, census_nil, census_cons, after_closing]
  | _ => grind -ring -linarith [Thread.goto, Pc.closing, Pc.opening, Pc.duty, census_nil, census_cons, after_closing]

include sound stands placed acts in
theorem Acts.handle_sound : Sound cfg e.handle := by
  obtain ⟨number, ordered, unopened, outcome, stray⟩ := sound
  obtain ⟨duty, lock, opening, alone, closes⟩ := placed
  have publishes := stands.publishes
  have reads := stands.reads
  cases acts with
  | walk => exact ⟨number, ordered, unopened, outcome, stray⟩
  | fail here early next =>
    refine ⟨number, ordered, nofun, ?_, stray⟩
    rintro ok ⟨⟩
    rw [publishes here]
    simpa using early
  | publish here => constructor <;> grind -ring -linarith [Pc.opening]
  | register here => constructor <;> grind -ring -linarith [Pc.opening]
  | attempt here next => constructor <;> grind -ring -linarith [Descriptor.attempt]
  | win here first => constructor <;> grind -ring -linarith [Pc.opening, Pc.idle]
  | swapFd here => constructor <;> grind -ring -linarith [Pc.duty]
  | _ => exact ⟨number, ordered, unopened, outcome, stray⟩

include stands in
theorem Stands.walk {pc' : Pc} {arcs : Nat} {sent : Bool} {workers : List Nat}
    (alike : Alike s.handle th.pc pc') (opener : pc'.opening = 1 → arcs = 1) :
    Stands { s.handle with workers := workers }
      { th with arcs := arcs, pc := pc', sent := sent } := by
  obtain ⟨duty, lock, opening, closing, plain, early, swaps, calm, idle⟩ := alike
  constructor
  · intro one
    have last : pc' ≠ .registering := by
      intro here
      rw [here] at plain
      cases plain
    have before := stands.publishes (opening ▸ one)
    change s.handle.published = (pc' == .registering)
    rw [before, beq_eq_false_iff_ne.mpr early, beq_eq_false_iff_ne.mpr last]
  · intro one
    have first : pc' ≠ .checking := by
      intro here
      rw [here] at plain
      cases plain
    change arcs = if pc' = .checking then 0 else 1
    rw [if_neg first, opener one]
  · intro raw here
    change pc' = _ at here
    rw [here] at plain
    cases plain
  · exact stands.late
  · intro here
    change pc' = _ at here
    rw [here] at plain
    cases plain
  · intro yes
    change pc'.tries = true at yes
    rcases calm with never | before
    · rw [never] at yes
      cases yes
    · exact stands.fresh before

include stands in
theorem Stands.attempt {raw : Fd} {pc' : Pc} (here : th.pc = .attempting (some raw))
    (next : pc' = .outside ∨ pc' = .blocked) :
    Stands (Descriptor.attempt s.handle th pc').handle
      (Descriptor.attempt s.handle th pc').thread := by
  have none := stands.fresh (by rw [here]; rfl)
  have late : th.late + s.handle.closed.toNat ≤ 1 := by
    have once := Bool.toNat_le s.handle.closed
    omega
  rcases next with rfl | rfl
  · exact stands_plain late rfl rfl rfl
  · refine ⟨nofun, nofun, nofun, late, ?_, nofun⟩
    intro _ one
    change th.late + s.handle.closed.toNat = 1 at one
    rw [none, Nat.zero_add] at one
    exact Bool.toNat_eq_one.mp one

include stands acts in
theorem Acts.thread_stands : Stands e.handle e.thread := by
  cases acts with
  | walk alike more few opener new => exact stands.walk alike opener
  | fail here early next => rcases next with rfl | rfl <;> exact stands_plain stands.late rfl rfl rfl
  | publish here =>
    have one := stands.keeps (by rw [here]; rfl)
    rw [here] at one
    exact ⟨fun _ => rfl, fun _ => one, nofun, stands.late, nofun, nofun⟩
  | complete here mine => exact ⟨nofun, nofun, nofun, Nat.zero_le _, nofun, fun _ => rfl⟩
  | look here free =>
    refine ⟨nofun, nofun, ?_, stands.late, nofun, fun _ => stands.fresh (by rw [here]; rfl)⟩
    intro raw same
    exact Pc.attempting.inj same
  | attempt here next => exact stands.attempt here next
  | retry here still =>
    refine ⟨nofun, nofun, nofun, stands.late, nofun, ?_⟩
    intro _
    have most := stands.late
    have last := stands.last here
    change th.late = 0
    by_contra some
    rw [last (by omega)] at still
    cases still
  | closeFd here =>
    exact stands_plain stands.late (after_plain _) (after_opening _) (after_tries _)
  | drop here mine =>
    rcases letGo_cases th s.strong with next | next
    · exact stands_plain stands.late (by rw [next]; rfl) (by rw [next]; rfl) (by rw [next]; rfl)
    · exact stands_plain stands.late (by rw [next]; rfl) (by rw [next]; rfl) (by rw [next]; rfl)
  | _ => exact stands_plain stands.late rfl rfl rfl

include acts in
theorem Acts.started_begin : ∀ x ∈ e.started, Stands e.handle x := by
  cases acts with
  | walk alike more few opener new =>
    intro x member
    rw [new x member]
    exact stands_plain (Nat.zero_le _) rfl rfl rfl
  | hand here =>
    intro x member
    rw [List.mem_singleton.mp member]
    exact stands_plain (Nat.zero_le _) rfl rfl rfl
  | _ => exact List.forall_mem_nil _

include acts in
theorem Acts.frame : (s.handle.closed = true → e.handle.closed = true) ∧
    (e.handle.pipeWriteFd = s.handle.pipeWriteFd ∨ th.pc.holdsLock = 1 ∨ th.pc.opening = 1) ∧
    (e.handle.published = s.handle.published ∨ th.pc.opening = 1) := by
  cases acts with
  | publish here => exact ⟨id, .inr (.inr (by rw [here]; rfl)), .inr (by rw [here]; rfl)⟩
  | swapFd here => exact ⟨id, .inr (.inl (by rw [here]; rfl)), .inl rfl⟩
  | win here first => exact ⟨fun _ => rfl, .inl rfl, .inl rfl⟩
  | _ => exact ⟨id, .inl rfl, .inl rfl⟩

include placed acts in
theorem Acts.quiet_kept (none : e.handle.result = none) : s.handle.result = Option.none ∧
    (e.thread.pc.opening = 0 → e.thread.arcs = 0 ∧ e.thread.pc.idle = true) ∧
      ∀ x ∈ e.started, x.arcs = 0 ∧ x.pc.idle = true := by
  have busy {pc : Pc} (here : th.pc = pc) (other : pc.opening = 0) (busy : pc.idle = false) :
      s.handle.result ≠ Option.none := placed.returned here other busy
  cases acts with
  | walk alike more few opener new =>
    refine ⟨none, fun other => ⟨few none other, alike.idle none other⟩, ?_⟩
    intro x member
    rw [new x member]
    exact ⟨rfl, rfl⟩
  | fail => cases none
  | publish => exact ⟨none, nofun, nofun⟩
  | register => cases none
  | complete here mine =>
    have zero := (placed.alone none (by rw [here]; rfl)).1
    omega
  | attempt here next => exact absurd none (busy here rfl rfl)
  | drop here mine =>
    rcases here with here | here
    · exact absurd none (busy here rfl rfl)
    · have zero := (placed.alone none (by rw [here]; rfl)).1
      have one := mine here
      omega
  | look here | skip here | retry here | win here | keep here | hand here | lock here | swapFd here
  | closeFd here => exact absurd none (busy here rfl rfl)

include placed acts in
theorem Acts.arcs_kept (opened : s.handle.result = some true) :
    e.handle.closed = true ∨ 0 < e.thread.pc.swaps ∨ th.pc.swaps = 0 ∧
      th.arcs ≤ e.thread.arcs + census Thread.arcs e.started + 1 ∧
      (s.strong = 1 → th.arcs ≤ e.thread.arcs + census Thread.arcs e.started) := by
  have duty := placed.duty
  have opening := placed.opening
  cases acts with
  | walk alike more few opener new =>
    rcases alike.swaps with none | won
    · exact .inr (.inr ⟨none, by dsimp only; omega, fun _ => by dsimp only; omega⟩)
    · exact .inl won
  | fail here early next => exact absurd (opening here) (by simp [opened])
  | win here first => exact .inl rfl
  | drop here mine => grind -ring -linarith [Thread.letGo, Pc.swaps]
  | attempt here next => grind -ring -linarith [Descriptor.attempt, Pc.swaps]
  | _ => grind -ring -linarith [Thread.goto, Pc.swaps, Pc.duty, Pc.opening]

include stands acts in
theorem Acts.result_true (opened : e.handle.result = some true) :
    s.handle.result = some true ∨ 0 < e.thread.arcs := by
  cases acts with
  | fail => cases opened
  | register here =>
    right
    change 0 < th.arcs
    rw [stands.keeps (by rw [here]; rfl), here]
    decide
  | _ => exact .inl opened

end Thread

/-! ### Every state of a run -/

theorem apply_census (f : Thread → Nat) (member : s.threads[i]? = some th) :
    census f (s.apply i e).threads + f th =
      census f s.threads + (f e.thread + census f e.started) := by
  have moved := census_set f member e.thread
  unfold State.apply
  rw [census_append]
  omega

theorem apply_member {j : Nat} {x : Thread} (found : (s.apply i e).threads[j]? = some x) :
    (j = i ∧ x = e.thread) ∨ (j ≠ i ∧ s.threads[j]? = some x) ∨
      (s.threads.length ≤ j ∧ x ∈ e.started) := by
  rcases Nat.lt_or_ge j (s.threads.set i e.thread).length with inside | outside
  · rw [State.apply, List.getElem?_append_left inside] at found
    rcases getElem?_set_cases found with ⟨same, here⟩ | ⟨differ, old⟩
    · exact .inl ⟨same, here⟩
    · exact .inr (.inl ⟨differ, old⟩)
  · rw [State.apply, List.getElem?_append_right outside] at found
    rw [List.length_set] at outside
    exact .inr (.inr ⟨outside, List.mem_of_getElem? found⟩)

/-- While one thread opens, the others are idle. -/
theorem Owned.alone {j : Nat} {x : Thread} (owned : Owned cfg s) (member : s.threads[i]? = some th)
    (one : th.pc.opening = 1) (differ : j ≠ i) (old : s.threads[j]? = some x) :
    x.pc.opening = 0 ∧ x.pc.idle = true := by
  have none := (owned.placed member).opening one
  have single : census (fun th => th.pc.opening) s.threads ≤ 1 := by
    rw [owned.openers]
    exact Bool.toNat_le _
  have other : x.pc.opening = 0 := by
    by_contra some
    exact differ (index_unique (fun th => th.pc.opening) single old member (by omega) (by omega))
  exact ⟨other, (owned.quiet none j x old other).2⟩

/-- What another thread knows outlives a step. -/
theorem Owned.others {j : Nat} {x : Thread} (owned : Owned cfg s) (member : s.threads[i]? = some th)
    (acts : Acts cfg s th e) (differ : j ≠ i) (old : s.threads[j]? = some x) :
    Stands e.handle x := by
  have stands := owned.stands j x old
  obtain ⟨closed, number, published⟩ := acts.frame
  have lone (one : th.pc.opening = 1) := owned.alone member one differ old
  refine ⟨?_, stands.keeps, ?_, stands.late, fun here one => closed (stands.last here one),
    stands.fresh⟩
  · intro one
    rcases published with same | opener
    · rw [same]
      exact stands.publishes one
    · rw [(lone opener).1] at one
      cases one
  · intro raw here
    rcases number with same | holds | opener
    · rw [same]
      exact stands.reads raw here
    · have single : census (fun th => th.pc.holdsLock) s.threads ≤ 1 := by
        rw [owned.locks]
        exact Bool.toNat_le _
      exact absurd (index_unique (fun th => th.pc.holdsLock) single old member
        (by simp [here, Pc.holdsLock]) (by omega)) differ
    · have idle := (lone opener).2
      rw [here] at idle
      cases idle

theorem Owned.apply (owned : Owned cfg s) (member : s.threads[i]? = some th)
    (acts : Acts cfg s th e) : Owned cfg (s.apply i e) := by
  have sound := owned.sound
  have stands := owned.stands i th member
  have placed := owned.placed member
  refine ⟨acts.handle_sound sound stands placed, ?_, ?_, ?_, ?_, ?_, ?_, ?_⟩
  · intro j x found
    rcases apply_member found with ⟨_, rfl⟩ | ⟨differ, old⟩ | ⟨_, new⟩
    · exact acts.thread_stands stands
    · exact owned.others member acts differ old
    · exact acts.started_begin x new
  · have moved := apply_census (e := e) (fun th => th.pc.duty) member
    have kept := acts.duty_kept sound placed
    have before := owned.duties
    change _ = e.handle.owed.toNat
    omega
  · have moved := apply_census (e := e) (fun th => th.pc.holdsLock) member
    have kept := acts.lock_kept placed
    have before := owned.locks
    change _ = e.handle.pipeWriteLock.toNat
    omega
  · have moved := apply_census (e := e) (fun th => th.pc.opening) member
    have kept := acts.opening_kept placed
    have before := owned.openers
    change _ = e.handle.result.isNone.toNat
    omega
  · have moved := apply_census (e := e) (fun th => th.pc.closing) member
    have kept := acts.closing_kept sound placed
    have before := owned.closings
    change e.handle.closes + _ = (e.handle.published && e.handle.released).toNat
    omega
  · intro none j x found other
    obtain ⟨before, mine, started⟩ := acts.quiet_kept placed none
    rcases apply_member found with ⟨_, rfl⟩ | ⟨_, old⟩ | ⟨_, new⟩
    · exact mine other
    · exact owned.quiet before j x old other
    · exact started x new
  · intro opened
    have arcs := apply_census (e := e) Thread.arcs member
    have swaps := apply_census (e := e) (fun th => th.pc.swaps) member
    have held := le_census Thread.arcs member
    have swapping := le_census (fun th => th.pc.swaps) member
    change e.handle.closed = true ∨ 0 < census Thread.arcs (s.apply i e).threads ∨
      0 < census (fun th => th.pc.swaps) (s.apply i e).threads
    rcases acts.result_true stands opened with before | mine
    · have kept := acts.arcs_kept placed before
      have someone := owned.someone before
      have still := acts.frame.1
      unfold State.strong at someone kept
      by_cases closed : e.handle.closed = true
      · exact .inl closed
      · have earlier : s.handle.closed ≠ true := fun yes => closed (still yes)
        have someone := someone.resolve_left earlier
        have kept := kept.resolve_left closed
        right
        omega
    · right
      left
      omega

theorem Owned.step (owned : Owned cfg s) (went : s.step cfg a = some t) : Owned cfg t := by
  cases a with
  | thread i c =>
    obtain ⟨th, member, went⟩ := Option.bind_eq_some_iff.mp went
    obtain ⟨e, gave, rfl⟩ := Option.map_eq_some_iff.mp went
    apply owned.apply member
    rcases threadStep_cases gave with opens | writes | closes
    · exact open_acts (owned.stands i th member) opens
    · exact write_acts (owned.placed member) writes
    · exact close_acts (owned.placed member) closes
  | move i m =>
    obtain ⟨th, member, went⟩ := Option.bind_eq_some_iff.mp went
    split at went
    · rename_i here
      obtain ⟨e, gave, rfl⟩ := Option.map_eq_some_iff.mp went
      exact owned.apply member (move_acts (owned.placed member) here gave)
    · cases went
  | clone i k =>
    change s.cloneStep i k = some t at went
    unfold State.cloneStep at went
    split at went
    · rename_i giver taker from_ here
      split at went
      · rename_i may
        cases went
        obtain ⟨outside, held, there⟩ := may
        have returned : s.handle.result ≠ none := by
          intro none
          have zero := (owned.quiet none i giver from_ (by rw [outside]; rfl)).1
          omega
        have acts : Acts cfg s taker ⟨s.handle, { taker with arcs := taker.arcs + 1 }, []⟩ :=
          .walk (there ▸ ⟨rfl, rfl, rfl, rfl, rfl, Pc.noConfusion, .inl rfl, .inl rfl, fun _ _ => rfl⟩)
            (Nat.le_succ _) (fun none => absurd none returned)
            (fun one => by rw [there] at one; cases one) nofun
        simpa only [State.apply, List.append_nil] using owned.apply here acts
      · cases went
    · cases went
  | reap w =>
    change (if _ then _ else _) = _ at went
    split at went
    · cases went
      obtain ⟨sound, stands, duties, locks, openers, closings, quiet, someone⟩ := owned
      obtain ⟨number, ordered, unopened, outcome, stray⟩ := sound
      refine ⟨⟨number, ordered, unopened, outcome, stray⟩, ?_, duties, locks, openers, closings,
        quiet, someone⟩
      intro i th member
      obtain ⟨publishes, keeps, reads, late, last, fresh⟩ := stands i th member
      exact ⟨publishes, keeps, reads, late, last, fresh⟩
    · cases went
  | spawn =>
    cases went
    obtain ⟨sound, stands, duties, locks, openers, closings, quiet, someone⟩ := owned
    have plain (f : Pc → Nat) (none : f .outside = 0) :
        census (fun th => f th.pc) (s.threads ++ [⟨false, 0, .outside, false, 0⟩]) =
          census (fun th => f th.pc) s.threads := by
      rw [census_concat, none, Nat.add_zero]
    refine ⟨sound, ?_, ?_, ?_, ?_, ?_, ?_, ?_⟩
    · intro i th member
      rcases getElem?_concat_cases member with old | ⟨_, rfl⟩
      · exact stands i th old
      · exact stands_plain (Nat.zero_le _) rfl rfl rfl
    · exact (plain Pc.duty rfl).trans duties
    · exact (plain Pc.holdsLock rfl).trans locks
    · exact (plain Pc.opening rfl).trans openers
    · rw [plain Pc.closing rfl]
      exact closings
    · intro none i th member other
      rcases getElem?_concat_cases member with old | ⟨_, rfl⟩
      · exact quiet none i th old other
      · exact ⟨rfl, rfl⟩
    · intro opened
      rcases someone opened with closed | held | swaps
      · exact .inl closed
      · right
        left
        unfold State.strong
        rw [census_concat]
        exact held
      · rw [plain Pc.swaps rfl]
        exact .inr (.inr swaps)

theorem Owned.new (cfg : Config) : Owned cfg .new := by
  refine ⟨⟨rfl, nofun, fun _ => rfl, nofun, rfl⟩, ?_, rfl, rfl, rfl, rfl, ?_, nofun⟩
  · intro i th member
    have first : th = ⟨false, 0, .checking, false, 0⟩ := by
      simpa [State.new] using List.mem_of_getElem? member
    subst first
    exact ⟨fun _ => rfl, fun _ => rfl, nofun, Nat.zero_le _, nofun, nofun⟩
  · intro _ i th member other
    have first : th = ⟨false, 0, .checking, false, 0⟩ := by
      simpa [State.new] using List.mem_of_getElem? member
    subst first
    cases other

theorem Reaches.owned (reach : Reaches cfg s) : Owned cfg s :=
  reach.invariant (fun _ start => start ▸ .new cfg) fun _ _ owned ⟨_, went⟩ => owned.step went

end Gusset.Descriptor
