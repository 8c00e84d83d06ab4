import Gusset.Writers.Program

/-! The bytes that went into the pipe are whole records, one call after the other, but for the call
that is writing and for calls that failed midway, which leave the handle poisoned. -/
namespace Gusset.Writers
open Foundation

variable {ρ : Type} (bytes : ρ → List Byte) {s t : State ρ} {i : Nat}

/-- What one step of a worker does. -/
inductive Moves (s : State ρ) (i : Nat) : State ρ → Prop
  | lock (record : ρ) (at_ : s.workers[i]? = some (.locking record)) (free : s.locked = none) :
      Moves s i ({ s with locked := some i }.goto i (.loading record))
  | refuse (record : ρ) (failure : Failure) (at_ : s.workers[i]? = some (.loading record))
      (gone : s.fd < 0) (kind : failure = .notConnected ↔ s.fd = -1) :
      Moves s i (s.unlock.finish i record [] (.error failure))
  | enter (record : ρ) (at_ : s.workers[i]? = some (.loading record)) :
      Moves s i (s.goto i (.writing record (bytes record) false))
  | finish (record : ρ) (committed : Bool)
      (at_ : s.workers[i]? = some (.writing record [] committed)) :
      Moves s i (s.unlock.finish i record (sent bytes record []) (.ok ()))
  | stay : Moves s i s
  | block (record : ρ) (remaining : List Byte)
      (at_ : s.workers[i]? = some (.writing record remaining false)) :
      Moves s i (s.unlock.goto i (.blocked record))
  | fail (record : ρ) (remaining : List Byte) (committed : Bool) (failure : Failure)
      (at_ : s.workers[i]? = some (.writing record remaining committed)) (left : remaining ≠ [])
      (kind : failure.hard = true ∧ failure ≠ .invalidInput)
      (late : failure = .timedOut → committed = true) :
      Moves s i (s.unlock.finish i record (sent bytes record remaining) (.error failure))
  | write (record : ρ) (remaining : List Byte) (committed : Bool) (n : Nat)
      (at_ : s.workers[i]? = some (.writing record remaining committed))
      (some_ : 0 < n) (fits : n ≤ remaining.length) :
      Moves s i ({ s with pipe := s.pipe ++ remaining.take n }.goto i
        (.writing record (remaining.drop n) true))
  | giveUp (record : ρ) (at_ : s.workers[i]? = some (.blocked record)) (closed : s.closed = true) :
      Moves s i (s.finish i record [] (.error .notConnected))
  | retry (record : ρ) (at_ : s.workers[i]? = some (.blocked record)) :
      Moves s i (s.goto i (.locking record))
  | poison (at_ : s.workers[i]? = some .poisoning) :
      Moves s i ({ s with poisoned := true }.goto i .idle)

variable {bytes}

theorem attempt_moves {record : ρ} {remaining : List Byte} {committed : Bool} {answer : Answer}
    (at_ : s.workers[i]? = some (.writing record remaining committed))
    (went : attempt bytes s i record remaining committed answer = some t) :
    Moves bytes s i t := by
  unfold attempt at went
  split at went
  · rename_i empty
    cases List.isEmpty_iff.mp empty
    cases went
    exact .finish record committed at_
  · rename_i left
    have some_left : remaining ≠ [] := fun empty => left (List.isEmpty_iff.mpr empty)
    cases answer with
    | interrupted =>
      cases went
      exact .stay
    | failed errno =>
      cases went
      exact .fail record remaining committed (.os errno) at_ some_left
        ⟨rfl, (fun same => by cases same)⟩ (fun same => by cases same)
    | full late =>
      simp only at went
      split at went
      · rename_i fresh
        cases went
        cases committed with
        | false => exact .block record remaining at_
        | true => cases fresh
      · rename_i begun
        split at went
        · cases went
          refine .fail record remaining committed .timedOut at_ some_left
            ⟨rfl, (fun same => by cases same)⟩ ?_
          intro _
          simpa using begun
        · cases went
          exact .stay
    | wrote n =>
      cases n with
      | zero =>
        cases went
        exact .fail record remaining committed .writeZero at_ some_left
          ⟨rfl, (fun same => by cases same)⟩ (fun same => by cases same)
      | succ n =>
        simp only at went
        split at went
        · rename_i fits
          cases went
          exact .write record remaining committed (n + 1) at_ (Nat.succ_pos n) fits
        · cases went

theorem turn_moves {answer : Answer} (went : turn bytes s i answer = some t) :
    Moves bytes s i t := by
  unfold turn at went
  split at went
  · rename_i record at_
    split at went
    · rename_i free
      cases went
      exact .lock record at_ (Option.isNone_iff_eq_none.mp free)
    · cases went
  · rename_i record at_
    split at went
    · rename_i gone
      cases went
      exact .refuse record .notConnected at_ (by omega) ⟨fun _ => gone, fun _ => rfl⟩
    · rename_i kept
      split at went
      · rename_i negative
        cases went
        exact .refuse record .invalidInput at_ negative
          ⟨(fun same => by cases same), fun gone => absurd gone kept⟩
      · cases went
        exact .enter record at_
  · rename_i record remaining committed at_
    exact attempt_moves at_ went
  · rename_i record at_
    split at went
    · rename_i closed
      cases went
      exact .giveUp record at_ closed
    · cases went
      exact .retry record at_
  · rename_i at_
    cases went
    exact .poison at_
  · cases went

/-- In an attempt: between taking `pipe_write_lock` and giving it back. -/
def Pc.holds : Pc ρ → Bool
  | .loading _ => true
  | .writing _ _ _ => true
  | _ => false

variable (bytes)

def Pc.sent : Pc ρ → List Byte
  | .writing record remaining _ => Writers.sent bytes record remaining
  | _ => []

/-- What the attempt under the lock has written of its record. -/
def State.underway (s : State ρ) : List Byte :=
  match s.locked with
  | none => []
  | some i => (s.workers[i]?.map (Pc.sent bytes)).getD []

/-- What a call that returned had written, and why it failed. -/
def Explained (s : State ρ) (c : Call ρ) : Prop :=
  match c.result with
  | .ok () => c.accepted = bytes c.record
  | .error .notConnected => c.accepted = [] ∧ (s.closed = true ∨ s.fd = -1)
  | .error .invalidInput => False
  | .error failure =>
    c.accepted <+: bytes c.record ∧ c.accepted ≠ bytes c.record ∧
      (failure = .timedOut → c.accepted ≠ []) ∧
      (s.poisoned = true ∨ s.workers[c.writer]? = some .poisoning)

/-- What is left of a record is a suffix of it, and `committed` says that a byte has gone in. -/
def Pc.Fits : Pc ρ → Prop
  | .writing record remaining committed =>
    remaining <:+ bytes record ∧ (committed = true ↔ remaining.length < (bytes record).length)
  | _ => True

/-- The invariant: one worker at most is in an attempt, and the bytes are those of the calls that
returned and then its own. -/
structure Framed (s : State ρ) : Prop where
  holder : ∀ (i : Nat) pc, s.workers[i]? = some pc → (pc.holds = true ↔ s.locked = some i)
  inside : ∀ i, s.locked = some i → i < s.workers.length
  fits : ∀ (i : Nat) pc, s.workers[i]? = some pc → pc.Fits bytes
  stream : s.taken ++ s.pipe = s.calls.flatMap Call.accepted ++ s.underway bytes
  explained : ∀ c ∈ s.calls, Explained bytes s c
  fd : s.fd = -1 ∨ 0 ≤ s.fd

section sent
variable {bytes} {record : ρ} {remaining : List Byte}

theorem sent_append (left : remaining <:+ bytes record) :
    sent bytes record remaining ++ remaining = bytes record := by
  obtain ⟨before, whole⟩ := left
  have length : (bytes record).length = before.length + remaining.length := by
    rw [← whole, List.length_append]
  have front : sent bytes record remaining = before := by
    unfold sent
    rw [length, Nat.add_sub_cancel, ← whole, List.take_left' rfl]
  rw [front, whole]

theorem sent_all : sent bytes record (bytes record) = [] := by
  unfold sent
  rw [Nat.sub_self, List.take_zero]

theorem sent_drop (left : remaining <:+ bytes record) (n : Nat) :
    sent bytes record (remaining.drop n) = sent bytes record remaining ++ remaining.take n := by
  have later : remaining.drop n <:+ bytes record := (List.drop_suffix n remaining).trans left
  have same : sent bytes record (remaining.drop n) ++ remaining.drop n =
      (sent bytes record remaining ++ remaining.take n) ++ remaining.drop n := by
    rw [sent_append later, List.append_assoc, List.take_append_drop, sent_append left]
  exact List.append_cancel_right same

theorem sent_front : sent bytes record remaining <+: bytes record := List.take_prefix _ _

theorem sent_part (left : remaining <:+ bytes record) (more : remaining ≠ []) :
    sent bytes record remaining ≠ bytes record := by
  intro whole
  have all := sent_append left
  rw [whole] at all
  exact more (List.append_right_eq_self.mp all)

theorem sent_some (left : remaining <:+ bytes record)
    (begun : remaining.length < (bytes record).length) : sent bytes record remaining ≠ [] := by
  intro none
  have all := sent_append left
  rw [none, List.nil_append] at all
  rw [all] at begun
  exact Nat.lt_irrefl _ begun

end sent

variable {bytes}

theorem Pc.sent_away {pc : Pc ρ} (away : pc.holds = false) : pc.sent bytes = [] := by
  cases pc with
  | writing record remaining committed => cases away
  | _ => rfl

theorem underway_at {pc : Pc ρ} (at_ : s.workers[i]? = some pc) (mine : s.locked = some i) :
    s.underway bytes = pc.sent bytes := by
  simp only [State.underway, mine, at_, Option.map_some, Option.getD_some]

theorem underway_free (free : s.locked = none) : s.underway bytes = [] := by
  simp only [State.underway, free]

/-- A worker that neither held the lock nor takes it leaves what is under way. -/
theorem underway_other {pc : Pc ρ} (workers : t.workers = s.workers.set i pc)
    (locked : t.locked = s.locked) (other : s.locked ≠ some i) :
    t.underway bytes = s.underway bytes := by
  unfold State.underway
  rw [locked, workers]
  cases holder : s.locked with
  | none => rfl
  | some j =>
    have apart : i ≠ j := fun same => other (same ▸ holder)
    simp only [List.getElem?_set_ne apart]

theorem Explained.keep {c : Call ρ} (told : Explained bytes s c)
    (closed : s.closed = true → t.closed = true) (fd : s.fd = -1 → t.fd = -1)
    (poison : s.poisoned = true ∨ s.workers[c.writer]? = some .poisoning →
      t.poisoned = true ∨ t.workers[c.writer]? = some .poisoning) : Explained bytes t c := by
  unfold Explained at told ⊢
  cases result : c.result with
  | ok done =>
    rw [result] at told
    exact told
  | error failure =>
    rw [result] at told
    cases failure with
    | notConnected => exact ⟨told.1, told.2.imp closed fd⟩
    | invalidInput => exact told
    | timedOut => exact ⟨told.1, told.2.1, told.2.2.1, poison told.2.2.2⟩
    | writeZero => exact ⟨told.1, told.2.1, told.2.2.1, poison told.2.2.2⟩
    | os errno => exact ⟨told.1, told.2.1, told.2.2.1, poison told.2.2.2⟩

/-- What a step of a worker has to do to keep the invariant: take and give back the lock as the
places it leaves and enters say, and account for every byte. -/
structure Keeps (bytes : ρ → List Byte) (s : State ρ) (i : Nat) (old new : Pc ρ)
    (more : List (Call ρ)) (wrote : List Byte) (t : State ρ) : Prop where
  workers : t.workers = s.workers.set i new
  calls : t.calls = s.calls ++ more
  piped : t.taken ++ t.pipe = s.taken ++ s.pipe ++ wrote
  locked : t.locked = if new.holds then some i else if old.holds then none else s.locked
  free : old.holds = false → new.holds = true → s.locked = none
  adds : old.sent bytes ++ wrote = more.flatMap Call.accepted ++ new.sent bytes
  quiet : old.holds = false → wrote = [] ∧ more.flatMap Call.accepted = []
  fits : new.Fits bytes
  fd : t.fd = s.fd
  closed : t.closed = s.closed
  poisoned : s.poisoned = true → t.poisoned = true
  calm : old = .poisoning → t.poisoned = true
  told : ∀ c ∈ more, Explained bytes t c

theorem Keeps.holder {old new : Pc ρ} {more : List (Call ρ)} {wrote : List Byte}
    (keeps : Keeps bytes s i old new more wrote t) (framed : Framed bytes s)
    (at_ : s.workers[i]? = some old) (j : Nat) (pc : Pc ρ) (there : t.workers[j]? = some pc) :
    pc.holds = true ↔ t.locked = some j := by
  have mine := framed.holder i old at_
  rw [keeps.workers] at there
  rw [keeps.locked]
  rcases getElem?_set_cases there with ⟨rfl, rfl⟩ | ⟨apart, before⟩
  · cases holds : pc.holds with
    | true => simp
    | false =>
      cases held : old.holds with
      | true => simp
      | false =>
        rw [held] at mine
        simpa using mine
  · have same := framed.holder j pc before
    rw [same]
    cases holds : new.holds with
    | true =>
      have away : s.locked ≠ some j := by
        intro other
        cases held : old.holds with
        | true => exact apart (Option.some.inj (other.symm.trans (mine.mp held)))
        | false => cases (keeps.free held holds).symm.trans other
      simp [away, Ne.symm apart]
    | false =>
      cases held : old.holds with
      | true => simp [mine.mp held, Ne.symm apart]
      | false => simp

theorem Keeps.stream {old new : Pc ρ} {more : List (Call ρ)} {wrote : List Byte}
    (keeps : Keeps bytes s i old new more wrote t) (framed : Framed bytes s)
    (at_ : s.workers[i]? = some old) :
    t.taken ++ t.pipe = t.calls.flatMap Call.accepted ++ t.underway bytes := by
  have mine := framed.holder i old at_
  have inside := (List.getElem?_eq_some_iff.mp at_).1
  have here : t.workers[i]? = some new := by
    rw [keeps.workers, List.getElem?_set_self inside]
  have after : new.holds = true → t.underway bytes = new.sent bytes := by
    intro holds
    exact underway_at here (by rw [keeps.locked, if_pos holds])
  rw [keeps.piped, framed.stream, keeps.calls, List.flatMap_append]
  cases held : old.holds with
  | true =>
    have before : s.underway bytes = old.sent bytes := underway_at at_ (mine.mp held)
    have now : t.underway bytes = new.sent bytes := by
      cases holds : new.holds with
      | true => exact after holds
      | false =>
        rw [Pc.sent_away holds]
        exact underway_free (by rw [keeps.locked, holds, held]; rfl)
    rw [before, now, List.append_assoc, keeps.adds, List.append_assoc]
  | false =>
    obtain ⟨none, nothing⟩ := keeps.quiet held
    have adds := keeps.adds
    rw [Pc.sent_away held, none, nothing, List.nil_append, List.nil_append] at adds
    rw [none, nothing, List.append_nil, List.append_nil]
    cases holds : new.holds with
    | true => rw [underway_free (keeps.free held holds), after holds, ← adds, List.append_nil]
    | false =>
      have away : s.locked ≠ some i := by
        intro other
        have holding := mine.mpr other
        rw [held] at holding
        cases holding
      rw [underway_other keeps.workers (by rw [keeps.locked, holds, held]; rfl) away]

theorem Keeps.framed {old new : Pc ρ} {more : List (Call ρ)} {wrote : List Byte}
    (keeps : Keeps bytes s i old new more wrote t) (framed : Framed bytes s)
    (at_ : s.workers[i]? = some old) : Framed bytes t where
  holder := keeps.holder framed at_
  inside j held := by
    rw [keeps.workers, List.length_set]
    rw [keeps.locked] at held
    split at held
    · cases held
      exact (List.getElem?_eq_some_iff.mp at_).1
    · split at held
      · cases held
      · exact framed.inside j held
  fits j pc there := by
    rw [keeps.workers] at there
    rcases getElem?_set_cases there with ⟨_, rfl⟩ | ⟨_, before⟩
    · exact keeps.fits
    · exact framed.fits j pc before
  stream := keeps.stream framed at_
  explained c member := by
    rw [keeps.calls] at member
    rcases List.mem_append.mp member with past | now
    · refine (framed.explained c past).keep (fun h => keeps.closed ▸ h) (fun h => keeps.fd ▸ h) ?_
      intro poison
      rcases poison with done | due
      · exact .inl (keeps.poisoned done)
      · by_cases same : c.writer = i
        · rw [same, at_] at due
          exact .inl (keeps.calm (Option.some.inj due))
        · right
          rw [keeps.workers, List.getElem?_set_ne (Ne.symm same)]
          exact due
    · exact keeps.told c now
  fd := by
    rw [keeps.fd]
    exact framed.fd

/-- A call returns from an attempt, with what it had written. -/
theorem finish_keeps {record : ρ} {accepted : List Byte} {result : Except Failure Unit}
    (old : Pc ρ) (held : old.holds = true) (sends : old.sent bytes = accepted)
    (calm : old ≠ .poisoning) (told : Explained bytes (s.unlock.finish i record accepted result)
      ⟨i, record, result, accepted⟩) :
    Keeps bytes s i old (if hard result then .poisoning else .idle) [⟨i, record, result, accepted⟩]
      [] (s.unlock.finish i record accepted result) where
  workers := rfl
  calls := rfl
  piped := (List.append_nil _).symm
  locked := by
    rw [held]
    cases hard result <;> rfl
  free away := by
    rw [held] at away
    cases away
  adds := by
    rw [sends]
    cases hard result <;> simp [Pc.sent]
  quiet away := by
    rw [held] at away
    cases away
  fits := by cases hard result <;> trivial
  fd := rfl
  closed := rfl
  poisoned := id
  calm due := absurd due calm
  told c member := by
    rw [List.mem_singleton.mp member]
    exact told

theorem poisoning_at {old : Pc ρ} {record : ρ} {accepted : List Byte} {failure : Failure}
    (at_ : s.workers[i]? = some old) (kind : failure.hard = true) :
    (s.unlock.finish i record accepted (.error failure)).workers[i]? = some .poisoning := by
  have inside := (List.getElem?_eq_some_iff.mp at_).1
  have pc : (if hard (.error failure) then .poisoning else .idle : Pc ρ) = .poisoning := if_pos kind
  simp only [State.finish, State.unlock, pc]
  exact List.getElem?_set_self inside

/-- A step that ends no call and writes nothing. -/
theorem goto_keeps {old new : Pc ρ} {locked : Option Nat} {poisoned : Bool}
    (lock : locked = if new.holds then some i else if old.holds then none else s.locked)
    (free : old.holds = false → new.holds = true → s.locked = none)
    (adds : old.sent bytes = new.sent bytes) (fits : new.Fits bytes)
    (latched : s.poisoned = true → poisoned = true) (calm : old = .poisoning → poisoned = true) :
    Keeps bytes s i old new [] [] ({ s with locked, poisoned }.goto i new) where
  workers := rfl
  calls := (List.append_nil _).symm
  piped := (List.append_nil _).symm
  locked := lock
  free := free
  adds := by rw [adds, List.append_nil, List.flatMap_nil, List.nil_append]
  quiet _ := ⟨rfl, rfl⟩
  fits := fits
  fd := rfl
  closed := rfl
  poisoned := latched
  calm := calm
  told := List.forall_mem_nil _

theorem write_keeps {record : ρ} {remaining : List Byte} {committed : Bool} {n : Nat}
    (mine : s.locked = some i) (left : remaining <:+ bytes record) (some_ : 0 < n)
    (room : n ≤ remaining.length) :
    Keeps bytes s i (.writing record remaining committed) (.writing record (remaining.drop n) true)
      [] (remaining.take n) ({ s with pipe := s.pipe ++ remaining.take n }.goto i
        (.writing record (remaining.drop n) true)) where
  workers := rfl
  calls := (List.append_nil _).symm
  piped := (List.append_assoc _ _ _).symm
  locked := mine
  free away := by cases away
  adds := (sent_drop left n).symm
  quiet away := by cases away
  fits := by
    have most := left.length_le
    refine ⟨(List.drop_suffix n remaining).trans left, ?_⟩
    rw [List.length_drop]
    exact ⟨fun _ => by omega, fun _ => rfl⟩
  fd := rfl
  closed := rfl
  poisoned := id
  calm due := by cases due
  told := List.forall_mem_nil _

theorem giveUp_keeps {record : ρ} (closed : s.closed = true) :
    Keeps bytes s i (.blocked record) .idle [⟨i, record, .error .notConnected, []⟩] []
      (s.finish i record [] (.error .notConnected)) where
  workers := rfl
  calls := rfl
  piped := (List.append_nil _).symm
  locked := rfl
  free _ away := by cases away
  adds := rfl
  quiet _ := ⟨rfl, rfl⟩
  fits := trivial
  fd := rfl
  closed := rfl
  poisoned := id
  calm due := by cases due
  told c member := by
    rw [List.mem_singleton.mp member]
    exact ⟨rfl, .inl closed⟩

theorem Moves.framed (framed : Framed bytes s) (moves : Moves bytes s i t) : Framed bytes t := by
  cases moves with
  | stay => exact framed
  | lock record at_ free =>
    have keeps : Keeps bytes s i (.locking record) (.loading record) [] []
        ({ s with locked := some i }.goto i (.loading record)) :=
      goto_keeps rfl (fun _ _ => free) rfl trivial id (fun due => by cases due)
    exact keeps.framed framed at_
  | refuse record failure at_ gone kind =>
    have away := framed.fd.resolve_right (by omega)
    cases kind.mpr away
    have told : Explained bytes (s.unlock.finish i record [] (.error .notConnected))
        ⟨i, record, .error .notConnected, []⟩ := ⟨rfl, .inr away⟩
    have keeps := finish_keeps (.loading record) rfl rfl (fun due => by cases due) told
    exact keeps.framed framed at_
  | enter record at_ =>
    have keeps : Keeps bytes s i (.loading record) (.writing record (bytes record) false) [] []
        (s.goto i (.writing record (bytes record) false)) :=
      goto_keeps ((framed.holder i _ at_).mp rfl) (fun away => by cases away) sent_all.symm
        ⟨List.suffix_rfl, by simp⟩ id (fun due => by cases due)
    exact keeps.framed framed at_
  | finish record committed at_ =>
    have whole : sent bytes record [] = bytes record := by
      have all := sent_append (framed.fits i _ at_).1
      rwa [List.append_nil] at all
    have told : Explained bytes (s.unlock.finish i record (sent bytes record []) (.ok ()))
        ⟨i, record, .ok (), sent bytes record []⟩ := whole
    have keeps :=
      finish_keeps (.writing record [] committed) rfl rfl (fun due => by cases due) told
    exact keeps.framed framed at_
  | block record remaining at_ =>
    have fits := framed.fits i _ at_
    have fresh : remaining = bytes record := by
      apply fits.1.eq_of_length
      have most := fits.1.length_le
      have few := fits.2.not.mp Bool.false_ne_true
      omega
    have nothing : sent bytes record remaining = [] := by
      rw [fresh]
      exact sent_all
    have keeps : Keeps bytes s i (.writing record remaining false) (.blocked record) [] []
        (s.unlock.goto i (.blocked record)) :=
      goto_keeps rfl (fun away => by cases away) nothing trivial id (fun due => by cases due)
    exact keeps.framed framed at_
  | fail record remaining committed failure at_ left kind late =>
    have fits := framed.fits i _ at_
    have part := sent_part fits.1 left
    have due : (s.unlock.finish i record (sent bytes record remaining)
        (.error failure)).workers[i]? = some .poisoning := poisoning_at at_ kind.1
    have told : Explained bytes
        (s.unlock.finish i record (sent bytes record remaining) (.error failure))
        ⟨i, record, .error failure, sent bytes record remaining⟩ := by
      unfold Explained
      cases failure with
      | notConnected => cases kind.1
      | invalidInput => exact absurd rfl kind.2
      | timedOut =>
        exact ⟨sent_front, part, fun _ => sent_some fits.1 (fits.2.mp (late rfl)), .inr due⟩
      | writeZero => exact ⟨sent_front, part, (fun same => by cases same), .inr due⟩
      | os errno => exact ⟨sent_front, part, (fun same => by cases same), .inr due⟩
    have keeps :=
      finish_keeps (.writing record remaining committed) rfl rfl (fun due => by cases due) told
    exact keeps.framed framed at_
  | write record remaining committed n at_ some_ room =>
    have mine := (framed.holder i _ at_).mp rfl
    exact (write_keeps mine (framed.fits i _ at_).1 some_ room).framed framed at_
  | giveUp record at_ closed => exact (giveUp_keeps closed).framed framed at_
  | retry record at_ =>
    have keeps : Keeps bytes s i (.blocked record) (.locking record) [] []
        (s.goto i (.locking record)) :=
      goto_keeps rfl (fun _ away => by cases away) rfl trivial id (fun due => by cases due)
    exact keeps.framed framed at_
  | poison at_ =>
    have keeps : Keeps bytes s i .poisoning .idle [] [] ({ s with poisoned := true }.goto i .idle) :=
      goto_keeps rfl (fun _ away => by cases away) rfl trivial (fun _ => rfl) (fun _ => rfl)
    exact keeps.framed framed at_

theorem opened_framed (fd : Nat) : Framed bytes (opened fd : State ρ) where
  holder i pc there := by cases there
  inside i held := by cases held
  fits i pc there := by cases there
  stream := rfl
  explained := List.forall_mem_nil _
  fd := .inr (Int.natCast_nonneg fd)

theorem publish_framed {record : ρ} (framed : Framed bytes s) (at_ : s.workers[i]? = some .idle) :
    Framed bytes (s.goto i (.locking record)) := by
  have keeps : Keeps bytes s i .idle (.locking record) [] [] (s.goto i (.locking record)) :=
    goto_keeps rfl (fun _ away => by cases away) rfl trivial id (fun due => by cases due)
  exact keeps.framed framed at_

theorem spawn_framed (framed : Framed bytes s) :
    Framed bytes { s with workers := s.workers ++ [.idle] } := by
  have stays {j : Nat} {pc : Pc ρ} (at_ : s.workers[j]? = some pc) :
      (s.workers ++ [.idle])[j]? = some pc := by
    rw [List.getElem?_append_left (List.getElem?_eq_some_iff.mp at_).1]
    exact at_
  have under : ({ s with workers := s.workers ++ [.idle] } : State ρ).underway bytes =
      s.underway bytes := by
    unfold State.underway
    cases s.locked with
    | none => rfl
    | some j =>
      simp only
      cases there : s.workers[j]? with
      | some pc => rw [stays there]
      | none =>
        cases now : (s.workers ++ [.idle])[j]? with
        | none => rfl
        | some pc =>
          rcases getElem?_concat_cases now with old | ⟨_, rfl⟩
          · cases there.symm.trans old
          · rfl
  constructor
  · intro j pc there
    rcases getElem?_concat_cases there with old | ⟨last, rfl⟩
    · exact framed.holder j pc old
    · constructor
      · intro away
        cases away
      · intro mine
        have below := framed.inside j mine
        omega
  · intro j held
    have below := framed.inside j held
    rw [List.length_append]
    omega
  · intro j pc there
    rcases getElem?_concat_cases there with old | ⟨_, rfl⟩
    · exact framed.fits j pc old
    · trivial
  · rw [under]
    exact framed.stream
  · intro c member
    exact (framed.explained c member).keep id id (fun poison => poison.imp_right stays)
  · exact framed.fd

theorem step_framed {act : Act ρ} (framed : Framed bytes s) (went : step bytes s act = some t) :
    Framed bytes t := by
  cases act with
  | spawn =>
    cases went
    exact spawn_framed framed
  | publish j record =>
    simp only [step] at went
    split at went
    · rename_i at_
      cases went
      exact publish_framed framed at_
    · cases went
  | turn j answer => exact (turn_moves went).framed framed
  | close =>
    cases went
    exact ⟨framed.holder, framed.inside, framed.fits, framed.stream,
      fun c member => (framed.explained c member).keep (fun _ => rfl) id id, framed.fd⟩
  | release =>
    simp only [step] at went
    split at went
    · cases went
      exact ⟨framed.holder, framed.inside, framed.fits, framed.stream,
        fun c member => (framed.explained c member).keep id (fun _ => rfl) id, .inl rfl⟩
    · cases went
  | read n =>
    cases went
    refine ⟨framed.holder, framed.inside, framed.fits, ?_, framed.explained, framed.fd⟩
    rw [List.append_assoc, List.take_append_drop]
    exact framed.stream

theorem reaches_framed (reach : Reaches bytes s) : Framed bytes s := by
  apply Reachable.invariant _ _ reach
  · rintro _ ⟨fd, rfl⟩
    exact opened_framed fd
  · rintro u v framed ⟨act, went⟩
    exact step_framed framed went

end Gusset.Writers
