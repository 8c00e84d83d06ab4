import Gusset.Completion.Stream

/-! Whether the reader can block on the pipe with a whole record in its buffer. -/
namespace Gusset.Completion
open Foundation Wire Gusset.Ring

-- In `waitRing`, up to and including its `fillMode`.
def ReaderPc.waits : ReaderPc → Prop
  | .poll _ | .pollOverflow _ | .announce | .recheck | .recheckOverflow | .park => True
  | _ => False

-- About to call `fillMode`, with a ring.
def ReaderPc.fills : ReaderPc → Prop
  | .drain _ | .park => True
  | _ => False

/-- The reader waits with no whole record in hand, and reads into a buffer with room. -/
structure EmptyHanded (cfg : Config) (s : State) : Prop where
  hand : s.reader.pc.waits → parseBuffered cfg.endian s.reader.held = .none
  room : s.reader.pc.fills → s.reader.held.length < bufBytes

/-- The read that `next` does not notice: without blocking, exactly as many bytes as `fillMode` had
just moved away from the front, and with them a whole record. -/
def State.Overlooks (cfg : Config) (s : State) : Act → Prop
  | .reader n _ => s.reader.pc = .drain (s.reader.start + s.reader.held.length) ∧
      0 < s.reader.start ∧ s.readOnce true n = .bytes s.reader.start ∧
      parseBuffered cfg.endian (s.reader.held ++ s.pipe.take s.reader.start) ≠ .none
  | _ => False

instance (cfg : Config) (s : State) : (a : Act) → Decidable (s.Overlooks cfg a)
  | .reader _ _ => inferInstanceAs (Decidable (_ ∧ _ ∧ _ ∧ _ ≠ _))
  | .spawn | .complete _ _ | .worker _ _ | .take _ => isFalse id

-- `next` has just parsed and found nothing.
def ReaderPc.looked : ReaderPc → Prop
  | .pending | .drain _ => True
  | pc => pc.waits

/-- What carries it: nothing is in hand since the last parse, and `before` is the old `end`. -/
structure Looked (cfg : Config) (s : State) : Prop where
  hand : s.reader.pc.looked → parseBuffered cfg.endian s.reader.held = .none
  before : ∀ b, s.reader.pc = .drain b → b = s.reader.start + s.reader.held.length

variable {cfg : Config} {c : Capacity} {s t : State} {i : Nat}

theorem Looked.outside (out : ¬ t.reader.pc.looked) : Looked cfg t where
  hand := fun inside => absurd inside out
  before := by
    intro b place
    rw [place] at out
    exact absurd trivial out

theorem opened_looked (cfg : Config) : Looked cfg (.opened cfg) := by
  apply Looked.outside
  unfold State.opened
  cases cfg.ring <;> exact id

theorem Looked.empty_handed (looked : Looked cfg s) : EmptyHanded cfg s where
  hand := by
    intro waits
    apply looked.hand
    cases place : s.reader.pc <;> rw [place] at waits <;> first | exact waits | trivial
  room := by
    intro fills
    have none : parseBuffered cfg.endian s.reader.held = .none := by
      apply looked.hand
      cases place : s.reader.pc <;> rw [place] at fills <;> trivial
    have short := parse_none_short none
    unfold inlineRecordMax inlineHeaderBytes inlineResultMax at short
    unfold bufBytes
    omega

theorem waitRing_waits (s : State) : s.waitRing.waits ∧ ∀ b, s.waitRing ≠ .drain b := by
  unfold State.waitRing
  split <;> exact ⟨trivial, fun _ => ReaderPc.noConfusion⟩

theorem WorkerMove.reader (move : WorkerMove cfg s i t) : t.reader = s.reader := by
  cases move <;> rfl

theorem Turn.looked {pc : ReaderPc} (turn : Turn cfg s s.reader.pc pc) (looked : Looked cfg s) :
    Looked cfg (s.goto pc) := by
  have hand := looked.hand
  generalize place : s.reader.pc = p at turn
  rw [place] at hand
  cases turn with
  | none empty => exact ⟨fun _ => empty, fun _ => ReaderPc.noConfusion⟩
  | drain => exact ⟨fun _ => hand trivial, fun b same => by cases same; rfl⟩
  | wait none =>
    exact ⟨fun _ => hand trivial, fun b same => absurd same ((waitRing_waits s).2 b)⟩
  | quiet i => exact ⟨fun _ => hand trivial, fun _ => ReaderPc.noConfusion⟩
  | again i => exact ⟨fun _ => hand trivial, fun _ => ReaderPc.noConfusion⟩
  | spent i => exact ⟨fun _ => hand trivial, fun _ => ReaderPc.noConfusion⟩
  | still c ring no => exact ⟨fun _ => hand trivial, fun _ => ReaderPc.noConfusion⟩
  | park => exact ⟨fun _ => hand trivial, fun _ => ReaderPc.noConfusion⟩
  | _ => exact .outside id

/-- Where the reader goes after a readNow fill that it takes for an empty one. -/
theorem drain_step {n : Nat} {spent : Bool} {before : Nat} (place : s.reader.pc = .drain before)
    (went : s.readerStep cfg c n spent = some t) :
    (∃ m, s.readOnce true n = .bytes m ∧ s.reader.held.length + m = before ∧
      t = s.filled m s.waitRing) ∨ t.reader.pc = .next ∨ t.reader.pc = .failed := by
  simp only [State.readerStep, place] at went
  split at went
  · cases went
  · cases went
    exact .inr (.inr rfl)
  · rename_i m outcome
    cases went
    by_cases same : s.reader.held.length + m = before
    · left
      exact ⟨m, outcome, same, by rw [if_pos same]⟩
    · right
      left
      rw [if_neg same]
      rfl

theorem Looked.drain (looked : Looked cfg s) {n : Nat} {spent : Bool} {before : Nat}
    (place : s.reader.pc = .drain before) (noticed : ¬ s.Overlooks cfg (.reader n spent))
    (went : s.readerStep cfg c n spent = some t) : Looked cfg t := by
  rcases drain_step place went with ⟨m, outcome, same, rfl⟩ | next | failed
  · have old := looked.before before place
    have count : m = s.reader.start := by omega
    subst count old
    refine ⟨fun _ => ?_, fun b back => absurd back ((waitRing_waits s).2 b)⟩
    simp only [State.filled]
    rcases Nat.eq_zero_or_pos s.reader.start with zero | positive
    · rw [zero, List.take_zero, List.append_nil]
      exact looked.hand (by rw [place]; trivial)
    · by_contra found
      exact noticed ⟨place, positive, outcome, found⟩
  · exact .outside (by rw [next]; exact id)
  · exact .outside (by rw [failed]; exact id)

theorem ReaderMove.looked (move : ReaderMove cfg s t) (elsewhere : ∀ b, s.reader.pc ≠ .drain b)
    (looked : Looked cfg s) : Looked cfg t := by
  cases move with
  | turn pc turn => exact turn.looked looked
  | read c k k' m head here ring moved => exact .outside id
  | pop c k k' m head p here ring moved => exact .outside id
  | token size here found => exact .outside id
  | record p size seen pc here found =>
    rcases here with ⟨_, rfl, _⟩ | ⟨failed, _, rfl⟩ <;>
      exact .outside id
  | fill n pc fits some_bytes fill =>
    generalize place : s.reader.pc = p at fill
    cases fill with
    | noticed before n differs => exact absurd place (elsewhere before)
    | missed before n same => exact absurd place (elsewhere before)
    | drainEof before full => exact absurd place (elsewhere before)
    | _ => exact .outside id
  | announce here =>
    exact ⟨fun _ => looked.hand (by rw [here]; trivial), fun _ => ReaderPc.noConfusion⟩
  | retract failed here =>
    cases failed <;> exact .outside id

theorem Looked.step (looked : Looked cfg s) {a : Act} (noticed : ¬ s.Overlooks cfg a)
    (went : s.step cfg a = some t) : Looked cfg t := by
  have same : t.reader = s.reader → Looked cfg t := by
    intro kept
    exact ⟨by rw [kept]; exact looked.hand, by rw [kept]; exact looked.before⟩
  have move := step_moves went
  cases a with
  | reader n spent =>
    by_cases draining : ∃ b, s.reader.pc = .drain b
    · obtain ⟨b, place⟩ := draining
      simp only [State.step] at went
      split at went
      · exact looked.drain place noticed went
      · simp [State.pipeReaderStep, place] at went
    · simp only [State.step] at went
      split at went
      · rename_i c ring
        exact (readerStep_moves ring went).looked (fun b place => draining ⟨b, place⟩) looked
      · exact (pipeReaderStep_moves went).looked (fun b place => draining ⟨b, place⟩) looked
  | worker i weak => exact same (workerStep_moves went).reader
  | spawn =>
    cases went
    exact same rfl
  | complete i j =>
    simp only [State.step] at went
    split at went
    · cases went
      exact same rfl
    · cases went
  | take k =>
    simp only [State.step] at went
    split at went
    · cases went
      exact same rfl
    · cases went
      exact same rfl

namespace State

/-- In a run with no such read the reader never waits with a whole record in hand, and never reads
into an empty slice; and every such read ends in a state where it does wait with one. -/
theorem waits_empty_handed
    (reach : Reachable (· = opened cfg)
      (fun s t => ∃ a, ¬ s.Overlooks cfg a ∧ s.step cfg a = some t) s) :
    EmptyHanded cfg s ∧
      ∀ a t, s.Overlooks cfg a → s.step cfg a = some t → ¬ EmptyHanded cfg t := by
  have looked : Looked cfg s := by
    apply reach.invariant
    · rintro _ rfl
      exact opened_looked cfg
    · rintro s t looked ⟨a, noticed, went⟩
      exact looked.step noticed went
  refine ⟨looked.empty_handed, ?_⟩
  intro a t overlooked went handed
  cases a with
  | reader n spent =>
    obtain ⟨place, _, outcome, found⟩ := overlooked
    simp only [State.step] at went
    split at went
    · rw [readerStep, place] at went
      simp only [outcome, Nat.add_comm s.reader.start, if_true] at went
      cases went
      exact found (handed.hand (waitRing_waits s).1)
    · simp [State.pipeReaderStep, place] at went
  | spawn => cases overlooked
  | complete i j => cases overlooked
  | worker i weak => cases overlooked
  | take k => cases overlooked

/-- A first record wakes the reader and leaves a parsed token behind; the second one is taken from
the ring while its worker still owes the token. -/
def brink : Option State :=
  follow (fun s a => if s.Overlooks .small a then none else s.step .small a) (opened .small)
    (([.spawn, .spawn] : List Act) ++ Act.readers 6 ++
      ([.complete 0 (.failing 1 Nat.one_pos Job.one_low)] : List Act) ++ Act.workers 0 9 ++
      Act.readers 27 ++ ([.complete 1 (.failing 2 Nat.two_pos Job.two_low)] : List Act) ++
      Act.workers 1 8 ++ Act.readers 8 ++ Act.workers 1 1)

theorem brink_runs : brink.isSome = true := by decide

theorem waits_empty_handed_brink :
    EmptyHanded .small (brink.get brink_runs) ∧ ∃ t,
      (brink.get brink_runs).step .small (.reader bufBytes true) = some t ∧
      ¬ EmptyHanded .small t := by
  have reach : Reachable (· = opened .small)
      (fun s t => ∃ a, ¬ s.Overlooks .small a ∧ s.step .small a = some t)
      (brink.get brink_runs) := by
    refine Reachable.follow ?_ (.start rfl) (Option.some_get brink_runs).symm
    intro s a t went
    split at went
    · cases went
    · rename_i noticed
      exact ⟨a, noticed, went⟩
  obtain ⟨handed, exact_condition⟩ := waits_empty_handed reach
  exact ⟨handed, _, rfl, exact_condition (.reader bufBytes true) _ (by decide) rfl⟩

/-- The eight bytes of that token replace the eight bytes just moved away, and the reader goes to
wait for the ring with the token in its buffer. -/
def overlooked : Option State :=
  follow (State.step .small) (opened .small)
    (([.spawn, .spawn] : List Act) ++ Act.readers 6 ++
      ([.complete 0 (.failing 1 Nat.one_pos Job.one_low)] : List Act) ++ Act.workers 0 9 ++
      Act.readers 27 ++ ([.complete 1 (.failing 2 Nat.two_pos Job.two_low)] : List Act) ++
      Act.workers 1 8 ++ Act.readers 8 ++ Act.workers 1 1 ++ Act.readers 1)

theorem overlooked_runs : overlooked.isSome = true := by decide

theorem waits_with_token : ¬ ∀ cfg s, cfg.ring.isSome → Reaches cfg s → EmptyHanded cfg s := by
  intro always
  have handed := always .small (overlooked.get overlooked_runs) rfl
    (follow_reaches (.start rfl) (Option.some_get overlooked_runs).symm)
  have waits : (overlooked.get overlooked_runs).reader.pc = .poll 0 := by decide
  have none := handed.hand (by rw [waits]; trivial)
  revert none
  decide

end State

end Gusset.Completion
