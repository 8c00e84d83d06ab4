import Gusset.Wire.Reader
import Gusset.Writers.Framing

/-! What the reader makes of the bytes: the records of the calls that succeeded, in the order in
which they held the lock. -/
namespace Gusset.Writers
open Foundation Wire

variable {ρ : Type} {bytes : ρ → List Byte} {s : State ρ}

def Call.landed (c : Call ρ) : Bool :=
  match c.result with
  | .ok () => true
  | .error _ => false

/-- The records of the calls that returned `Ok`, oldest first. -/
def State.landed (s : State ρ) : List ρ := (s.calls.filter Call.landed).map Call.record

/-- The record of the attempt under the lock. -/
def State.current (s : State ρ) : List ρ :=
  match s.locked with
  | none => []
  | some i =>
    match s.workers[i]? with
    | some (.loading record) => [record]
    | some (.writing record _ _) => [record]
    | _ => []

/-- No call has failed but for a close, and none is about to say that it did. -/
def State.Unhurt (s : State ρ) : Prop := s.poisoned = false ∧ ∀ pc ∈ s.workers, pc ≠ .poisoning

theorem Explained.accepted {c : Call ρ} (told : Explained bytes s c) (unhurt : s.Unhurt) :
    c.accepted = if c.landed then bytes c.record else [] := by
  have healthy (failed : s.poisoned = true ∨ s.workers[c.writer]? = some .poisoning) : False := by
    rcases failed with latched | due
    · cases unhurt.1.symm.trans latched
    · exact unhurt.2 _ (List.mem_of_getElem? due) rfl
  unfold Explained at told
  unfold Call.landed
  cases result : c.result with
  | ok done =>
    rw [result] at told
    exact told
  | error failure =>
    rw [result] at told
    cases failure with
    | notConnected => exact told.1
    | invalidInput => exact told.elim
    | timedOut => exact (healthy told.2.2.2).elim
    | writeZero => exact (healthy told.2.2.2).elim
    | os errno => exact (healthy told.2.2.2).elim

theorem accepted_landed (unhurt : s.Unhurt) {calls : List (Call ρ)}
    (told : ∀ c ∈ calls, Explained bytes s c) :
    calls.flatMap Call.accepted = ((calls.filter Call.landed).map Call.record).flatMap bytes := by
  induction calls with
  | nil => rfl
  | cons c rest ih =>
    have first := (told c List.mem_cons_self).accepted unhurt
    have others := ih fun c member => told c (List.mem_cons_of_mem _ member)
    rw [List.flatMap_cons, first, others, List.filter_cons]
    split
    · rw [List.map_cons, List.flatMap_cons]
    · rw [List.nil_append]

theorem underway_current : s.underway bytes <+: s.current.flatMap bytes := by
  unfold State.underway State.current
  cases s.locked with
  | none => exact List.prefix_rfl
  | some i =>
    simp only
    cases s.workers[i]? with
    | none => exact List.prefix_rfl
    | some pc =>
      cases pc with
      | writing record remaining committed =>
        simp only [Option.map_some, Option.getD_some, List.flatMap_singleton]
        exact sent_front
      | _ => exact List.nil_prefix

/-- The bytes on the pipe, read or not, are what each call that returned had written, in order, and
then a part of the record under way. A call that succeeded wrote its record whole and a call that
met a closed handle wrote nothing; a call that failed midway leaves the handle poisoned, or is about
to poison it. As long as none has, the bytes are the whole records of the calls that succeeded. -/
theorem writes_whole (reach : Reaches bytes s) :
    s.taken ++ s.pipe = s.calls.flatMap Call.accepted ++ s.underway bytes ∧
      s.underway bytes <+: s.current.flatMap bytes ∧ (∀ c ∈ s.calls, Explained bytes s c) ∧
      (s.Unhurt → s.taken ++ s.pipe = s.landed.flatMap bytes ++ s.underway bytes) := by
  have framed := reaches_framed reach
  refine ⟨framed.stream, underway_current, framed.explained, ?_⟩
  intro unhurt
  rw [framed.stream, accepted_landed unhurt framed.explained]
  rfl

/-- A worker stops after 2 bytes of 3 on a full pipe, with another one waiting, and goes on. -/
def stalled : Option (State (List Byte)) :=
  follow (step id) (opened 5)
    [.spawn, .spawn, .publish 0 [1, 2, 3], .publish 1 [4], .turn 0 .interrupted, .turn 0 .interrupted,
      .turn 0 .interrupted, .turn 0 (.wrote 2), .turn 0 (.full false), .read 1, .turn 0 (.wrote 1),
      .turn 0 .interrupted, .turn 1 .interrupted, .turn 1 .interrupted, .turn 1 (.full false),
      .turn 1 .interrupted]

theorem stalled_runs : stalled.isSome = true := by decide

theorem writes_whole_stalled :
    (stalled.get stalled_runs).taken = [1] ∧ (stalled.get stalled_runs).pipe = [2, 3] ∧
      (stalled.get stalled_runs).taken ++ (stalled.get stalled_runs).pipe =
        (stalled.get stalled_runs).landed.flatMap id ++ (stalled.get stalled_runs).underway id := by
  have reach : Reaches id (stalled.get stalled_runs) :=
    follow_reaches id (Option.some_get stalled_runs).symm
  exact ⟨by decide, by decide, (writes_whole reach).2.2.2 ⟨by decide, by decide⟩⟩

section reader
variable {e : Endian} {held pipe : List Byte}

theorem stream_flatMap (l : List Record) : stream e l = l.flatMap (Record.encode e) := rfl

/-- From a cut stream the parser gets the records at its front. -/
theorem oracle_cut {l : List Record} (bytes : held ++ pipe = stream e l) :
    ∃ k, oracleParse e held = ((l.take k).map Record.entry, .eof) := by
  induction l generalizing held with
  | nil =>
    have empty : held = [] := (List.append_eq_nil_iff.mp bytes).1
    refine ⟨0, ?_⟩
    rw [empty, oracle_next]
    rfl
  | cons r rest ih =>
    rcases parse_stream bytes with none | ⟨r', rest', same, whole, later⟩
    · refine ⟨0, ?_⟩
      rw [oracle_next, none]
      rfl
    · cases same
      obtain ⟨k, parsed⟩ := ih later
      refine ⟨k + 1, ?_⟩
      rw [oracle_next, whole]
      simp only [parsed]
      rfl

/-- The reader never meets a corrupt record: whatever it has read so far parses to the first of the
records that calls wrote with success, in the order in which they held the lock, the one under way
coming last. Once no worker is in an attempt and the pipe is empty, it has parsed them all. -/
theorem reader_parses {s : State Record} (reach : Reaches (Record.encode e) s) (unhurt : s.Unhurt) :
    (∃ k, oracleParse e s.taken = (((s.landed ++ s.current).take k).map Record.entry, .eof)) ∧
      (s.locked = none → s.pipe = [] →
        oracleParse e s.taken = (s.landed.map Record.entry, .eof)) := by
  have whole := (writes_whole reach).2.2.2 unhurt
  constructor
  · obtain ⟨rest, completes⟩ := (writes_whole reach).2.1
    have cut : s.taken ++ (s.pipe ++ rest) = stream e (s.landed ++ s.current) := by
      rw [← List.append_assoc, whole, List.append_assoc, completes, stream_append, stream_flatMap,
        stream_flatMap]
    exact oracle_cut cut
  · intro free drained
    rw [drained, List.append_nil, underway_free free, List.append_nil] at whole
    rw [whole]
    exact oracle_stream e s.landed

theorem low_seven : (7 : Word).toNat < 2 ^ 63 := by decide

def seven : Record := ⟨7, none, low_seven, Record.short_none⟩

/-- The record of ticket 7 in two writes, with reads between and after them. -/
def halved : Option (State Record) :=
  follow (step (Record.encode .little)) (opened 5)
    [.spawn, .publish 0 seven, .turn 0 .interrupted, .turn 0 .interrupted, .turn 0 (.wrote 3),
      .read 2, .turn 0 (.full false), .turn 0 (.wrote 5), .turn 0 .interrupted, .read 6]

theorem halved_runs : halved.isSome = true := by decide

theorem reader_parses_halved :
    (halved.get halved_runs).taken.length = 8 ∧
      oracleParse .little (halved.get halved_runs).taken = ([(7, none)], .eof) := by
  have reach : Reaches (Record.encode .little) (halved.get halved_runs) :=
    follow_reaches _ (Option.some_get halved_runs).symm
  have parsed := (reader_parses reach ⟨by decide, by decide⟩).2 (by decide) (by decide)
  have landed : (halved.get halved_runs).landed.map Record.entry = [(7, none)] := by decide
  rw [landed] at parsed
  exact ⟨by decide, parsed⟩

end reader

end Gusset.Writers
