import Gusset.Boundary.Status

/-! Every failure an export reports reaches Go as it was reported, and the message behind it is
freed once. -/
namespace Gusset.Boundary
open Foundation Utf8

/-- A status message and its location, as an export reports them. -/
structure Report where
  text : Text
  file : Option Text
  line : Nat

def Outcome.report : Outcome → Report
  | .ok => ⟨[], none, 0⟩
  | .err _ msg file line => ⟨truncatePayload msg, file, line⟩
  | .panic payload file line boxed => ⟨if boxed then truncatePayload payload else [], file, line⟩

/-- What a request reports under a code: its own failure, unless the latch comes first. -/
def Request.report (r : Request) : Code → Report
  | .ok => ⟨[], none, 0⟩
  | .poisoned => ⟨handlePoisoned, none, 0⟩
  | _ =>
    match r.early.or r.late with
    | some msg => ⟨msg, none, 0⟩
    | none => r.outcome.report

theorem truncated_valid : Valid truncated := ⟨_, rfl⟩

/-- A payload is cut between characters, and is never longer than Go reads. -/
theorem truncatePayload_fits (s : Text) :
    (truncatePayload s).length ≤ 65536 ∧ (Valid s → Valid (truncatePayload s)) := by
  have cut := Logs.lastBoundary_spec s maxPanicPayloadBytes
  have most : maxPanicPayloadBytes = 32768 := rfl
  have tail : truncated.length = 15 := by decide
  unfold truncatePayload
  split
  · constructor
    · rw [List.length_append, List.length_take, tail]
      omega
    · intro valid
      exact (valid.cut (Logs.isCharBoundary_boundary valid cut.2)).1.append truncated_valid
  · exact ⟨by omega, id⟩

/-- A status that carries a report, whose message is the only box on the heap. -/
structure Holds (st : FfiStatus) (h : Heap) (code : Code) (r : Report) : Prop where
  code : st.code = code
  file : st.file = r.file
  line : st.line = r.line
  sound : h.invalid = false
  msg : (r.text = [] ∧ st.msg = none ∧ ∀ b, h.live b = none) ∨
    ∃ at_, at_ < h.next ∧ r.text ≠ [] ∧ st.msg = some at_ ∧ st.msgLen = r.text.length ∧
      ∀ b, h.live b = if b = at_ then some r.text else none

structure Heap.Empty (h : Heap) : Prop where
  live : ∀ b, h.live b = none
  sound : h.invalid = false

section status
variable {h : Heap} {st : FfiStatus} {code code' : Code} {r : Report}

theorem ok_holds (empty : h.Empty) : Holds .ok h .ok ⟨[], none, 0⟩ :=
  ⟨rfl, rfl, rfl, empty.sound, .inl ⟨rfl, rfl, empty.live⟩⟩

theorem newErr_holds (empty : h.Empty) (text : Text) (file : Option Text) (line : Nat) :
    Holds (FfiStatus.newErr h code text file line).1 (FfiStatus.newErr h code text file line).2 code
      ⟨text, file, line⟩ := by
  unfold FfiStatus.newErr
  split
  · rename_i none
    exact ⟨rfl, rfl, rfl, empty.sound, .inl ⟨List.isEmpty_iff.mp none, rfl, empty.live⟩⟩
  · rename_i some_
    refine ⟨rfl, rfl, rfl, empty.sound, .inr ⟨h.next, Nat.lt_succ_self _, ?_, rfl, rfl, ?_⟩⟩
    · intro none
      exact some_ (List.isEmpty_iff.mpr none)
    · intro b
      simp only [Heap.box, Function.update_apply, empty.live]

theorem Holds.freed (holds : Holds st h code r) : (st.freeMsg h).Empty := by
  rcases holds.msg with ⟨_, none, empty⟩ | ⟨at_, _, some_, msg, length, live⟩
  · unfold FfiStatus.freeMsg
    rw [none]
    exact ⟨empty, holds.sound⟩
  · have here : (h.live at_).map List.length = some st.msgLen := by
      rw [live, if_pos rfl, length]
      rfl
    have long : 0 < st.msgLen := by
      rw [length]
      exact List.length_pos_iff.mpr some_
    unfold FfiStatus.freeMsg
    simp only [msg, if_pos long, Heap.free, if_pos here]
    refine ⟨?_, holds.sound⟩
    intro b
    simp only [Function.update_apply, live]
    split
    · rfl
    · rfl

theorem newErr_boxes {text : Text} (some_text : text ≠ []) (file : Option Text) (line : Nat) :
    FfiStatus.newErr h code text file line =
      (⟨code, some h.next, text.length, file, line⟩, (h.box text).2) := by
  unfold FfiStatus.newErr
  rw [if_neg (fun none => some_text (List.isEmpty_iff.mp none))]
  rfl

/-- Building a status before the old message is freed leaves the new message alone. -/
theorem Holds.overwritten (holds : Holds st h code r) (text : Text) (some_text : text ≠ []) :
    Holds (FfiStatus.newErr h code' text none 0).1
      (st.freeMsg (FfiStatus.newErr h code' text none 0).2) code' ⟨text, none, 0⟩ := by
  rw [newErr_boxes some_text]
  rcases holds.msg with ⟨_, none, empty⟩ | ⟨at_, below, some_, msg, length, live⟩
  · refine ⟨rfl, rfl, rfl, ?_, .inr ⟨h.next, ?_, some_text, rfl, rfl, ?_⟩⟩
    · simp only [FfiStatus.freeMsg, none]
      exact holds.sound
    · simp only [FfiStatus.freeMsg, none]
      exact Nat.lt_succ_self _
    · intro b
      simp only [FfiStatus.freeMsg, none, Heap.box, Function.update_apply, empty]
  · have apart : at_ ≠ h.next := Nat.ne_of_lt below
    have long : 0 < st.msgLen := by
      rw [length]
      exact List.length_pos_iff.mpr some_
    have here : ((h.box text).2.live at_).map List.length = some st.msgLen := by
      simp only [Heap.box, Function.update_apply, if_neg apart, live, if_pos, length, Option.map_some]
    simp only [FfiStatus.freeMsg, msg, if_pos long, Heap.free, if_pos here]
    refine ⟨rfl, rfl, rfl, holds.sound, .inr ⟨h.next, Nat.lt_succ_self _, some_text, rfl, rfl, ?_⟩⟩
    intro b
    simp only [Heap.box, Function.update_apply, live]
    split
    · rename_i same
      rw [same, if_neg apart]
    · rfl

theorem Holds.told (holds : Holds st h code r) (fails : code ≠ .ok) :
    (statusToError st h).1 = ⟨code, r.text.take 65536, (r.file.getD []).take 4096, r.line⟩ ∧
      (statusToError st h).2.Empty := by
  have failed : st.code ≠ .ok := holds.code ▸ fails
  unfold statusToError
  rw [if_neg failed]
  refine ⟨?_, holds.freed⟩
  have text : goMessage st h = r.text.take 65536 := by
    unfold goMessage
    rcases holds.msg with ⟨nothing, none, _⟩ | ⟨at_, _, _, msg, length, live⟩
    · rw [none, nothing]
      rfl
    · simp only [msg, live, if_pos, Option.getD_some, length]
      rw [Nat.min_comm]
      exact List.take_eq_take_min.symm
  rw [text, holds.code, holds.file, holds.line]

end status

/-- What `run` makes of a status and an empty heap. -/
def Reports (r : Request) (was : Bool) (ends : Code × Bool × Cell) : Prop :=
  ∃ st h, ends.2.2 = (some st, h) ∧ Holds st h ends.1 (r.report ends.1) ∧
    (was = true → ends.2.1 = true) ∧ (ends.1 = .panic → r.kind ≠ .opening → ends.2.1 = true)

section run
variable {h : Heap} {st : FfiStatus} {r : Request} {was : Bool}

theorem handlePoisoned_some : handlePoisoned ≠ [] := by decide

theorem guard_holds (empty : h.Empty) (st : FfiStatus) (o : Outcome) :
    ∃ st' h', (ffiGuardCode (some st, h) o).2 = (some st', h') ∧
      Holds st' h' (ffiGuardCode (some st, h) o).1 o.report := by
  cases o with
  | ok => exact ⟨_, _, rfl, ok_holds empty⟩
  | err code msg file line => exact ⟨_, _, rfl, newErr_holds empty _ _ _⟩
  | panic payload file line boxed =>
    refine ⟨_, _, rfl, ?_⟩
    cases boxed with
    | true => exact newErr_holds empty _ _ _
    | false => exact ⟨rfl, rfl, rfl, empty.sound, .inl ⟨rfl, rfl, empty.live⟩⟩

theorem guard_code (cell cell' : Cell) (o : Outcome) :
    (ffiGuardCode cell o).1 = (ffiGuardCode cell' o).1 := by
  cases o <;> rfl

theorem guard_null (o : Outcome) : (ffiGuardCode (none, h) o).2 = (none, h) := by
  cases o <;> rfl

/-- The report of a call that reached its closure. -/
theorem guard_report (early : r.early = none) (late : r.late = none) (cell : Cell) :
    r.report (ffiGuardCode cell r.outcome).1 = r.outcome.report := by
  unfold Request.report
  rw [early, late]
  cases r.outcome with
  | ok => rfl
  | err code msg file line => cases code <;> rfl
  | panic payload file line boxed => rfl

theorem refused_report {code : Code} (empty : h.Empty) (msg : Text)
    (same : r.report code = ⟨msg, none, 0⟩) (fails : code ≠ .panic) (now : Bool)
    (latch : was = true → now = true) : Reports r was (code, now, refuse (some st, h) code msg) :=
  ⟨_, _, rfl, same ▸ newErr_holds empty msg none 0, latch, fun panic _ => absurd panic fails⟩

theorem checked_reports {code : Code} {cell : Cell} {st' : FfiStatus} {h' : Heap}
    (here : cell = (some st', h')) (holds : Holds st' h' code (r.report code)) (now : Bool)
    (latch : was = true → now = true) : Reports r was (poisonCheckedOutcome now code cell) := by
  have other (normal : code ≠ .panic) :
      Reports r was (if now then (Code.poisoned, now, overwrite cell fun h =>
        FfiStatus.newErr h .poisoned handlePoisoned none 0) else (code, now, cell)) := by
    split
    · rw [here]
      exact ⟨_, _, rfl, holds.overwritten _ handlePoisoned_some, latch, fun panic => by cases panic⟩
    · exact ⟨_, _, here, holds, latch, fun panic _ => absurd panic normal⟩
  cases code with
  | ok => exact ⟨_, _, here, holds, latch, fun panic => by cases panic⟩
  | panic => exact ⟨_, _, here, holds, fun _ => rfl, fun _ _ => rfl⟩
  | err => exact other (by decide)
  | poisoned => exact other (by decide)
  | badArg => exact other (by decide)

theorem run_reports (empty : h.Empty) : Reports r was (run was (some st, h) r) := by
  unfold run
  cases early : r.early with
  | some msg =>
    have same : r.report .badArg = ⟨msg, none, 0⟩ := by
      simp only [Request.report, early, Option.some_or]
    exact refused_report empty msg same (by decide) was id
  | none =>
    simp only
    split
    · exact refused_report empty handlePoisoned rfl (by decide) was id
    · cases late : r.late with
      | some msg =>
        have same : r.report .badArg = ⟨msg, none, 0⟩ := by
          simp only [Request.report, early, late, Option.none_or]
        exact refused_report empty msg same (by decide) was id
      | none =>
        obtain ⟨st', h', here, holds⟩ := guard_holds empty st r.outcome
        rw [← guard_report early late] at holds
        have latch : was = true → (was || r.latched) = true := by
          intro poisoned
          rw [poisoned, Bool.true_or]
        simp only
        cases kind : r.kind with
        | opening =>
          exact ⟨_, _, here, holds, latch, fun _ other => absurd kind other⟩
        | plain =>
          refine ⟨_, _, here, holds, ?_, ?_⟩
          · intro poisoned
            simp only [handleOutcome, latch poisoned, Bool.true_or]
          · intro panic _
            simp only [handleOutcome] at panic ⊢
            rw [panic]
            simp
        | checked => exact checked_reports here holds _ latch

/-- Without a status the code and the latch are the same, and nothing is allocated. -/
theorem run_null (was : Bool) (r : Request) (st : FfiStatus) (h : Heap) :
    (run was (none, h) r).1 = (run was (some st, h) r).1 ∧
      (run was (none, h) r).2.1 = (run was (some st, h) r).2.1 ∧
      (run was (none, h) r).2.2 = (none, h) := by
  have checked (now : Bool) (code : Code) (cell : Cell) :
      (poisonCheckedOutcome now code (none, h)).1 = (poisonCheckedOutcome now code cell).1 ∧
        (poisonCheckedOutcome now code (none, h)).2.1 = (poisonCheckedOutcome now code cell).2.1 ∧
        (poisonCheckedOutcome now code (none, h)).2.2 = (none, h) := by
    cases code <;> cases now <;> exact ⟨rfl, rfl, rfl⟩
  unfold run
  cases r.early with
  | some msg => exact ⟨rfl, rfl, rfl⟩
  | none =>
    simp only
    split
    · exact ⟨rfl, rfl, rfl⟩
    · cases r.late with
      | some msg => exact ⟨rfl, rfl, rfl⟩
      | none =>
        simp only [guard_null]
        rw [guard_code (none, h) (some st, h)]
        cases r.kind with
        | opening => exact ⟨rfl, rfl, rfl⟩
        | plain => exact ⟨rfl, rfl, rfl⟩
        | checked => exact checked _ _ _

end run

/-- What a call gave Go: an error exactly when the export failed, with its code and its report. -/
structure Carried (poisoned : Bool) (c : Called) : Prop where
  answered : c.error = none ↔ c.code = .ok
  told : ∀ e, c.error = some e → e.code = c.code ∧
    e.msg = (c.request.report c.code).text.take 65536 ∧
    e.file = ((c.request.report c.code).file.getD []).take 4096 ∧
    e.line = (c.request.report c.code).line
  latched : c.code = .panic → c.request.kind ≠ .opening → poisoned = true

structure Sound (w : World) : Prop where
  empty : w.heap.Empty
  carried : ∀ c ∈ w.calls, Carried w.poisoned c

theorem Carried.later {was now : Bool} {c : Called} (carried : Carried was c)
    (latch : was = true → now = true) : Carried now c :=
  ⟨carried.answered, carried.told, fun panic kind => latch (carried.latched panic kind)⟩

theorem Sound.received {w : World} {r : Request} {ends : Code × Bool × Cell} (sound : Sound w)
    (reports : Reports r w.poisoned ends) : Sound (received w r ends) := by
  obtain ⟨code, now, cell⟩ := ends
  obtain ⟨st, h, here, holds, latch, panics⟩ := reports
  simp only at here holds latch panics
  subst here
  have past : ∀ c ∈ w.calls, Carried now c :=
    fun c member => (sound.carried c member).later latch
  unfold Boundary.received
  simp only
  split
  · rename_i fine
    constructor
    · have text : (r.report code).text = [] := by
        rw [fine]
        rfl
      rcases holds.msg with ⟨_, _, empty⟩ | ⟨_, _, some_, _⟩
      · exact ⟨empty, holds.sound⟩
      · exact absurd text some_
    · intro c member
      rcases List.mem_append.mp member with old | new
      · exact past c old
      · rw [List.mem_singleton.mp new]
        exact ⟨⟨fun _ => fine, fun _ => rfl⟩, (fun e told => by cases told), panics⟩
  · rename_i fails
    obtain ⟨told, empty⟩ := holds.told fails
    refine ⟨empty, ?_⟩
    intro c member
    rcases List.mem_append.mp member with old | new
    · exact past c old
    · rw [List.mem_singleton.mp new]
      refine ⟨⟨(fun none => by cases none), fun fine => absurd fine fails⟩, ?_, panics⟩
      intro e same
      rw [← Option.some.inj same, told]
      exact ⟨rfl, rfl, rfl, rfl⟩

theorem Sound.step {w : World} (sound : Sound w) (act : Act) : Sound (step w act) := by
  cases act with
  | latch => exact ⟨sound.empty, fun c member => (sound.carried c member).later fun _ => rfl⟩
  | call r => exact sound.received (run_reports sound.empty)

theorem reaches_sound {w : World} (reach : Reaches w) : Sound w := by
  apply Reachable.invariant _ _ reach
  · rintro _ rfl
    exact ⟨⟨fun _ => rfl, rfl⟩, List.forall_mem_nil _⟩
  · rintro u v sound ⟨act, rfl⟩
    exact sound.step act

/-- Between two calls from Go no status message is left on the Rust heap and none was freed that was
not there. Every export that failed gave Go an error with its own code and the text, file and line
it reported, every other one gave none; the text of an engine or of a panic is whole, and UTF-8 if
it was. A panic in an export of a handle leaves the handle poisoned. A host that passes no status
gets the same code. -/
theorem errors_carried {w : World} (reach : Reaches w) :
    (∀ b, w.heap.live b = none) ∧ w.heap.invalid = false ∧
      (∀ c ∈ w.calls, Carried w.poisoned c) ∧
      (∀ c ∈ w.calls, c.request.early = none → c.request.late = none → c.code ≠ .poisoned →
        ∀ e, c.error = some e → e.msg = c.request.outcome.report.text) ∧
      ∀ r, (run w.poisoned (none, w.heap) r).1 = (run w.poisoned (some .ok, w.heap) r).1 ∧
        (run w.poisoned (none, w.heap) r).2.1 = (run w.poisoned (some .ok, w.heap) r).2.1 ∧
        (run w.poisoned (none, w.heap) r).2.2 = (none, w.heap) := by
  have sound := reaches_sound reach
  refine ⟨sound.empty.live, sound.empty.sound, sound.carried, ?_, fun r => run_null _ r _ _⟩
  intro c member early late other e failed
  have carried := sound.carried c member
  have fails : c.code ≠ .ok := fun fine => by
    rw [carried.answered.mpr fine] at failed
    cases failed
  have report : c.request.report c.code = c.request.outcome.report := by
    unfold Request.report
    rw [early, late]
    cases code : c.code with
    | ok => exact absurd code fails
    | poisoned => exact absurd code other
    | err => rfl
    | panic => rfl
    | badArg => rfl
  have short : c.request.outcome.report.text.length ≤ 65536 := by
    cases c.request.outcome with
    | ok => exact Nat.zero_le _
    | err code msg file line => exact (truncatePayload_fits msg).1
    | panic payload file line boxed =>
      cases boxed with
      | true => exact (truncatePayload_fits payload).1
      | false => exact Nat.zero_le _
  rw [(carried.told e failed).2.1, report, List.take_of_length_le short]

/-- A take that reports a panic, then a submit that is refused. -/
def panicked : World :=
  step (step .new (.call ⟨.plain, none, none, .err .panic [80] (some [47]) 7, false⟩))
    (.call ⟨.checked, none, none, .ok, false⟩)

theorem errors_carried_panicked :
    panicked.calls.map Called.error =
        [some ⟨.panic, [80], [47], 7⟩, some ⟨.poisoned, handlePoisoned, [], 0⟩] ∧
      panicked.heap.live 0 = none ∧ panicked.heap.invalid = false := by
  have start : Reaches .new := .start rfl
  have reach : Reaches panicked := (start.next ⟨_, rfl⟩).next ⟨_, rfl⟩
  have carried := errors_carried reach
  exact ⟨by decide, carried.1 0, carried.2.1⟩

end Gusset.Boundary
