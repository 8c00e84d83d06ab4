import Gusset.Foundation.Utf8

/-! The errors that a worker's Submit and Wait return, how `errors.Is` looks at them, and what is
left of them after encodeError, the JSON of the frame and decode. -/
namespace Gusset.Isolate
open Foundation

-- A Go string: bytes, UTF-8 or not.
abbrev Text := List UInt8

def text (s : String) : Text := Utf8.encode s.toList

/-- The errors that are one value each: `errors.New` in gusset and the two of package context. -/
inductive Named
  | closed | shutdown | tooManyUncollected | deadlineExceeded | canceled
  | inputTooLarge | unknownTicket | ticketBusy
  deriving DecidableEq, Repr

def Named.text : Named → Text
  | .closed => Isolate.text "gusset: handle is closed"
  | .shutdown => Isolate.text "gusset: runtime is shutting down"
  | .tooManyUncollected => Isolate.text "gusset: too many uncollected results"
  | .deadlineExceeded => Isolate.text "context deadline exceeded"
  | .canceled => Isolate.text "context canceled"
  | .inputTooLarge =>
    Isolate.text "gusset: []byte input exceeds 4096-byte copy limit; use NewBuffer"
  | .unknownTicket => Isolate.text "gusset: unknown or already-awaited ticket"
  | .ticketBusy => Isolate.text "gusset: ticket already has a waiter"

/-- `gusset.Error`. -/
structure FfiError where
  code : Int
  msg : Text
  file : Text
  line : Int
  deriving DecidableEq, Repr

def ffiErr : Int := 1
def ffiPanic : Int := 2
def ffiPoisoned : Int := 3
def ffiBadArg : Int := 4

def FfiError.text (e : FfiError) : Text :=
  if e.file ≠ [] ∧ 0 < e.line then
    Isolate.text s!"gusset error [{e.code}]: " ++ e.msg ++ Isolate.text " (at " ++ e.file ++
      Isolate.text s!":{e.line})"
  else Isolate.text s!"gusset error [{e.code}]: " ++ e.msg

/-- An error as the tree that `Unwrap` shows: `wrap` has one parent (textError, remoteError with a
base, `fmt.Errorf` with one `%w`), `both` has two (drainExitError, `fmt.Errorf` with two), `plain`
none. -/
inductive GoErr
  | named (n : Named)
  | ffi (e : FfiError)
  | wrap (msg : Text) (base : GoErr)
  | both (msg : Text) (first second : GoErr)
  | plain (msg : Text)
  deriving DecidableEq, Repr

/-- What callers test an error against. -/
inductive Sentinel
  | generic | panic | poisoned | badArg
  | closed | shutdown | tooManyUncollected | deadlineExceeded | canceled
  deriving DecidableEq, Repr

def Named.is : Named → Sentinel → Bool
  | .closed, .closed | .shutdown, .shutdown | .tooManyUncollected, .tooManyUncollected
  | .deadlineExceeded, .deadlineExceeded | .canceled, .canceled => true
  | _, _ => false

/-- `Error.Is`: by code against another `*Error`, by message against the others. -/
def FfiError.is (e : FfiError) : Sentinel → Bool
  | .generic => e.code = ffiErr
  | .panic => e.code = ffiPanic
  | .poisoned => e.code = ffiPoisoned
  | .badArg => e.code = ffiBadArg
  | .deadlineExceeded => e.msg = Isolate.text "cancelled: DeadlineExceeded"
  | .canceled => e.msg = Isolate.text "cancelled: Explicit"
  | .shutdown => e.msg = Isolate.text "cancelled: Shutdown" ∨
      e.msg = Isolate.text "gusset runtime is shutting down"
  | .closed | .tooManyUncollected => false

namespace GoErr

def text : GoErr → Text
  | .named n => n.text
  | .ffi e => e.text
  | .wrap msg _ | .both msg _ _ | .plain msg => msg

-- `errors.Is`.
def is : GoErr → Sentinel → Bool
  | .named n, s => n.is s
  | .ffi e, s => e.is s
  | .wrap _ base, s => base.is s
  | .both _ first second, s => first.is s || second.is s
  | .plain _, _ => false

-- `errors.As` for a `*gusset.Error`: the first in depth-first order.
def asFfi : GoErr → Option FfiError
  | .ffi e => some e
  | .wrap _ base => base.asFfi
  | .both _ first second => first.asFfi.or second.asFfi
  | .named _ | .plain _ => none

end GoErr

inductive Kind | ffi | closed | shutdown | deadline | canceled | other
  deriving DecidableEq, Repr

structure WireError where
  code : Int
  msg : Text
  file : Text
  line : Int
  kind : Kind
  deriving DecidableEq, Repr

def encodeError (err : GoErr) : WireError :=
  match err.asFfi with
  | some fe => ⟨fe.code, fe.msg, fe.file, fe.line, .ffi⟩
  | none =>
    ⟨0, err.text, [], 0,
      if err.is .closed then .closed
      else if err.is .shutdown then .shutdown
      else if err.is .deadlineExceeded then .deadline
      else if err.is .canceled then .canceled
      else .other⟩

/-- The frame's JSON: numbers and kinds come back as they are, a text with each invalid byte
replaced. -/
def WireError.crossed (w : WireError) : WireError :=
  { w with msg := Utf8.coerce w.msg, file := Utf8.coerce w.file }

def WireError.decode (w : WireError) : GoErr :=
  match w.kind with
  | .ffi => .ffi ⟨w.code, w.msg, w.file, w.line⟩
  | .closed => .wrap w.msg (.named .closed)
  | .shutdown => .wrap w.msg (.named .shutdown)
  | .deadline => .wrap w.msg (.named .deadlineExceeded)
  | .canceled => .wrap w.msg (.named .canceled)
  | .other => .plain w.msg

-- What the host gets for an error of the worker.
def received (err : GoErr) : GoErr := (encodeError err).crossed.decode

inductive CtxErr | deadlineExceeded | canceled
  deriving DecidableEq, Repr

def CtxErr.err : CtxErr → GoErr
  | .deadlineExceeded => .named .deadlineExceeded
  | .canceled => .named .canceled

def errDrainClosed : GoErr := .wrap (text "gusset: handle closed") (.named .closed)

-- `drainExitError`; `cause` is the text of the read error, which matches no sentinel.
def drainExitError (starts cause : Text) : GoErr :=
  .both (starts ++ text ": completion reader stopped: " ++ cause) (.named .closed) (.plain cause)

-- `closedErr`, with the reader's failure if it stopped by itself.
def closedErr : Option Text → GoErr
  | none => .named .closed
  | some cause => drainExitError Named.closed.text cause

def errHandlePoisoned : FfiError :=
  ⟨ffiPoisoned, text "handle is poisoned: a job panicked; Close it and open a new handle", [], 0⟩

-- What a submitter parked at the ceiling returns when its context ends.
def ceilingErr (c : CtxErr) : GoErr :=
  .both (Named.tooManyUncollected.text ++ text ": " ++ c.err.text)
    (.named .tooManyUncollected) c.err

/-- The errors of submitInput for an inline input. -/
inductive SubmitErr : GoErr → Prop
  | closed (exit : Option Text) : SubmitErr (closedErr exit)
  | poisoned : SubmitErr (.ffi errHandlePoisoned)
  | inputTooLarge : SubmitErr (.named .inputTooLarge)
  | ctx (c : CtxErr) : SubmitErr c.err
  | ceiling (c : CtxErr) : SubmitErr (ceilingErr c)
  | refused (e : FfiError) : SubmitErr (.ffi e)

/-- The errors of waitInternal, and of wait when the handle closes under it. -/
inductive WaitErr : GoErr → Prop
  | closed (exit : Option Text) : WaitErr (closedErr exit)
  | unknownTicket : WaitErr (.named .unknownTicket)
  | ticketBusy : WaitErr (.named .ticketBusy)
  | drainClosed : WaitErr errDrainClosed
  | drainStopped (cause : Text) : WaitErr (drainExitError errDrainClosed.text cause)
  | took (e : FfiError) : WaitErr (.ffi e)
  | ctx (c : CtxErr) : WaitErr c.err

def shutdownCause (shutdownStarted live : Bool) (err : GoErr) : GoErr :=
  if shutdownStarted && live && err.is .canceled then
    .wrap (Named.shutdown.text ++ text " (" ++ err.text ++ text ")") (.named .shutdown)
  else err

/-- The errors of run: Submit, then Wait. -/
inductive RunErr : GoErr → Prop
  | submit {e : GoErr} : SubmitErr e → RunErr e
  | wait {e : GoErr} (shutdownStarted live : Bool) : WaitErr e →
      RunErr (shutdownCause shutdownStarted live e)

/-- The host's error matches what the worker's error matches. -/
def Kept (err : GoErr) : Prop := ∀ s, (received err).is s = err.is s

theorem coerce_text (s : String) (plain : 0xEF ∉ text s) (msg : Text) :
    Utf8.coerce msg = text s ↔ msg = text s :=
  Utf8.coerce_eq_iff ⟨s.toList, rfl⟩ plain

theorem kept_ffi (e : FfiError) : Kept (.ffi e) := by
  have deadline := coerce_text "cancelled: DeadlineExceeded" (by decide +kernel) e.msg
  have explicit := coerce_text "cancelled: Explicit" (by decide +kernel) e.msg
  have shutdown := coerce_text "cancelled: Shutdown" (by decide +kernel) e.msg
  have refused := coerce_text "gusset runtime is shutting down" (by decide +kernel) e.msg
  intro s
  cases s <;> simp [received, encodeError, GoErr.asFfi, WireError.crossed, WireError.decode,
    GoErr.is, FfiError.is, deadline, explicit, shutdown, refused]

/-- An error whose tree matches one carried sentinel, and nothing else, is kept. -/
theorem kept_named {err : GoErr} {n : Named} (bare : err.asFfi = none)
    (only : ∀ s, err.is s = n.is s) (carried : n ≠ .tooManyUncollected) : Kept err := by
  intro s
  rw [only]
  simp only [received, encodeError, bare, only]
  cases n with
  | tooManyUncollected => exact absurd rfl carried
  | _ => cases s <;> rfl

theorem kept_ctx (c : CtxErr) : Kept c.err := by
  cases c with
  | deadlineExceeded => exact kept_named rfl (fun s => rfl) (by decide)
  | canceled => exact kept_named rfl (fun s => rfl) (by decide)

theorem kept_exit (starts cause : Text) : Kept (drainExitError starts cause) :=
  kept_named rfl (fun s => by simp [drainExitError, GoErr.is]) (show Named.closed ≠ _ by decide)

theorem kept_closed (exit : Option Text) : Kept (closedErr exit) := by
  cases exit with
  | none => exact kept_named rfl (fun s => rfl) (show Named.closed ≠ _ by decide)
  | some cause => exact kept_exit _ cause

theorem kept_wait {e : GoErr} (waited : WaitErr e) : Kept e := by
  cases waited with
  | closed exit => exact kept_closed exit
  | unknownTicket => exact kept_named rfl (fun s => rfl) (show Named.unknownTicket ≠ _ by decide)
  | ticketBusy => exact kept_named rfl (fun s => rfl) (show Named.ticketBusy ≠ _ by decide)
  | drainClosed => exact kept_named rfl (fun s => rfl) (show Named.closed ≠ _ by decide)
  | drainStopped cause => exact kept_exit _ cause
  | took e => exact kept_ffi e
  | ctx c => exact kept_ctx c

theorem kept_shutdownCause {e : GoErr} (kept : Kept e) (started live : Bool) :
    Kept (shutdownCause started live e) := by
  unfold shutdownCause
  split
  · exact kept_named rfl (fun s => rfl) (show Named.shutdown ≠ _ by decide)
  · exact kept

/-- The one error of Submit that is not kept: its context error is carried, the ceiling is not. -/
theorem ceiling_lost (c : CtxErr) : ¬ Kept (ceilingErr c) := by
  intro kept
  have lost := kept .tooManyUncollected
  cases c <;> revert lost <;> decide +kernel

theorem kept_submit {e : GoErr} (submitted : SubmitErr e) : Kept e ↔ ∀ c, e ≠ ceilingErr c := by
  have distinct {e : GoErr} (kept : Kept e) : Kept e ↔ ∀ c, e ≠ ceilingErr c :=
    ⟨fun _ c same => ceiling_lost c (same ▸ kept), fun _ => kept⟩
  cases submitted with
  | closed exit => exact distinct (kept_closed exit)
  | poisoned => exact distinct (kept_ffi _)
  | inputTooLarge =>
    exact distinct (kept_named rfl (fun s => rfl) (show Named.inputTooLarge ≠ _ by decide))
  | ctx c => exact distinct (kept_ctx c)
  | refused e => exact distinct (kept_ffi e)
  | ceiling c =>
    exact ⟨fun kept => absurd kept (ceiling_lost c), fun other => absurd rfl (other c)⟩

theorem kept_run {e : GoErr} (returned : RunErr e) : Kept e ↔ ∀ c, e ≠ ceilingErr c := by
  cases returned with
  | submit submitted => exact kept_submit submitted
  | wait started live waited =>
    have kept := kept_shutdownCause (kept_wait waited) started live
    exact ⟨fun _ c same => ceiling_lost c (same ▸ kept), fun _ => kept⟩

theorem received_ffi {fe : FfiError} (msg : Utf8.Valid fe.msg) (file : Utf8.Valid fe.file) :
    received (.ffi fe) = .ffi fe := by
  simp [received, encodeError, GoErr.asFfi, WireError.crossed, WireError.decode,
    Utf8.coerce_valid msg, Utf8.coerce_valid file]

/-- An error that run returns matches the same sentinels on the host, and a `*gusset.Error` keeps
its fields, unless it is what a submitter parked at the ceiling returned. -/
theorem error_identity_unless_ceiling {err : GoErr} (returned : RunErr err) :
    ((∀ s, (received err).is s = err.is s) ∧
      ∀ fe, err = .ffi fe → Utf8.Valid fe.msg → Utf8.Valid fe.file → received err = .ffi fe) ↔
    ∀ c, err ≠ ceilingErr c := by
  have fields : ∀ fe, err = .ffi fe → Utf8.Valid fe.msg → Utf8.Valid fe.file →
      received err = .ffi fe := by
    rintro fe rfl msg file
    exact received_ffi msg file
  exact ⟨fun kept => (kept_run returned).mp kept.1,
    fun other => ⟨(kept_run returned).mpr other, fields⟩⟩

theorem error_identity_panic :
    received (.ffi ⟨ffiPanic, text "boom", text "x.rs", 3⟩) =
      .ffi ⟨ffiPanic, text "boom", text "x.rs", 3⟩ :=
  ((error_identity_unless_ceiling (.submit (.refused ⟨ffiPanic, text "boom", text "x.rs", 3⟩))).mpr
    (fun c same => by cases c <;> cases same)).2 _ rfl ⟨_, rfl⟩ ⟨_, rfl⟩

/-- The ceiling's refusal is no longer the ceiling's on the host. -/
theorem ceiling_identity_lost :
    RunErr (ceilingErr .deadlineExceeded) ∧
      (ceilingErr .deadlineExceeded).is .tooManyUncollected = true ∧
      (received (ceilingErr .deadlineExceeded)).is .tooManyUncollected = false :=
  ⟨.submit (.ceiling _), by decide, by decide +kernel⟩

end Gusset.Isolate
