import Gusset.Isolate.Joint

/-! Who answers for a permit of the worker's handle: in a run within the condition, a job that is in
its Submit or in its Wait. -/
namespace Gusset.Isolate
open Foundation
open Handle (Ticket Pc Thread)

-- In Submit or in Wait.
def Serve.Stage.active : Serve.Stage → Bool
  | .submitting | .waiting _ => true
  | _ => false

namespace Joint

section
variable {setup : Setup} {s t : Joint}

/-- Everything a step within the condition can do. -/
inductive Moves (setup : Setup) (s : Joint) : Joint → Prop
  | host {a : HostAct} {req : Serve.Request} {host : Host} : s.lets a = true →
      s.host.step a = some host → Moves setup s { s with
        host := host
        server := { s.server with input := s.server.input ++ s.host.writes req a } }
  | read {resp : Response} {host : Host} : s.next = some resp →
      s.host.step (.frame resp) = some host → Moves setup s { s with host := host }
  | serve {a : Serve.Act} {server : Serve.Server} : s.exited = false → s.serves a = true →
      s.server.step setup.marshal a = some server → Moves setup s { s with server := server }
  | submit {j : Nat} {req : Serve.Request} : s.exited = false → s.calls j = none →
      s.server.jobs[j]? = some ⟨req, .submitting⟩ → Moves setup s { s with
        worker := { s.worker with
          threads := s.worker.threads ++ [⟨false, .closed1 (.bytes req.input.length)⟩] }
        calls := Function.update s.calls j (some s.worker.threads.length) }
  | wait {j : Nat} {req : Serve.Request} {ticket : Ticket} : s.exited = false → s.calls j = none →
      s.server.jobs[j]? = some ⟨req, .waiting ticket⟩ → Moves setup s { s with
        worker := { s.worker with threads := s.worker.threads ++ [⟨false, .claim .wait ticket⟩] }
        calls := Function.update s.calls j (some s.worker.threads.length) }
  | issued {j i : Nat} {req : Serve.Request} {ctx : Bool} {ticket : Ticket} : s.exited = false →
      s.calls j = some i → s.worker.threads[i]? = some ⟨ctx, .done (.ticket ticket)⟩ →
      s.server.jobs[j]? = some ⟨req, .submitting⟩ → Moves setup s { s with
        server := { s.server with jobs := s.server.jobs.set j ⟨req, .waiting ticket⟩ }
        calls := Function.update s.calls j none
        tickets := Function.update s.tickets j (some ticket) }
  | refused {j i : Nat} {req : Serve.Request} {ctx : Bool} {e : Handle.Err} {r : Serve.Outcome} :
      s.exited = false → s.calls j = some i → s.worker.threads[i]? = some ⟨ctx, .done (.err e)⟩ →
      s.server.jobs[j]? = some ⟨req, .submitting⟩ → Moves setup s { s with
        server := { s.server with jobs := s.server.jobs.set j ⟨req, .ran r⟩ }
        calls := Function.update s.calls j none
        tickets := Function.update s.tickets j none }
  | waited {j i : Nat} {req : Serve.Request} {ctx : Bool} {ticket : Ticket} {out : Handle.Outcome}
      {r : Serve.Outcome} : s.exited = false → s.calls j = some i →
      s.worker.threads[i]? = some ⟨ctx, .done out⟩ →
      s.server.jobs[j]? = some ⟨req, .waiting ticket⟩ → Moves setup s { s with
        server := { s.server with jobs := s.server.jobs.set j ⟨req, .ran r⟩ }
        calls := Function.update s.calls j none }
  | expire {i : Nat} {th : Thread} : s.exited = false → s.worker.threads[i]? = some th →
      Moves setup s { s with
        worker := { s.worker with threads := s.worker.threads.set i { th with ctx := true } } }
  | thread {i : Nat} {ctx : Bool} {pc pc' : Pc} {c : Handle.Choice} {w : Handle.State} :
      s.exited = false → s.worker.threads[i]? = some ⟨ctx, pc⟩ →
      (∀ op t c, pc = .race op t c → s.worker.sh.chan c ≠ none) →
      (∀ op t, pc = .claim op t → s.worker.reader.role.owes t = 0) →
      s.worker.threadStep setup.config ctx pc c = some (w, pc') →
      Moves setup s { s with worker := { w with threads := w.threads.set i ⟨ctx, pc'⟩ } }
  | reader {c : Handle.ReadChoice} {w : Handle.State} {rd : Handle.ReaderPc} : s.exited = false →
      c ≠ .fail → s.worker.readerStep s.worker.reader c = some (w, rd) →
      Moves setup s { s with worker := { w with reader := rd } }
  | exit : Moves setup s { s with exited := true }

theorem outcome_cases {j : Nat} {out : Handle.Outcome} (returned : s.outcome j = some out) :
    ∃ i ctx, s.calls j = some i ∧ s.worker.threads[i]? = some ⟨ctx, .done out⟩ := by
  unfold outcome at returned
  split at returned
  · rename_i ctx out' found
    cases returned
    obtain ⟨i, call, there⟩ := Option.bind_eq_some_iff.mp found
    exact ⟨i, ctx, call, there⟩
  · cases returned

theorem spares_race {pc : Pc} (spares : s.spares pc = true) :
    (∀ op t c, pc = .race op t c → s.worker.sh.chan c ≠ none) ∧
      ∀ op t, pc = .claim op t → s.worker.reader.role.owes t = 0 := by
  constructor
  · rintro op t c rfl
    exact Option.isSome_iff_ne_none.mp spares
  · rintro op t rfl
    exact of_decide_eq_true spares

theorem step_moves {a : Act} (covered : s.covered a = true) (went : s.step setup a = some t) :
    Moves setup s t := by
  cases a with
  | host a req =>
    simp only [step] at went
    split at went
    · cases went
    · rename_i fits
      obtain ⟨host, moved, rfl⟩ := Option.map_eq_some_iff.mp went
      simp only [Bool.or_eq_true, Bool.not_eq_true', not_or, Bool.not_eq_false] at fits
      exact .host fits.2 moved
  | read =>
    obtain ⟨resp, next, went⟩ := Option.bind_eq_some_iff.mp went
    obtain ⟨host, moved, rfl⟩ := Option.map_eq_some_iff.mp went
    exact .read next moved
  | serve a =>
    simp only [step] at went
    split at went
    · cases went
    · rename_i fits
      obtain ⟨server, moved, rfl⟩ := Option.map_eq_some_iff.mp went
      simp only [Bool.or_eq_true, Bool.not_eq_true', not_or, Bool.not_eq_true,
        Bool.not_eq_false] at fits
      exact .serve fits.1 fits.2 moved
  | submit j =>
    simp only [step] at went
    split at went
    · cases went
    · rename_i fits
      simp only [Bool.or_eq_true, not_or, Bool.not_eq_true, Option.isSome_eq_false_iff,
        Option.isNone_iff_eq_none] at fits
      split at went
      · rename_i req found
        cases went
        exact .submit fits.1 fits.2 found
      · cases went
  | wait j =>
    simp only [step] at went
    split at went
    · cases went
    · rename_i fits
      simp only [Bool.or_eq_true, not_or, Bool.not_eq_true, Option.isSome_eq_false_iff,
        Option.isNone_iff_eq_none] at fits
      split at went
      · rename_i req ticket found
        cases went
        exact .wait fits.1 fits.2 found
      · cases went
  | submitted j =>
    simp only [step] at went
    split at went
    · cases went
    · rename_i alive
      obtain ⟨out, returned, went⟩ := Option.bind_eq_some_iff.mp went
      obtain ⟨answer, told, went⟩ := Option.bind_eq_some_iff.mp went
      obtain ⟨server, served, rfl⟩ := Option.map_eq_some_iff.mp went
      obtain ⟨i, ctx, call, there⟩ := outcome_cases returned
      simp only [Serve.Server.step] at served
      split at served
      · rename_i req found
        cases served
        unfold Setup.submitted at told
        split at told
        · cases told
          exact .issued (by simpa using alive) call there found
        · cases told
          exact .refused (by simpa using alive) call there found
        · cases told
      · cases served
  | waited j =>
    simp only [step] at went
    split at went
    · cases went
    · rename_i alive
      obtain ⟨out, returned, went⟩ := Option.bind_eq_some_iff.mp went
      obtain ⟨r, told, went⟩ := Option.bind_eq_some_iff.mp went
      obtain ⟨server, served, rfl⟩ := Option.map_eq_some_iff.mp went
      obtain ⟨i, ctx, call, there⟩ := outcome_cases returned
      simp only [Serve.Server.step] at served
      split at served
      · rename_i req ticket found
        cases served
        exact .waited (by simpa using alive) call there found
      · cases served
  | expire j =>
    simp only [step] at went
    split at went
    · cases went
    · rename_i fits
      simp only [Bool.or_eq_true, not_or, Bool.not_eq_true] at fits
      obtain ⟨i, call, went⟩ := Option.bind_eq_some_iff.mp went
      obtain ⟨w, moved, rfl⟩ := Option.map_eq_some_iff.mp went
      obtain ⟨th, there, rfl⟩ := Option.map_eq_some_iff.mp moved
      exact .expire fits.1 there
  | worker a =>
    simp only [step] at went
    split at went
    · cases went
    · rename_i fits
      simp only [Bool.or_eq_true, Bool.not_eq_true', not_or, Bool.not_eq_true,
        Bool.not_eq_false] at fits
      obtain ⟨w, moved, rfl⟩ := Option.map_eq_some_iff.mp went
      cases a with
      | thread i c =>
        obtain ⟨⟨ctx, pc⟩, there, moved⟩ := Option.bind_eq_some_iff.mp moved
        obtain ⟨⟨w, pc'⟩, stepped, rfl⟩ := Option.map_eq_some_iff.mp moved
        have condition := spares_race (by simpa [Joint.covered, there] using covered)
        exact .thread fits.1 there condition.1 condition.2 stepped
      | reader c =>
        obtain ⟨⟨w, rd⟩, stepped, rfl⟩ := Option.map_eq_some_iff.mp moved
        exact .reader fits.1 (by simpa [Joint.covered] using covered) stepped
      | _ => cases fits.2
  | exit =>
    cases went
    exact .exit

end

/-- Where the goroutine of a job is in its call. -/
inductive InCall : Serve.Stage → Pc → Prop
  | submit {pc : Pc} : pc.submits = true → InCall .submitting pc
  | wait {t : Ticket} {pc : Pc} : pc.waits t = true → InCall (.waiting t) pc

theorem InCall.active {stage : Serve.Stage} {pc : Pc} (inCall : InCall stage pc) :
    stage.active = true := by
  cases inCall <;> rfl

/-- Every call that has not returned is one of one job. -/
structure Staffed (jobs : List Serve.Job) (calls : Nat → Option Nat) (threads : List Thread) :
    Prop where
  call : ∀ j i, calls j = some i → ∃ th req stage, threads[i]? = some th ∧
    jobs[j]? = some ⟨req, stage⟩ ∧ InCall stage th.pc
  apart : ∀ j k i, calls j = some i → calls k = some i → j = k
  idle : ∀ i th, threads[i]? = some th → (∀ j, calls j ≠ some i) → ∃ out, th.pc = .done out

/-- Serve's own steps leave the jobs in their calls alone, and begin new ones. -/
structure Passes (jobs jobs' : List Serve.Job) : Prop where
  stays : ∀ (j : Nat) (job : Serve.Job), jobs[j]? = some job → job.stage.active = true →
    jobs'[j]? = some job
  began : ∀ (j : Nat) (job : Serve.Job), jobs'[j]? = some job → job.stage.active = true →
    jobs[j]? = some job ∨ (job.stage = .submitting ∧ ∃ req, jobs[j]? = some ⟨req, .unborn⟩)

namespace Passes

variable {jobs : List Serve.Job}

theorem refl : Passes jobs jobs := ⟨fun _ _ at_ _ => at_, fun _ _ at_ _ => .inl at_⟩

theorem set {j : Nat} {old new : Serve.Job} (at_ : jobs[j]? = some old)
    (before : old.stage.active = false)
    (after : new.stage.active = true → new.stage = .submitting ∧ old.stage = .unborn) :
    Passes jobs (jobs.set j new) := by
  constructor
  · intro k job here active
    rw [getElem?_set_of_some at_]
    split
    · rename_i same
      subst same
      rw [at_] at here
      cases here
      rw [before] at active
      cases active
    · exact here
  · intro k job here active
    rcases getElem?_set_cases here with ⟨rfl, rfl⟩ | ⟨_, same⟩
    · obtain ⟨stage, unborn⟩ := after active
      obtain ⟨req, _⟩ := old
      cases unborn
      exact .inr ⟨stage, req, at_⟩
    · exact .inl same

theorem concat {job : Serve.Job} (unborn : job.stage = .unborn) : Passes jobs (jobs ++ [job]) := by
  constructor
  · intro j old here _
    rw [List.getElem?_append_left (List.getElem?_eq_some_iff.mp here).1]
    exact here
  · intro j new here active
    rcases getElem?_concat_cases here with same | ⟨_, rfl⟩
    · exact .inl same
    · rw [unborn] at active
      cases active

end Passes

/-- A handle that answers nothing. -/
def silent : Serve.Caller := ⟨fun _ _ _ _ => False, fun _ _ _ _ => False⟩

theorem moves_passes {marshal : Serve.Outgoing → List Byte} {s t : Serve.Server}
    (moves : Serve.Moves silent marshal s t) : Passes s.jobs t.jobs := by
  cases moves with
  | register => exact .concat rfl
  | spawn _ at_ => exact .set at_ rfl fun _ => ⟨rfl, rfl⟩
  | @advance j job stage _ advances =>
    obtain ⟨req, old⟩ := job
    cases advances with
    | refused gave => exact gave.elim
    | submitted gave => exact gave.elim
    | answered gave => exact gave.elim
  | delete at_ => exact .set at_ rfl nofun
  | cancelOwn at_ => exact .set at_ rfl nofun
  | lock at_ _ => exact .set at_ rfl nofun
  | tooLarge at_ _ => exact .set at_ rfl nofun
  | header at_ => exact .set at_ rfl nofun
  | body at_ => exact .set at_ rfl nofun
  | unsent at_ => exact .set at_ rfl nofun
  | leave at_ => exact .set at_ rfl nofun
  | _ => exact .refl

theorem refuse_passes {s t : Serve.Server} {err : Text} (went : s.refuse err = some t) :
    Passes s.jobs t.jobs := by
  unfold Serve.Server.refuse at went
  split at went
  · cases went
    exact .refl
  · cases went
    exact .refl
  · obtain ⟨job, found, rfl⟩ := Option.map_eq_some_iff.mp went
    have writes := List.find?_some found
    rw [List.find?_eq_getElem?_findIdx] at found
    refine .set found ?_ fun active => by cases active
    cases stage : job.stage with
    | submitting => simp [stage] at writes
    | waiting t => simp [stage] at writes
    | _ => rfl

theorem serve_passes {setup : Setup} {s : Joint} {a : Serve.Act} {server : Serve.Server}
    (serves : s.serves a = true) (went : s.server.step setup.marshal a = some server) :
    Passes s.server.jobs server.jobs := by
  cases a with
  | submitted j answer => cases serves
  | answered j r => cases serves
  | refuse err => exact refuse_passes went
  | main => exact moves_passes (Serve.mainStep_moves went)
  | job j =>
    obtain ⟨job, at_, went⟩ := Option.bind_eq_some_iff.mp went
    exact moves_passes (Serve.jobStep_moves at_ went)
  | expire j => exact moves_passes (Serve.step_moves (a := .expire j) trivial went)

namespace Staffed

variable {jobs jobs' : List Serve.Job} {calls : Nat → Option Nat} {threads : List Thread}

theorem passes (staffed : Staffed jobs calls threads) (passes : Passes jobs jobs') :
    Staffed jobs' calls threads := by
  refine { staffed with call := ?_ }
  intro j i called
  obtain ⟨th, req, stage, there, at_, inCall⟩ := staffed.call j i called
  exact ⟨th, req, stage, there, passes.stays j _ at_ inCall.active, inCall⟩

/-- A thread takes a step of its call, or its context ends. -/
theorem thread {i : Nat} {th th' : Thread} (staffed : Staffed jobs calls threads)
    (there : threads[i]? = some th) (stays : ∀ stage, InCall stage th.pc → InCall stage th'.pc)
    (halted : (∀ j, calls j ≠ some i) → ∃ out, th'.pc = .done out) :
    Staffed jobs calls (threads.set i th') := by
  refine { staffed with call := ?_, idle := ?_ }
  · intro j k called
    obtain ⟨old, req, stage, here, at_, inCall⟩ := staffed.call j k called
    rw [getElem?_set_of_some there]
    split
    · rename_i same
      subst same
      rw [there] at here
      cases here
      exact ⟨th', req, stage, rfl, at_, stays stage inCall⟩
    · exact ⟨old, req, stage, here, at_, inCall⟩
  · intro k new here free
    rcases getElem?_set_cases here with ⟨rfl, rfl⟩ | ⟨_, same⟩
    · exact halted free
    · exact staffed.idle k new same free

/-- A job makes its next call. -/
theorem enter {j : Nat} {req : Serve.Request} {stage : Serve.Stage} {th : Thread}
    (staffed : Staffed jobs calls threads) (none : calls j = none)
    (at_ : jobs[j]? = some ⟨req, stage⟩) (inCall : InCall stage th.pc) :
    Staffed jobs (Function.update calls j (some threads.length)) (threads ++ [th]) := by
  have inside {k i : Nat} (called : calls k = some i) : i < threads.length := by
    obtain ⟨_, _, _, here, _⟩ := staffed.call k i called
    exact (List.getElem?_eq_some_iff.mp here).1
  constructor
  · intro k i called
    by_cases same : k = j
    · subst same
      rw [Function.update_self] at called
      cases called
      exact ⟨th, req, stage, List.getElem?_concat_length, at_, inCall⟩
    · rw [Function.update_of_ne same] at called
      obtain ⟨old, req, stage, here, old_at, old_call⟩ := staffed.call k i called
      exact ⟨old, req, stage, (List.getElem?_append_left (inside called)).trans here, old_at, old_call⟩
  · intro k l i first second
    by_cases mine : k = j <;> by_cases other : l = j
    · rw [mine, other]
    · rw [mine, Function.update_self] at first
      cases first
      rw [Function.update_of_ne other] at second
      exact absurd (inside second) (Nat.lt_irrefl _)
    · rw [other, Function.update_self] at second
      cases second
      rw [Function.update_of_ne mine] at first
      exact absurd (inside first) (Nat.lt_irrefl _)
    · rw [Function.update_of_ne mine] at first
      rw [Function.update_of_ne other] at second
      exact staffed.apart k l i first second
  · intro i new here free
    rcases getElem?_concat_cases here with same | ⟨rfl, rfl⟩
    · apply staffed.idle i new same
      intro k called
      by_cases mine : k = j
      · subst mine
        rw [none] at called
        cases called
      · exact free k (by rw [Function.update_of_ne mine]; exact called)
    · exact absurd (Function.update_self j (some threads.length) calls) (free j)

/-- A call returns to its job. -/
theorem leave {j i : Nat} {req : Serve.Request} {stage : Serve.Stage} {ctx : Bool}
    {out : Handle.Outcome} (staffed : Staffed jobs calls threads) (called : calls j = some i)
    (there : threads[i]? = some ⟨ctx, .done out⟩) :
    Staffed (jobs.set j ⟨req, stage⟩) (Function.update calls j none) threads := by
  constructor
  · intro k l other
    by_cases same : k = j
    · rw [same, Function.update_self] at other
      cases other
    · rw [Function.update_of_ne same] at other
      obtain ⟨th, req, stage, here, at_, inCall⟩ := staffed.call k l other
      exact ⟨th, req, stage, here, (List.getElem?_set_ne (Ne.symm same)).trans at_, inCall⟩
  · intro k l m first second
    by_cases mine : k = j
    · rw [mine, Function.update_self] at first
      cases first
    · by_cases other : l = j
      · rw [other, Function.update_self] at second
        cases second
      · rw [Function.update_of_ne mine] at first
        rw [Function.update_of_ne other] at second
        exact staffed.apart k l m first second
  · intro k th here free
    by_cases same : k = i
    · subst same
      rw [there] at here
      cases here
      exact ⟨out, rfl⟩
    · apply staffed.idle k th here
      intro l other
      by_cases mine : l = j
      · subst mine
        rw [called] at other
        exact same (Option.some.inj other).symm
      · exact free l (by rw [Function.update_of_ne mine]; exact other)

end Staffed

/-- The ticket is in the hands of the job. -/
inductive Owns (jobs : List Serve.Job) (calls : Nat → Option Nat) (threads : List Thread) (j : Nat)
    (t : Ticket) : Prop
  | waits {req : Serve.Request} : jobs[j]? = some ⟨req, .waiting t⟩ → Owns jobs calls threads j t
  | brings {req : Serve.Request} {i : Nat} {th : Thread} : jobs[j]? = some ⟨req, .submitting⟩ →
      calls j = some i → threads[i]? = some th → th.pc.brings = some t → Owns jobs calls threads j t

/-- Every ticket whose permit is out is in the hands of one job, and a job that has its outcome has
paid. -/
structure Ticketed (jobs : List Serve.Job) (calls : Nat → Option Nat) (w : Handle.State)
    (tickets : Nat → Option Ticket) : Prop where
  one : ∀ j k t, Owns jobs calls w.threads j t → Owns jobs calls w.threads k t → j = k
  accepted : ∀ j t, Owns jobs calls w.threads j t → t ∈ w.hist.accepted
  kept : ∀ t ∈ w.hist.accepted, w.hist.gaveBack t = 0 → ∃ j, Owns jobs calls w.threads j t
  issued : ∀ (j i : Nat) (req : Serve.Request) (ctx : Bool) (t : Ticket),
    jobs[j]? = some ⟨req, .submitting⟩ → calls j = some i →
    w.threads[i]? = some ⟨ctx, .done (.ticket t)⟩ → t ∈ w.hist.returned
  returned : ∀ (j : Nat) (req : Serve.Request) (t : Ticket), jobs[j]? = some ⟨req, .waiting t⟩ →
    t ∈ w.hist.returned
  collected : ∀ (j i : Nat) (req : Serve.Request) (th : Thread) (t : Ticket),
    jobs[j]? = some ⟨req, .waiting t⟩ → calls j = some i → w.threads[i]? = some th →
    th.pc.collected = true → 0 < w.hist.gaveBack t
  paid : ∀ (j : Nat) (t : Ticket), tickets j = some t →
    0 < w.hist.gaveBack t ∨ ∃ req, jobs[j]? = some ⟨req, .waiting t⟩

namespace Ticketed

variable {jobs jobs' : List Serve.Job} {calls : Nat → Option Nat} {w w' : Handle.State}
  {tickets : Nat → Option Ticket}

theorem passes (inv : Ticketed jobs calls w tickets) (staffed : Staffed jobs calls w.threads)
    (passes : Passes jobs jobs') : Ticketed jobs' calls w tickets := by
  have waits {j : Nat} {req : Serve.Request} {t : Ticket} (at_ : jobs'[j]? = some ⟨req, .waiting t⟩) :
      jobs[j]? = some ⟨req, .waiting t⟩ := by
    rcases passes.began j _ at_ rfl with same | ⟨submitting, _⟩
    · exact same
    · cases submitting
  have submits {j i : Nat} {req : Serve.Request} (at_ : jobs'[j]? = some ⟨req, .submitting⟩)
      (called : calls j = some i) : jobs[j]? = some ⟨req, .submitting⟩ := by
    rcases passes.began j _ at_ rfl with same | ⟨_, old, unborn⟩
    · exact same
    · obtain ⟨_, _, _, _, here, inCall⟩ := staffed.call j i called
      rw [unborn] at here
      cases here
      cases inCall
  have owned {j : Nat} {t : Ticket} (owns : Owns jobs' calls w.threads j t) :
      Owns jobs calls w.threads j t := by
    cases owns with
    | waits at_ => exact .waits (waits at_)
    | brings at_ called there brings => exact .brings (submits at_ called) called there brings
  constructor
  · exact fun j k t first second => inv.one j k t (owned first) (owned second)
  · exact fun j t owns => inv.accepted j t (owned owns)
  · intro t member unpaid
    obtain ⟨j, owns⟩ := inv.kept t member unpaid
    cases owns with
    | waits at_ => exact ⟨j, .waits (passes.stays j _ at_ rfl)⟩
    | brings at_ called there brings =>
      exact ⟨j, .brings (passes.stays j _ at_ rfl) called there brings⟩
  · exact fun j i req ctx t at_ called => inv.issued j i req ctx t (submits at_ called) called
  · exact fun j req t at_ => inv.returned j req t (waits at_)
  · exact fun j i req th t at_ => inv.collected j i req th t (waits at_)
  · intro j t had
    rcases inv.paid j t had with paid | ⟨req, at_⟩
    · exact .inl paid
    · exact .inr ⟨req, passes.stays j _ at_ rfl⟩

/-- The handle moves, and no caller does. -/
theorem grows (inv : Ticketed jobs calls w tickets)
    (same : ∀ k : Nat, (w'.threads[k]?).map Thread.pc = (w.threads[k]?).map Thread.pc)
    (accepted : w'.hist.accepted = w.hist.accepted) (grows : w.hist.Grows w'.hist) :
    Ticketed jobs calls w' tickets := by
  have more {t : Ticket} (paid : 0 < w.hist.gaveBack t) : 0 < w'.hist.gaveBack t :=
    Nat.lt_of_lt_of_le paid (grows.gaveBack t)
  have moved {a b : List Thread} (same : ∀ k : Nat, (a[k]?).map Thread.pc = (b[k]?).map Thread.pc)
      {k : Nat} {th : Thread} (there : a[k]? = some th) : ∃ ctx, b[k]? = some ⟨ctx, th.pc⟩ := by
    have here := same k
    rw [there] at here
    obtain ⟨⟨ctx, pc⟩, found, rfl⟩ := Option.map_eq_some_iff.mp here.symm
    exact ⟨ctx, found⟩
  have owned {a b : List Thread} (same : ∀ k : Nat, (a[k]?).map Thread.pc = (b[k]?).map Thread.pc)
      {j : Nat} {t : Ticket} (owns : Owns jobs calls a j t) : Owns jobs calls b j t := by
    cases owns with
    | waits at_ => exact .waits at_
    | brings at_ called there brings =>
      obtain ⟨ctx, there⟩ := moved same there
      exact .brings at_ called there brings
  constructor
  · exact fun j k t first second => inv.one j k t (owned same first) (owned same second)
  · rw [accepted]
    exact fun j t owns => inv.accepted j t (owned same owns)
  · rw [accepted]
    intro t member unpaid
    have less := grows.gaveBack t
    obtain ⟨j, owns⟩ := inv.kept t member (by omega)
    exact ⟨j, owned (fun k => (same k).symm) owns⟩
  · intro j i req ctx t at_ called there
    obtain ⟨ctx, there⟩ := moved same there
    exact grows.returned (inv.issued j i req ctx t at_ called there)
  · exact fun j req t at_ => grows.returned (inv.returned j req t at_)
  · intro j i req th t at_ called there halted
    obtain ⟨ctx, there⟩ := moved same there
    exact more (inv.collected j i req _ t at_ called there halted)
  · exact fun j t had => (inv.paid j t had).imp_left more

/-- A Submit takes a step. -/
theorem submits {j i : Nat} {req : Serve.Request} {ctx : Bool} {pc pc' : Pc}
    (inv : Ticketed jobs calls w tickets) (staffed : Staffed jobs calls w.threads)
    (at_ : jobs[j]? = some ⟨req, .submitting⟩) (called : calls j = some i)
    (there : w.threads[i]? = some ⟨ctx, pc⟩) (threads : w'.threads = w.threads)
    (submits : Handle.State.Submits w w' pc pc') :
    Ticketed jobs calls { w' with threads := w'.threads.set i ⟨ctx, pc'⟩ } tickets := by
  have place (k : Nat) : (w'.threads.set i ⟨ctx, pc'⟩)[k]? =
      if k = i then some ⟨ctx, pc'⟩ else w.threads[k]? := by
    rw [threads]
    exact getElem?_set_of_some there _ k
  have less (t : Ticket) := submits.grows.gaveBack t
  have within : w.hist.accepted ⊆ w'.hist.accepted := by
    rcases submits.accepted with same | ⟨t, _, same, _⟩
    · exact same.symm.subset
    · rw [same]
      exact Finset.subset_insert t _
  have owned {k : Nat} {t : Ticket}
      (owns : Owns jobs calls (w'.threads.set i ⟨ctx, pc'⟩) k t) :
      Owns jobs calls w.threads k t ∨ (k = j ∧ t ∉ w.hist.accepted ∧ t ∈ w'.hist.accepted) := by
    cases owns with
    | waits here => exact .inl (.waits here)
    | brings here other th brings =>
      rw [place] at th
      split at th
      · rename_i same
        subst same
        cases th
        obtain rfl := staffed.apart _ _ _ other called
        exact (submits.fresh t brings).imp (fun had => .brings at_ called there had)
          fun fresh => ⟨rfl, fresh⟩
      · exact .inl (.brings here other th brings)
  constructor
  · intro k l t first second
    rcases owned first with first | ⟨rfl, fresh, _⟩
    · rcases owned second with second | ⟨rfl, fresh, _⟩
      · exact inv.one k l t first second
      · exact absurd (inv.accepted k t first) fresh
    · rcases owned second with second | ⟨rfl, _⟩
      · exact absurd (inv.accepted l t second) fresh
      · rfl
  · intro k t owns
    rcases owned owns with old | ⟨_, _, member⟩
    · exact within (inv.accepted k t old)
    · exact member
  · intro t member unpaid
    have mine (brings : pc'.brings = some t) :
        Owns jobs calls (w'.threads.set i ⟨ctx, pc'⟩) j t :=
      .brings at_ called ((place i).trans (if_pos rfl)) brings
    have none : w'.hist.gaveBack t = 0 := unpaid
    by_cases old : t ∈ w.hist.accepted
    · have before := less t
      obtain ⟨k, owns⟩ := inv.kept t old (by omega)
      cases owns with
      | waits here => exact ⟨k, .waits here⟩
      | @brings _ l th here other there' brings =>
        by_cases same : l = i
        · subst same
          rw [there] at there'
          cases there'
          exact ⟨j, mine (submits.brings t brings)⟩
        · exact ⟨k, .brings here other (((place l).trans (if_neg same)).trans there') brings⟩
    · rcases submits.accepted with same | ⟨u, _, same, brings⟩
      · rw [same] at member
        exact absurd member old
      · rw [same] at member
        rcases Finset.mem_insert.mp member with rfl | member
        · exact ⟨j, mine brings⟩
        · exact absurd member old
  · intro k l req' ctx' t here other th
    rw [place] at th
    split at th
    · cases th
      exact submits.issued t rfl
    · exact submits.grows.returned (inv.issued k l req' ctx' t here other th)
  · exact fun k req t here => submits.grows.returned (inv.returned k req t here)
  · intro k l req' th t here other th_at halted
    rw [place] at th_at
    split at th_at
    · rename_i same
      subst same
      obtain rfl := staffed.apart _ _ _ other called
      rw [at_] at here
      cases here
    · exact Nat.lt_of_lt_of_le (inv.collected k l req' th t here other th_at halted) (less t)
  · intro k t had
    exact (inv.paid k t had).imp_left fun paid => Nat.lt_of_lt_of_le paid (less t)

/-- A Wait takes a step. -/
theorem waits {j i : Nat} {req : Serve.Request} {ctx : Bool} {pc pc' : Pc} {ticket : Ticket}
    (inv : Ticketed jobs calls w tickets) (staffed : Staffed jobs calls w.threads)
    (at_ : jobs[j]? = some ⟨req, .waiting ticket⟩) (called : calls j = some i)
    (there : w.threads[i]? = some ⟨ctx, pc⟩) (threads : w'.threads = w.threads)
    (waits : Handle.State.Waits ticket w w' pc pc')
    (pays : pc'.collected = true → 0 < w'.hist.gaveBack ticket) :
    Ticketed jobs calls { w' with threads := w'.threads.set i ⟨ctx, pc'⟩ } tickets := by
  have place (k : Nat) : (w'.threads.set i ⟨ctx, pc'⟩)[k]? =
      if k = i then some ⟨ctx, pc'⟩ else w.threads[k]? := by
    rw [threads]
    exact getElem?_set_of_some there _ k
  have less (t : Ticket) := waits.grows.gaveBack t
  have other {k l : Nat} {req' : Serve.Request} (here : jobs[k]? = some ⟨req', .submitting⟩)
      (calls_ : calls k = some l) : l ≠ i := by
    rintro rfl
    obtain rfl := staffed.apart _ _ _ calls_ called
    rw [at_] at here
    cases here
  have owned {k : Nat} {t : Ticket} : Owns jobs calls (w'.threads.set i ⟨ctx, pc'⟩) k t ↔
      Owns jobs calls w.threads k t := by
    constructor
    all_goals
      intro owns
      cases owns with
      | waits here => exact .waits here
      | brings here calls_ th brings =>
        have same := (place _).trans (if_neg (other here calls_))
        first
        | exact .brings here calls_ (same.symm.trans th) brings
        | exact .brings here calls_ (same.trans th) brings
  constructor
  · exact fun k l t first second => inv.one k l t (owned.mp first) (owned.mp second)
  · exact fun k t owns => waits.accepted.symm ▸ inv.accepted k t (owned.mp owns)
  · intro t member unpaid
    have none : w'.hist.gaveBack t = 0 := unpaid
    have before := less t
    obtain ⟨k, owns⟩ := inv.kept t (waits.accepted ▸ member) (by omega)
    exact ⟨k, owned.mpr owns⟩
  · intro k l req' ctx' t here calls_ th
    rw [place, if_neg (other here calls_)] at th
    exact waits.grows.returned (inv.issued k l req' ctx' t here calls_ th)
  · exact fun k req t here => waits.grows.returned (inv.returned k req t here)
  · intro k l req' th t here calls_ th_at halted
    rw [place] at th_at
    split at th_at
    · rename_i same
      subst same
      obtain rfl := staffed.apart _ _ _ calls_ called
      rw [at_] at here
      cases here
      cases th_at
      exact pays halted
    · exact Nat.lt_of_lt_of_le (inv.collected k l req' th t here calls_ th_at halted) (less t)
  · intro k t had
    exact (inv.paid k t had).imp_left fun paid => Nat.lt_of_lt_of_le paid (less t)

/-- A job makes its next call. -/
theorem enter {j : Nat} {th : Thread} (inv : Ticketed jobs calls w tickets)
    (staffed : Staffed jobs calls w.threads) (outside : calls j = none)
    (fresh : th.pc.brings = none) (uncollected : th.pc.collected = false) :
    Ticketed jobs (Function.update calls j (some w.threads.length))
      { w with threads := w.threads ++ [th] } tickets := by
  have old {k l : Nat} {here : Thread} (called : Function.update calls j (some w.threads.length) k =
      some l) (there : (w.threads ++ [th])[l]? = some here) :
      (calls k = some l ∧ w.threads[l]? = some here) ∨ (k = j ∧ here = th) := by
    by_cases same : k = j
    · subst same
      rw [Function.update_self] at called
      cases called
      rw [List.getElem?_concat_length] at there
      exact .inr ⟨rfl, (Option.some.inj there).symm⟩
    · rw [Function.update_of_ne same] at called
      obtain ⟨_, _, _, inside, _⟩ := staffed.call k l called
      rw [List.getElem?_append_left (List.getElem?_eq_some_iff.mp inside).1] at there
      exact .inl ⟨called, there⟩
  have owned {k : Nat} {t : Ticket} (owns : Owns jobs (Function.update calls j
      (some w.threads.length)) (w.threads ++ [th]) k t) : Owns jobs calls w.threads k t := by
    cases owns with
    | waits at_ => exact .waits at_
    | brings at_ called there brings =>
      rcases old called there with ⟨called, there⟩ | ⟨_, rfl⟩
      · exact .brings at_ called there brings
      · rw [fresh] at brings
        cases brings
  constructor
  · exact fun k l t first second => inv.one k l t (owned first) (owned second)
  · exact fun k t owns => inv.accepted k t (owned owns)
  · intro t member unpaid
    obtain ⟨k, owns⟩ := inv.kept t member unpaid
    cases owns with
    | waits at_ => exact ⟨k, .waits at_⟩
    | brings at_ called there brings =>
      have other : k ≠ j := by
        rintro rfl
        rw [outside] at called
        cases called
      refine ⟨k, .brings at_ ((Function.update_of_ne other _ _).trans called) ?_ brings⟩
      exact (List.getElem?_append_left (List.getElem?_eq_some_iff.mp there).1).trans there
  · intro k l req ctx t at_ called there
    rcases old called there with ⟨called, there⟩ | ⟨_, rfl⟩
    · exact inv.issued k l req ctx t at_ called there
    · cases uncollected
  · exact inv.returned
  · intro k l req here t at_ called there halted
    rcases old called there with ⟨called, there⟩ | ⟨_, rfl⟩
    · exact inv.collected k l req here t at_ called there halted
    · rw [uncollected] at halted
      cases halted
  · exact inv.paid

/-- A call returns to its job. -/
theorem leave {j : Nat} {req : Serve.Request} {stage : Serve.Stage} {old : Serve.Job}
    {ticket : Option Ticket} (inv : Ticketed jobs calls w tickets) (at_ : jobs[j]? = some old)
    (waits : ∀ t, stage = .waiting t → Owns jobs calls w.threads j t ∧ t ∈ w.hist.returned)
    (keeps : ∀ t, Owns jobs calls w.threads j t → w.hist.gaveBack t = 0 → stage = .waiting t)
    (paid : ∀ t, ticket = some t → 0 < w.hist.gaveBack t ∨ stage = .waiting t) :
    Ticketed (jobs.set j ⟨req, stage⟩) (Function.update calls j none) w
      (Function.update tickets j ticket) := by
  have place (k : Nat) : (jobs.set j ⟨req, stage⟩)[k]? =
      if k = j then some ⟨req, stage⟩ else jobs[k]? := getElem?_set_of_some at_ _ k
  have stays {k i : Nat} (called : Function.update calls j none k = some i) :
      k ≠ j ∧ calls k = some i := by
    have other : k ≠ j := by
      rintro rfl
      rw [Function.update_self] at called
      cases called
    exact ⟨other, (Function.update_of_ne other _ _).symm.trans called⟩
  have waiting {k : Nat} {req' : Serve.Request} {t : Ticket}
      (here : (jobs.set j ⟨req, stage⟩)[k]? = some ⟨req', .waiting t⟩) :
      (k = j ∧ stage = .waiting t) ∨ jobs[k]? = some ⟨req', .waiting t⟩ := by
    rw [place] at here
    split at here
    · rename_i same
      exact .inl ⟨same, congrArg Serve.Job.stage (Option.some.inj here)⟩
    · exact .inr here
  have owned {k : Nat} {t : Ticket} (owns : Owns (jobs.set j ⟨req, stage⟩)
      (Function.update calls j none) w.threads k t) : Owns jobs calls w.threads k t := by
    cases owns with
    | waits here =>
      rcases waiting here with ⟨rfl, waits_⟩ | here
      · exact (waits t waits_).1
      · exact .waits here
    | brings here called there brings =>
      obtain ⟨other, called⟩ := stays called
      rw [place, if_neg other] at here
      exact .brings here called there brings
  constructor
  · exact fun k l t first second => inv.one k l t (owned first) (owned second)
  · exact fun k t owns => inv.accepted k t (owned owns)
  · intro t member unpaid
    obtain ⟨k, owns⟩ := inv.kept t member unpaid
    by_cases same : k = j
    · subst same
      have here : (jobs.set k ⟨req, stage⟩)[k]? = some ⟨req, .waiting t⟩ := by
        rw [place, if_pos rfl, keeps t owns unpaid]
      exact ⟨k, .waits here⟩
    · cases owns with
      | waits here => exact ⟨k, .waits (((place k).trans (if_neg same)).trans here)⟩
      | brings here called there brings =>
        exact ⟨k, .brings (((place k).trans (if_neg same)).trans here)
          ((Function.update_of_ne same _ _).trans called) there brings⟩
  · intro k l req' ctx t here called there
    obtain ⟨other, called⟩ := stays called
    rw [place, if_neg other] at here
    exact inv.issued k l req' ctx t here called there
  · intro k req' t here
    rcases waiting here with ⟨_, waits_⟩ | here
    · exact (waits t waits_).2
    · exact inv.returned k req' t here
  · intro k l req' th t here called
    obtain ⟨other, called⟩ := stays called
    rw [place, if_neg other] at here
    exact inv.collected k l req' th t here called
  · intro k t had
    by_cases same : k = j
    · subst same
      rw [Function.update_self] at had
      rcases paid t had with paid | waits_
      · exact .inl paid
      · exact .inr ⟨req, (place k).trans (by rw [if_pos rfl, waits_])⟩
    · rw [Function.update_of_ne same] at had
      exact (inv.paid k t had).imp_right fun ⟨req', here⟩ =>
        ⟨req', ((place k).trans (if_neg same)).trans here⟩

end Ticketed

/-- The ticket that a caller in a Wait still has. -/
def keeps : Handle.Role → Option Ticket
  | .waiting _ t _ | .received _ t _ _ | .owing t => some t
  | _ => none

theorem submits_keeps {pc : Pc} (submits : pc.submits = true) : keeps pc.role = none := by
  cases pc with
  | enterClosed v | tryRLock v | enterPtr v | inside v =>
    cases v with
    | submit => rfl
    | _ => cases submits
  | unlock after =>
    cases after with
    | giveBack | release | issue => rfl
    | _ => cases submits
  | _ => first | (cases submits; done) | rfl

theorem waits_keeps {t u : Ticket} {pc : Pc} (waits : pc.waits t = true)
    (has : keeps pc.role = some u) : u = t := by
  induction pc with
  | unlock after ih => exact ih waits has
  | enterClosed v | tryRLock v | enterPtr v | inside v =>
    cases v with
    | cancel op x c =>
      cases has
      exact of_decide_eq_true waits
    | _ => cases has
  | await | got | race =>
    cases has
    exact of_decide_eq_true waits
  | recvLocked x after =>
    cases has
    cases after with
    | discarded => cases waits
    | _ => exact of_decide_eq_true waits
  | _ => cases has

theorem waiter_keeps {t : Ticket} {role : Handle.Role}
    (waits : 0 < Handle.waitsOn t role.waiter) : keeps role = some t := by
  cases role with
  | waiting op u c | received op u c res =>
    have same : u = t := by
      by_contra other
      simp [Handle.Role.waiter, Handle.waitsOn, other] at waits
    rw [same]
    rfl
  | _ => cases waits

/-- What a run within the condition keeps on the worker's side. -/
structure Shares (setup : Setup) (s : Joint) : Prop where
  reach : Handle.State.Reaches setup.config Handle.Ledger.returnedOnly s.worker
  staffed : Staffed s.server.jobs s.calls s.worker.threads
  ticketed : Ticketed s.server.jobs s.calls s.worker s.tickets
  closed : s.worker.sh.closed = false
  abandoned : s.worker.sh.abandoned = ∅
  reads : s.worker.reader.reads = true

namespace Shares

variable {setup : Setup} {s : Joint}

/-- Nobody but the job that waits for a ticket has it. -/
theorem alone {j i k : Nat} {req : Serve.Request} {th : Thread} {ticket : Ticket}
    (inv : Shares setup s) (at_ : s.server.jobs[j]? = some ⟨req, .waiting ticket⟩)
    (called : s.calls j = some i) (there : s.worker.threads[k]? = some th)
    (has : keeps th.pc.role = some ticket) : k = i := by
  have caller : ∃ l, s.calls l = some k := by
    by_contra nobody
    obtain ⟨out, halted⟩ := inv.staffed.idle k th there fun l other => nobody ⟨l, other⟩
    rw [halted] at has
    cases has
  obtain ⟨l, other⟩ := caller
  obtain ⟨th', req', stage, here, at', inCall⟩ := inv.staffed.call l k other
  rw [there] at here
  cases here
  cases inCall with
  | submit submits =>
    rw [submits_keeps submits] at has
    cases has
  | wait waits =>
    obtain rfl := waits_keeps waits has
    obtain rfl := inv.ticketed.one l j _ (.waits at') (.waits at_)
    rw [called] at other
    exact (Option.some.inj other).symm

theorem exited (inv : Shares setup s) : s.worker.sh.drainExited = false := by
  have sound := (Handle.State.reaches_books inv.reach).reader
  exact Handle.Ledger.running sound rfl (Handle.State.reads_role inv.reads)

/-- A ticket that a Submit returned and nobody owes for has its permit in `semTickets` or is paid.
-/
theorem paid_of_free {j i : Nat} {req : Serve.Request} {ctx : Bool} {op : Handle.Op} {ticket : Ticket}
    (inv : Shares setup s) (at_ : s.server.jobs[j]? = some ⟨req, .waiting ticket⟩)
    (called : s.calls j = some i) (there : s.worker.threads[i]? = some ⟨ctx, .claim op ticket⟩)
    (reader : s.worker.reader.role.owes ticket = 0) (free : ticket ∉ s.worker.sh.semTickets) :
    0 < s.worker.hist.gaveBack ticket := by
  have books := Handle.State.reaches_books inv.reach
  have returned := inv.ticketed.returned j req ticket at_
  have total := Handle.State.books_located books ticket
  have settled : census (Handle.Role.window ticket) s.worker.ledger.roles = 0 :=
    books.permits.settled_of_returned returned
  simp only [Handle.State.ledger, census_map] at settled
  have unissued {k : Nat} {th : Thread} (here : s.worker.threads[k]? = some th) :
      th.pc.role.window ticket = 0 := by
    have one := le_census (fun th : Thread => th.pc.role.window ticket) here
    simp only [settled] at one
    omega
  have carried : s.worker.carriers ticket = 0 := by
    have less := census_le (fun th : Thread => th.pc.role.carries ticket)
      (fun th => th.pc.role.window ticket) (l := s.worker.threads) fun th _ => by
        cases th.pc.role <;> simp [Handle.Role.carries, Handle.Role.window]
    unfold Handle.State.carriers
    omega
  have owes : census (fun th : Thread => th.pc.role.owes ticket) s.worker.threads = 0 := by
    by_contra some_one
    obtain ⟨k, th, here, positive⟩ := exists_of_census_pos _ (Nat.pos_of_ne_zero some_one)
    have window := unissued here
    cases role : th.pc.role with
    | issuedOwing u =>
      rw [role] at window positive
      simp only [Handle.Role.window, Handle.Role.owes] at window positive
      omega
    | owing u =>
      rw [role] at positive
      have same : u = ticket := by
        by_contra other
        simp [Handle.Role.owes, other] at positive
      obtain rfl := inv.alone at_ called here (by rw [role, same]; rfl)
      rw [there] at here
      cases here
      cases role
    | _ =>
      rw [role] at positive
      cases positive
  have closer : s.worker.closer.role.owes ticket = 0 := by
    have idle : s.worker.ledger.closer = .idle := by
      by_contra other
      have shut : s.worker.sh.closed = true := books.permits.shut.mpr other
      rw [inv.closed] at shut
      cases shut
    have role : s.worker.closer.role = .idle := idle
    rw [role]
    rfl
  have accepted : ticket ∈ s.worker.hist.accepted := books.permits.returned_accepted returned
  rw [Handle.has_of_mem accepted, Handle.has_of_notMem free] at total
  simp only [Handle.State.releasersOf] at total
  omega

/-- The outcome of a ticket that a Wait has received leaves the permit where it was. -/
theorem live_of_sent (inv : Shares setup s) {ticket : Ticket}
    (sent : s.worker.sh.pending.lookup ticket = some none) : ticket ∈ s.worker.sh.semTickets := by
  have life := Handle.State.returned_lifecycle inv.reach ticket
  rcases life.sent sent with live | gone
  · exact live
  · have running := inv.exited
    rw [show s.worker.sh.drainExited = true from gone] at running
    cases running

theorem settles {j i : Nat} {req : Serve.Request} {ctx : Bool} {pc : Pc} {ticket : Ticket}
    {w : Handle.State} (inv : Shares setup s)
    (at_ : s.server.jobs[j]? = some ⟨req, .waiting ticket⟩) (called : s.calls j = some i)
    (there : s.worker.threads[i]? = some ⟨ctx, pc⟩)
    (stays : ∀ op t c, pc = .race op t c → s.worker.sh.chan c ≠ none)
    (returned : ∀ op t, pc = .claim op t → s.worker.reader.role.owes t = 0)
    (grows : s.worker.hist.Grows w.hist) (settles : Handle.State.Settles s.worker w ticket pc) :
    0 < w.hist.gaveBack ticket := by
  have desk := (Handle.State.reaches_books inv.reach).desk
  have waiter : s.worker.ledger.desk.waiters[i]? = some pc.role.waiter := by
    simp [Handle.Ledger.desk, Handle.State.ledger, there]
  cases settles with
  | paid paid => exact paid
  | claimed free =>
    have paid := inv.paid_of_free at_ called there (returned _ _ rfl) free
    exact Nat.lt_of_lt_of_le paid (grows.gaveBack ticket)
  | refused why =>
    exfalso
    rcases why with kept | closed | exited | waited
    · rw [inv.abandoned] at kept
      cases kept
    · rw [inv.closed] at closed
      cases closed
    · rw [inv.exited] at exited
      cases exited
    · have total := desk.waits ticket
      have entry : (s.worker.ledger.desk.pending ticket).isSome = true :=
        (GoMap.mem_keys _ _).mp waited
      rw [if_pos entry] at total
      obtain ⟨k, w, here, positive⟩ := exists_of_census_pos _ (total ▸ Nat.one_pos)
      simp only [Handle.Ledger.desk, Handle.State.ledger, List.map_map, List.getElem?_map,
        Option.map_eq_some_iff] at here
      obtain ⟨th, other, role⟩ := here
      have has : keeps th.pc.role = some ticket := by
        subst role
        exact waiter_keeps positive
      obtain rfl := inv.alone at_ called other has
      rw [there] at other
      cases other
      cases has
  | @got op d res free =>
    have sent := (desk.got _ res (List.mem_of_getElem? waiter) rfl).1
    exact absurd (inv.live_of_sent sent) free
  | @raced op d res full free =>
    rcases desk.parked _ (List.mem_of_getElem? waiter) rfl with ⟨_, empty, _⟩ | ⟨sent, _⟩
    · exact absurd (show s.worker.sh.chan d = none from empty) (by simp [full])
    · exact absurd (inv.live_of_sent sent) free
  | gaveUp empty => exact absurd empty (stays _ _ _ rfl)

theorem start (setup : Setup) : Shares setup (start setup) where
  reach := .start rfl
  staffed := ⟨nofun, nofun, nofun⟩
  ticketed := ⟨nofun, nofun, nofun, nofun, nofun, nofun, nofun⟩
  closed := rfl
  abandoned := rfl
  reads := rfl

theorem thread {i : Nat} {ctx : Bool} {pc pc' : Pc} {c : Handle.Choice} {w : Handle.State}
    (inv : Shares setup s) (there : s.worker.threads[i]? = some ⟨ctx, pc⟩)
    (stays : ∀ op t c, pc = .race op t c → s.worker.sh.chan c ≠ none)
    (returned : ∀ op t, pc = .claim op t → s.worker.reader.role.owes t = 0)
    (went : s.worker.threadStep setup.config ctx pc c = some (w, pc')) :
    Shares setup { s with worker := { w with threads := w.threads.set i ⟨ctx, pc'⟩ } } := by
  have passes := Handle.State.thread_passes went
  have caller : ∃ j, s.calls j = some i := by
    by_contra nobody
    obtain ⟨out, halted⟩ := inv.staffed.idle i _ there fun j called => nobody ⟨j, called⟩
    cases halted
    cases went
  obtain ⟨j, called⟩ := caller
  obtain ⟨th, req, stage, here, at_, inCall⟩ := inv.staffed.call j i called
  rw [there] at here
  cases here
  have staffed : Staffed s.server.jobs s.calls (w.threads.set i ⟨ctx, pc'⟩) := by
    rw [passes.threads]
    refine inv.staffed.thread there ?_ fun free => absurd called (free j)
    intro stage inCall
    cases inCall with
    | submit submits => exact .submit (Handle.State.thread_submits went submits).stays
    | wait waits => exact .wait (Handle.State.thread_waits went waits).stays
  have moves (may : ∀ t, pc.claims = some t → t ∈ s.worker.hist.returned) :
      Handle.State.Reaches setup.config Handle.Ledger.returnedOnly
        { w with threads := w.threads.set i ⟨ctx, pc'⟩ } := by
    refine inv.reach.next ⟨.thread i c, by simp [Handle.State.step, there, went], ?_⟩
    intro t claims
    simp only [Handle.State.claims, there, Option.bind_some] at claims
    exact may t claims
  have reads : w.reader.reads = true := passes.reader ▸ inv.reads
  cases inCall with
  | submit submits =>
    have did := Handle.State.thread_submits went submits
    refine ⟨moves ?_, staffed, inv.ticketed.submits inv.staffed at_ called there passes.threads did,
      did.closed.trans inv.closed, did.abandoned.trans inv.abandoned, reads⟩
    intro t claims
    cases pc with
    | claim | discardClaim => cases submits
    | _ => cases claims
  | @wait ticket _ waits =>
    have did := Handle.State.thread_waits went waits
    have pays (halted : pc'.collected = true) : 0 < w.hist.gaveBack ticket := by
      rcases did.settles halted with before | settles
      · have paid := inv.ticketed.collected j i req _ ticket at_ called there before
        exact Nat.lt_of_lt_of_le paid (did.grows.gaveBack ticket)
      · exact inv.settles at_ called there stays returned did.grows settles
    refine ⟨moves ?_, staffed,
      inv.ticketed.waits inv.staffed at_ called there passes.threads did pays,
      did.closed.trans inv.closed, ?_, reads⟩
    · intro t claims
      cases pc with
      | claim op u =>
        cases claims
        obtain rfl : t = ticket := of_decide_eq_true waits
        exact inv.ticketed.returned j req t at_
      | discardClaim => cases waits
      | _ => cases claims
    · rcases did.abandoned with same | ⟨op, d, race, empty⟩
      · exact same.trans inv.abandoned
      · exact absurd empty (stays op ticket d race)

theorem reader {c : Handle.ReadChoice} {w : Handle.State} {rd : Handle.ReaderPc}
    (inv : Shares setup s) (works : c ≠ .fail)
    (went : s.worker.readerStep s.worker.reader c = some (w, rd)) :
    Shares setup { s with worker := { w with reader := rd } } := by
  have turns := Handle.State.reader_turns went
  have did := Handle.State.reader_reads went inv.reads works
  refine ⟨inv.reach.next ⟨.reader c, by simp [Handle.State.step, went], nofun⟩, ?_, ?_,
    did.closed.trans inv.closed, ?_, did.stays⟩
  · exact turns.threads ▸ inv.staffed
  · exact inv.ticketed.grows (fun k => by simp [turns.threads]) did.accepted did.grows
  · exact Finset.subset_empty.mp (inv.abandoned ▸ did.abandoned)

theorem moves {t : Joint} (inv : Shares setup s) (moves : Moves setup s t) : Shares setup t := by
  cases moves with
  | host _ _ => exact ⟨inv.reach, inv.staffed, inv.ticketed, inv.closed, inv.abandoned, inv.reads⟩
  | read _ _ => exact ⟨inv.reach, inv.staffed, inv.ticketed, inv.closed, inv.abandoned, inv.reads⟩
  | exit => exact ⟨inv.reach, inv.staffed, inv.ticketed, inv.closed, inv.abandoned, inv.reads⟩
  | serve _ serves went =>
    have passes := serve_passes serves went
    exact ⟨inv.reach, inv.staffed.passes passes, inv.ticketed.passes inv.staffed passes, inv.closed,
      inv.abandoned, inv.reads⟩
  | @submit j req _ outside at_ =>
    exact ⟨inv.reach.next ⟨.call (.submit (.bytes req.input.length)), rfl, nofun⟩,
      inv.staffed.enter outside at_ (.submit rfl), inv.ticketed.enter inv.staffed outside rfl rfl,
      inv.closed, inv.abandoned, inv.reads⟩
  | @wait j req ticket _ outside at_ =>
    exact ⟨inv.reach.next ⟨.call (.wait .wait ticket), rfl, nofun⟩,
      inv.staffed.enter outside at_ (.wait (decide_eq_true rfl)),
      inv.ticketed.enter inv.staffed outside rfl rfl, inv.closed, inv.abandoned, inv.reads⟩
  | @issued j i req ctx ticket _ called there at_ =>
    refine ⟨inv.reach, inv.staffed.leave called there, inv.ticketed.leave at_ ?_ ?_ ?_, inv.closed,
      inv.abandoned, inv.reads⟩
    · rintro t same
      cases same
      exact ⟨.brings at_ called there rfl, inv.ticketed.issued j i req ctx ticket at_ called there⟩
    · intro t owns _
      cases owns with
      | waits here =>
        rw [at_] at here
        cases here
      | brings _ other here brings =>
        rw [called] at other
        cases other
        rw [there] at here
        cases here
        cases brings
        rfl
    · rintro t same
      cases same
      exact .inr rfl
  | @refused j i req ctx e r _ called there at_ =>
    refine ⟨inv.reach, inv.staffed.leave called there, inv.ticketed.leave at_ nofun ?_ nofun,
      inv.closed, inv.abandoned, inv.reads⟩
    intro t owns _
    cases owns with
    | waits here =>
      rw [at_] at here
      cases here
    | brings _ other here brings =>
      rw [called] at other
      cases other
      rw [there] at here
      cases here
      cases brings
  | @waited j i req ctx ticket out r _ called there at_ =>
    have paid := inv.ticketed.collected j i req _ ticket at_ called there rfl
    have gone : Ticketed (s.server.jobs.set j ⟨req, .ran r⟩) (Function.update s.calls j none)
        s.worker (Function.update s.tickets j (s.tickets j)) := by
      refine inv.ticketed.leave at_ nofun ?_ ?_
      · intro t owns unpaid
        cases owns with
        | waits here =>
          rw [at_] at here
          cases here
          omega
        | brings here _ _ _ =>
          rw [at_] at here
          cases here
      · intro t had
        rcases inv.ticketed.paid j t had with already | ⟨other, here⟩
        · exact .inl already
        · rw [at_] at here
          cases here
          exact .inl paid
    rw [Function.update_eq_self] at gone
    exact ⟨inv.reach, inv.staffed.leave called there, gone, inv.closed, inv.abandoned, inv.reads⟩
  | @expire i th _ there =>
    refine ⟨inv.reach.next ⟨.expire i, by simp [Handle.State.step, there], nofun⟩, ?_, ?_,
      inv.closed, inv.abandoned, inv.reads⟩
    · exact inv.staffed.thread there (fun _ inCall => inCall) fun free =>
        inv.staffed.idle i th there free
    · refine inv.ticketed.grows (fun k => ?_) rfl (.refl _)
      rw [getElem?_set_of_some there]
      split
      · rename_i same
        rw [same, there]
        rfl
      · rfl
  | thread _ there stays returned went => exact inv.thread there stays returned went
  | reader _ works went => exact inv.reader works went

end Shares

end Joint

end Gusset.Isolate
