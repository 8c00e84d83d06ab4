import Gusset.Isolate.Serve

/-! What every step of Serve keeps: the map of cancel functions, the wait group, the writer's lock
and what is written. -/
namespace Gusset.Isolate.Serve
open Foundation

namespace Stage

-- Has an entry in `cancels`.
@[grind] def listed : Stage → Bool
  | .unborn | .submitting | .waiting _ | .ran _ => true
  | _ => false

-- Counted by the wait group.
@[grind] def counted : Stage → Nat
  | .unborn | .halted _ => 0
  | _ => 1

-- Holds the lock of the writer.
@[grind] def holds : Stage → Nat
  | .header _ | .body _ => 1
  | _ => 0

@[grind] def outcome : Stage → Option Outcome
  | .ran r | .deleted r | .sending r | .header r | .body r => some r
  | .leaving r | .halted r => r
  | _ => none

@[grind] def answered : Stage → Option Outcome
  | .leaving r | .halted r => r
  | _ => none

end Stage

-- The request and its outcome, once they are on the writer.
def Job.answered (job : Job) : Option (Request × Outcome) := job.stage.answered.map (job.req, ·)

namespace Main

@[grind] def holds : Main → Nat
  | .helloHeader | .helloBody => 1
  | _ => 0

-- Before the loop.
@[grind] def early : Main → Bool
  | .opening | .announcing | .helloHeader | .helloBody | .refused _ => true
  | _ => false

-- The contexts have been cancelled.
@[grind] def stopped : Main → Bool
  | .joining _ | .returned _ => true
  | _ => false

end Main

/-- The entries of `cancels` are the jobs that have not deleted theirs, and no id has two. -/
structure Listed (s : Server) : Prop where
  listed : ∀ (id j : Nat), (id, j) ∈ s.cancels ↔
    ∃ job, s.jobs[j]? = some job ∧ job.req.id = id ∧ job.stage.listed = true
  unique : ∀ (id j k : Nat), (id, j) ∈ s.cancels → (id, k) ∈ s.cancels → j = k

/-- What the loop makes of its input. -/
inductive Reads : List Incoming → Main → List Incoming → Prop
  | eof : Reads [] (.stopping none) []
  | submit {req : Request} {rest : List Incoming} :
      Reads (.submit req :: rest) (.registering req) rest
  | cancel {id : Nat} {rest : List Incoming} : Reads (.cancel id :: rest) (.cancelling id) rest
  | other {op : Text} {rest : List Incoming} :
      Reads (.other op :: rest) (.stopping (some (errUnknownOp op))) rest
  | malformed {err : Text} {rest : List Incoming} :
      Reads (.malformed err :: rest) (.stopping (some err)) rest

/-- What the steps of a goroutine that touch nothing else do with its stage. -/
inductive Advances (h : Caller) (ctx : Ctx) (input : List UInt8) : Stage → Stage → Prop
  | refused {ended : Option CtxErr} {err : GoErr} : h.submit ctx ended input (.error err) →
      Advances h ctx input .submitting (.ran ⟨[], some err⟩)
  | submitted {ended : Option CtxErr} {ticket : Nat} : h.submit ctx ended input (.ok ticket) →
      Advances h ctx input .submitting (.waiting ticket)
  | answered {ended : Option CtxErr} {ticket : Nat} {r : Outcome} : h.wait ctx ended ticket r →
      Advances h ctx input (.waiting ticket) (.ran r)

/-- Everything a step can do. -/
inductive Moves (h : Caller) (marshal : Outgoing → List Byte) (s : Server) : Server → Prop
  | poolSize : s.main = .opening → s.poolSize < 1 ∨ maxPoolSize < s.poolSize →
      Moves h marshal s { s with main := .refused (errPoolSize s.poolSize) }
  | announce : s.main = .opening → Moves h marshal s { s with main := .announcing }
  | helloTooLarge {err : Text} : s.main = .announcing →
      maxResponseFrame < (marshal s.hello).length →
      Moves h marshal s { s with main := .refused err }
  | lockHello : s.main = .announcing → s.wmu = none →
      Moves h marshal s { s with wmu := some (s.hello, false), main := .helloHeader }
  | helloHeader : s.main = .helloHeader →
      Moves h marshal s { s.writeHeader marshal s.hello with main := .helloBody }
  | helloBody : s.main = .helloBody →
      Moves h marshal s { s.writeBody marshal s.hello with main := .reading }
  | read {main : Main} {rest : List Incoming} : s.main = .reading → Reads s.input main rest →
      Moves h marshal s { s with main := main, input := rest }
  | duplicate {req : Request} {j : Nat} : s.main = .registering req → (req.id, j) ∈ s.cancels →
      Moves h marshal s { s with main := .stopping (some (errDuplicate req.id)) }
  | register {req : Request} : s.main = .registering req → (∀ j, (req.id, j) ∉ s.cancels) →
      Moves h marshal s { s with
        cancels := s.cancels ++ [(req.id, s.jobs.length)]
        jobs := s.jobs ++ [⟨req, .unborn⟩]
        main := .spawning s.jobs.length }
  | spawn {j : Nat} {req : Request} : s.main = .spawning j → s.jobs[j]? = some ⟨req, .unborn⟩ →
      Moves h marshal s { s with
        wg := s.wg + 1
        jobs := s.jobs.set j ⟨req, .submitting⟩
        main := .reading }
  | cancel {id : Nat} : s.main = .cancelling id →
      Moves h marshal s { s.cancel (s.cancels.filter (·.1 = id)) with main := .reading }
  | stop {err : Option Text} : s.main = .stopping err →
      Moves h marshal s { s.cancel s.cancels with main := .joining err }
  | finish {err : Option Text} : s.main = .joining err → s.wg = 0 →
      Moves h marshal s { s with main := .returned (err.elim s.sendErr ([·])) }
  | advance {j : Nat} {job : Job} {stage : Stage} : s.jobs[j]? = some job →
      Advances h (requestContext job.req) job.req.input job.stage stage →
      Moves h marshal s { s with jobs := s.jobs.set j ⟨job.req, stage⟩ }
  | delete {j : Nat} {req : Request} {r : Outcome} : s.jobs[j]? = some ⟨req, .ran r⟩ →
      Moves h marshal s { s with
        jobs := s.jobs.set j ⟨req, .deleted r⟩
        cancels := s.cancels.filter (·.1 ≠ req.id) }
  | cancelOwn {j : Nat} {req : Request} {r : Outcome} : s.jobs[j]? = some ⟨req, .deleted r⟩ →
      Moves h marshal s { s.cancel [(req.id, j)] with jobs := s.jobs.set j ⟨req, .sending r⟩ }
  | lock {j : Nat} {req : Request} {r : Outcome} : s.jobs[j]? = some ⟨req, .sending r⟩ →
      s.wmu = none →
      Moves h marshal s { s with
        wmu := some (answer req r, false)
        jobs := s.jobs.set j ⟨req, .header r⟩ }
  | tooLarge {j : Nat} {req : Request} {r : Outcome} {err : Text} :
      s.jobs[j]? = some ⟨req, .sending r⟩ →
      maxResponseFrame < (marshal (answer req r)).length →
      Moves h marshal s { s with jobs := s.jobs.set j ⟨req, .unsent err⟩ }
  | header {j : Nat} {req : Request} {r : Outcome} : s.jobs[j]? = some ⟨req, .header r⟩ →
      Moves h marshal s { s.writeHeader marshal (answer req r) with
        jobs := s.jobs.set j ⟨req, .body r⟩ }
  | body {j : Nat} {req : Request} {r : Outcome} : s.jobs[j]? = some ⟨req, .body r⟩ →
      Moves h marshal s { s.writeBody marshal (answer req r) with
        jobs := s.jobs.set j ⟨req, .leaving (some r)⟩ }
  | unsent {j : Nat} {req : Request} {err : Text} : s.jobs[j]? = some ⟨req, .unsent err⟩ →
      Moves h marshal s { s with
        sendErr := s.sendErr ++ [err]
        jobs := s.jobs.set j ⟨req, .leaving none⟩ }
  | leave {j : Nat} {req : Request} {answered : Option Outcome} :
      s.jobs[j]? = some ⟨req, .leaving answered⟩ →
      Moves h marshal s { s with
        wg := s.wg - 1
        jobs := s.jobs.set j ⟨req, .halted answered⟩ }
  | expire {j : Nat} {job : Job} : s.jobs[j]? = some job → s.ended j = none →
      Moves h marshal s { s with ended := Function.update s.ended j (some .deadlineExceeded) }

section moves
variable {h : Caller} {marshal : Outgoing → List Byte} {s t : Server}

theorem mainStep_moves (went : s.mainStep marshal = some t) : Moves h marshal s t := by
  unfold Server.mainStep at went
  split at went
  · rename_i main
    split at went <;> cases went
    · rename_i outside
      exact .poolSize main outside
    · exact .announce main
  · rename_i main
    split at went
    · cases went
    · rename_i free
      simp only [Server.lock] at went
      split at went
      · rename_i refused
        split at refused
        · rename_i large
          cases went
          exact .helloTooLarge main large
        · cases refused
      · rename_i locked
        split at locked
        · cases locked
        · cases locked
          cases went
          exact .lockHello main (by simpa using free)
  · rename_i main
    cases went
    exact .helloHeader main
  · rename_i main
    cases went
    exact .helloBody main
  · rename_i main
    split at went
    all_goals
      rename_i input
      cases went
      refine .read main ?_
      rw [input]
      constructor
  · rename_i req main
    split at went
    · rename_i known
      cases went
      obtain ⟨⟨id, j⟩, member, same⟩ := List.any_eq_true.mp known
      obtain rfl : id = req.id := by simpa using same
      exact .duplicate main member
    · rename_i fresh
      cases went
      refine .register main fun j member => fresh ?_
      exact List.any_eq_true.mpr ⟨_, member, by simp⟩
  · rename_i j main
    split at went
    · rename_i req unborn
      cases went
      exact .spawn main unborn
    · cases went
  · rename_i id main
    cases went
    exact .cancel main
  · rename_i err main
    cases went
    exact .stop main
  · rename_i err main
    split at went
    · rename_i none
      cases went
      exact .finish main none
    · cases went
  all_goals cases went

theorem jobStep_moves {j : Nat} {job : Job} (at_ : s.jobs[j]? = some job)
    (went : s.jobStep marshal j job = some t) : Moves h marshal s t := by
  obtain ⟨req, stage⟩ := job
  simp only [Server.jobStep] at went
  split at went
  · cases went
    exact .delete at_
  · cases went
    exact .cancelOwn at_
  · split at went
    · cases went
    · rename_i free
      simp only [Server.lock] at went
      split at went
      · rename_i refused
        split at refused
        · rename_i large
          cases went
          exact .tooLarge at_ large
        · cases refused
      · rename_i locked
        split at locked
        · cases locked
        · cases locked
          cases went
          exact .lock at_ (by simpa using free)
  · cases went
    exact .header at_
  · cases went
    exact .body at_
  · cases went
    exact .unsent at_
  · cases went
    exact .leave at_
  · cases went

theorem step_moves {a : Act} (allowed : a.allowed h s) (went : s.step marshal a = some t) :
    Moves h marshal s t := by
  cases a with
  | main => exact mainStep_moves went
  | job j =>
    obtain ⟨job, at_, went⟩ := Option.bind_eq_some_iff.mp went
    exact jobStep_moves at_ went
  | submitted j answer =>
    obtain ⟨job, at_, gave⟩ := allowed
    simp only [Server.step] at went
    split at went
    · rename_i req found
      rw [found] at at_
      cases at_
      cases went
      cases answer with
      | ok ticket => exact .advance found (.submitted gave)
      | error err => exact .advance found (.refused gave)
    · cases went
  | answered j r =>
    obtain ⟨job, ticket, at_, stage, gave⟩ := allowed
    simp only [Server.step] at went
    split at went
    · rename_i req other found
      rw [found] at at_
      cases at_
      cases stage
      cases went
      exact .advance found (.answered gave)
    · cases went
  | expire j =>
    simp only [Server.step] at went
    split at went
    · rename_i job found
      split at went
      · rename_i running
        cases went
        exact .expire found running.2
      · cases went
    · cases went
  | refuse err => cases allowed

theorem Advances.same {ctx : Ctx} {input : List UInt8} {a b : Stage}
    (advances : Advances h ctx input a b) :
    b.listed = a.listed ∧ b.counted = a.counted ∧ b.holds = 0 ∧ a.holds = 0 ∧
      b.answered = none ∧ a.answered = none := by
  cases advances <;> exact ⟨rfl, rfl, rfl, rfl, rfl, rfl⟩

theorem Reads.late {input rest : List Incoming} {main : Main} (reads : Reads input main rest) :
    main.early = false := by
  cases reads <;> rfl

theorem Reads.holds {input rest : List Incoming} {main : Main} (reads : Reads input main rest) :
    main.holds = 0 := by
  cases reads <;> rfl

namespace Listed

theorem job {j : Nat} {job : Job} {stage : Stage} (inv : Listed s) (at_ : s.jobs[j]? = some job)
    (jobs : t.jobs = s.jobs.set j ⟨job.req, stage⟩) (cancels : t.cancels = s.cancels)
    (same : stage.listed = job.stage.listed) : Listed t := by
  have set := getElem?_set_of_some at_ ⟨job.req, stage⟩
  obtain ⟨listed, unique⟩ := inv
  refine ⟨?_, by rw [cancels]; exact unique⟩
  intro id k
  rw [cancels, jobs, listed, set]
  by_cases here : k = j
  · subst here
    simp [at_, same]
  · simp [here]

theorem delete {j : Nat} {req : Request} {r : Outcome} (inv : Listed s)
    (at_ : s.jobs[j]? = some ⟨req, .ran r⟩) :
    Listed { s with
      jobs := s.jobs.set j ⟨req, .deleted r⟩
      cancels := s.cancels.filter (·.1 ≠ req.id) } := by
  have set := getElem?_set_of_some at_ ⟨req, .deleted r⟩
  obtain ⟨listed, unique⟩ := inv
  have own : (req.id, j) ∈ s.cancels := (listed req.id j).mpr ⟨_, at_, rfl, rfl⟩
  refine ⟨?_, ?_⟩
  · intro id k
    simp only [List.mem_filter, listed, decide_eq_true_eq, set]
    by_cases here : k = j
    · subst here
      simpa [at_, Stage.listed] using Eq.symm
    · simp only [if_neg here]
      constructor
      · exact fun both => both.1
      · rintro ⟨job, there, rfl, on⟩
        refine ⟨⟨job, there, rfl, on⟩, ?_⟩
        intro same
        exact here (unique req.id k j ((listed _ k).mpr ⟨job, there, same, on⟩) own)
  · intro id k l first second
    exact unique id k l (List.mem_filter.mp first).1 (List.mem_filter.mp second).1

theorem register {req : Request} (inv : Listed s) (fresh : ∀ j, (req.id, j) ∉ s.cancels) :
    Listed { s with
      cancels := s.cancels ++ [(req.id, s.jobs.length)]
      jobs := s.jobs ++ [⟨req, .unborn⟩]
      main := .spawning s.jobs.length } := by
  obtain ⟨listed, unique⟩ := inv
  refine ⟨?_, ?_⟩
  · intro id k
    simp only [List.mem_append, List.mem_singleton, Prod.mk.injEq, listed]
    constructor
    · rintro (⟨job, there, rest⟩ | ⟨rfl, rfl⟩)
      · have inside := (List.getElem?_eq_some_iff.mp there).1
        exact ⟨job, by rw [List.getElem?_append_left inside, there], rest⟩
      · exact ⟨⟨req, .unborn⟩, List.getElem?_concat_length, rfl, rfl⟩
    · rintro ⟨job, there, rest⟩
      rcases getElem?_concat_cases there with old | ⟨here, rfl⟩
      · exact .inl ⟨job, old, rest⟩
      · exact .inr ⟨rest.1.symm, here⟩
  · intro id k l first second
    simp only [List.mem_append, List.mem_singleton, Prod.mk.injEq] at first second
    rcases first with old | ⟨rfl, rfl⟩
    · rcases second with older | ⟨rfl, rfl⟩
      · exact unique id k l old older
      · exact absurd old (fresh k)
    · rcases second with older | ⟨_, rfl⟩
      · exact absurd older (fresh l)
      · rfl

theorem moves (inv : Listed s) (moves : Moves h marshal s t) : Listed t := by
  cases moves with
  | poolSize | announce | helloTooLarge | lockHello | helloHeader | helloBody | read | duplicate
  | cancel | stop | finish | expire => exact ⟨inv.listed, inv.unique⟩
  | register _ fresh => exact inv.register fresh
  | spawn _ at_ => exact inv.job at_ rfl rfl rfl
  | advance at_ advances => exact inv.job at_ rfl rfl advances.same.1
  | delete at_ => exact inv.delete at_
  | cancelOwn at_ | lock at_ | tooLarge at_ | header at_ | body at_ | unsent at_ | leave at_ =>
    exact inv.job at_ rfl rfl rfl

end Listed

/-- The wait group counts the goroutines that run, and the lock the one that writes. -/
structure Counts (s : Server) : Prop where
  wg : s.wg = census (fun job => job.stage.counted) s.jobs
  wmu : s.main.holds + census (fun job => job.stage.holds) s.jobs = s.wmu.isSome.toNat

namespace Counts

theorem job {j : Nat} {job job' : Job} (inv : Counts s) (at_ : s.jobs[j]? = some job)
    (jobs : t.jobs = s.jobs.set j job')
    (wg : t.wg + job.stage.counted = s.wg + job'.stage.counted)
    (wmu : t.main.holds + job'.stage.holds + s.wmu.isSome.toNat =
      s.main.holds + job.stage.holds + t.wmu.isSome.toNat) : Counts t := by
  have counted := census_set (fun job => job.stage.counted) at_ job'
  have holds := census_set (fun job => job.stage.holds) at_ job'
  have before := inv.wg
  have locked := inv.wmu
  refine ⟨?_, ?_⟩
  · rw [jobs]
    omega
  · rw [jobs]
    omega

theorem locked_main (inv : Counts s) (holds : s.main.holds = 1) : s.wmu.isSome.toNat = 1 := by
  have locked := inv.wmu
  have most := Bool.toNat_le s.wmu.isSome
  omega

theorem locked_job {j : Nat} {job : Job} (inv : Counts s) (at_ : s.jobs[j]? = some job)
    (holds : job.stage.holds = 1) : s.wmu.isSome.toNat = 1 := by
  have here := le_census (fun job => job.stage.holds) at_
  have locked := inv.wmu
  have most := Bool.toNat_le s.wmu.isSome
  omega

theorem aside (inv : Counts s) (jobs : t.jobs = s.jobs) (wg : t.wg = s.wg)
    (wmu : t.main.holds + s.wmu.isSome.toNat = s.main.holds + t.wmu.isSome.toNat) : Counts t := by
  have locked := inv.wmu
  refine ⟨by rw [wg, jobs]; exact inv.wg, ?_⟩
  rw [jobs]
  omega

theorem moves (inv : Counts s) (moves : Moves h marshal s t) : Counts t := by
  cases moves with
  | poolSize main | announce main | helloTooLarge main | duplicate main | cancel main | stop main
  | finish main => exact inv.aside rfl rfl (by rw [main]; rfl)
  | read main reads =>
    exact inv.aside rfl rfl (by rw [main, reads.holds]; rfl)
  | lockHello main free => exact inv.aside rfl rfl (by rw [main, free]; rfl)
  | helloHeader main =>
    exact inv.aside rfl rfl (by rw [inv.locked_main (by rw [main]; rfl), main]; rfl)
  | helloBody main =>
    exact inv.aside rfl rfl (by rw [inv.locked_main (by rw [main]; rfl), main]; rfl)
  | register main _ =>
    have before := inv.wg
    have locked := inv.wmu
    rw [main] at locked
    refine ⟨?_, ?_⟩
    · rw [census_concat]
      exact before
    · rw [census_concat]
      exact locked
  | spawn main at_ => exact inv.job at_ rfl rfl (by rw [main]; rfl)
  | advance at_ advances =>
    obtain ⟨_, counted, holds, none, _⟩ := advances.same
    exact inv.job at_ rfl (by simp only [counted]) (by simp only [holds, none])
  | delete at_ | cancelOwn at_ | tooLarge at_ | unsent at_ => exact inv.job at_ rfl rfl rfl
  | lock at_ free =>
    refine inv.job at_ rfl rfl ?_
    rw [free]
    rfl
  | header at_ =>
    refine inv.job at_ rfl rfl ?_
    rw [inv.locked_job at_ rfl]
    rfl
  | body at_ =>
    refine inv.job at_ rfl rfl ?_
    rw [inv.locked_job at_ rfl]
    rfl
  | leave at_ =>
    have some_ : 0 < s.wg := by
      rw [inv.wg]
      exact le_census (fun job => job.stage.counted) at_
    exact inv.job at_ rfl (Nat.sub_add_cancel some_) rfl
  | expire => exact ⟨inv.wg, inv.wmu⟩

end Counts

/-- The frame a goroutine is writing, and whether its length is out. -/
def Job.frame (job : Job) : Option (Outgoing × Bool) :=
  match job.stage with
  | .header r => some (answer job.req r, false)
  | .body r => some (answer job.req r, true)
  | _ => none

def Server.helloFrame (s : Server) : Option (Outgoing × Bool) :=
  match s.main with
  | .helloHeader => some (s.hello, false)
  | .helloBody => some (s.hello, true)
  | _ => none

-- What is out of a frame that is not out whole.
def dangling (marshal : Outgoing → List Byte) : Option (Outgoing × Bool) → List (List Byte)
  | some (f, true) => [putUint32 (marshal f).length]
  | _ => []

/-- Whoever writes holds the lock, and the writer has got whole frames and at most one length. -/
structure Writing (marshal : Outgoing → List Byte) (s : Server) : Prop where
  main : ∀ f, s.helloFrame = some f → s.wmu = some f
  jobs : ∀ (j : Nat) (job : Job) (f : Outgoing × Bool), s.jobs[j]? = some job →
    job.frame = some f → s.wmu = some f
  writes : s.writes = s.sent.flatMap (Server.pieces marshal) ++ dangling marshal s.wmu

theorem Job.frame_holds {job : Job} {f : Outgoing × Bool} (writes : job.frame = some f) :
    job.stage.holds = 1 := by
  unfold Job.frame at writes
  split at writes
  · rename_i stage
    rw [stage]
    rfl
  · rename_i stage
    rw [stage]
    rfl
  · cases writes

theorem Server.helloFrame_holds {f : Outgoing × Bool} (writes : s.helloFrame = some f) :
    s.main.holds = 1 := by
  unfold helloFrame at writes
  split at writes
  · rename_i main
    rw [main]
    rfl
  · rename_i main
    rw [main]
    rfl
  · cases writes

namespace Writing

/-- A step that writes nothing. -/
theorem keep (inv : Writing marshal s) (wmu : t.wmu = s.wmu)
    (out : t.writes = s.writes ∧ t.sent = s.sent)
    (main : ∀ f, t.helloFrame = some f → s.helloFrame = some f)
    (jobs : ∀ (j : Nat) (job : Job) (f : Outgoing × Bool), t.jobs[j]? = some job →
      job.frame = some f → ∃ old, s.jobs[j]? = some old ∧ old.frame = some f) :
        Writing marshal t := by
  refine ⟨?_, ?_, ?_⟩
  · intro f writes
    rw [wmu]
    exact inv.main f (main f writes)
  · intro j job f there writes
    obtain ⟨old, was, same⟩ := jobs j job f there writes
    rw [wmu]
    exact inv.jobs j old f was same
  · rw [wmu, out.1, out.2]
    exact inv.writes

theorem aside (inv : Writing marshal s) (same : t.jobs = s.jobs ∧ t.wmu = s.wmu)
    (out : t.writes = s.writes ∧ t.sent = s.sent) (main : t.main.holds = 0) : Writing marshal t := by
  refine inv.keep same.2 out ?_ ?_
  · intro f writes
    rw [Server.helloFrame_holds writes] at main
    cases main
  · intro j job f there writes
    rw [same.1] at there
    exact ⟨job, there, writes⟩

theorem job {j : Nat} {job job' : Job} (inv : Writing marshal s) (at_ : s.jobs[j]? = some job)
    (jobs : t.jobs = s.jobs.set j job') (wmu : t.wmu = s.wmu)
    (out : t.writes = s.writes ∧ t.sent = s.sent) (main : t.helloFrame = s.helloFrame)
    (quiet : job'.stage.holds = 0) : Writing marshal t := by
  refine inv.keep wmu out (fun f writes => main ▸ writes) ?_
  intro k other f there writes
  rw [jobs, getElem?_set_of_some at_] at there
  split at there
  · cases there
    rw [Job.frame_holds writes] at quiet
    cases quiet
  · exact ⟨other, there, writes⟩

/-- The only one that writes. -/
theorem alone {j k : Nat} {job other : Job} {f g : Outgoing × Bool} (counts : Counts s)
    (at_ : s.jobs[j]? = some job) (writes : job.frame = some f) (there : s.jobs[k]? = some other)
    (also : other.frame = some g) : k = j := by
  have locked := counts.wmu
  have most := Bool.toNat_le s.wmu.isSome
  apply index_unique (fun job => job.stage.holds) (by omega) there at_
  · rw [Job.frame_holds also]
    exact Nat.one_pos
  · rw [Job.frame_holds writes]
    exact Nat.one_pos

/-- While a goroutine writes, the hello frame is out. -/
theorem greeted {j : Nat} {job : Job} {f g : Outgoing × Bool} (counts : Counts s)
    (at_ : s.jobs[j]? = some job) (writes : job.frame = some f) : s.helloFrame ≠ some g := by
  intro also
  have locked := counts.wmu
  have most := Bool.toNat_le s.wmu.isSome
  have here := le_census (fun job => job.stage.holds) at_
  have one := Job.frame_holds writes
  have main := Server.helloFrame_holds also
  omega

theorem lock {j : Nat} {req : Request} {r : Outcome} (inv : Writing marshal s)
    (at_ : s.jobs[j]? = some ⟨req, .sending r⟩) (free : s.wmu = none) :
    Writing marshal { s with
      wmu := some (answer req r, false)
      jobs := s.jobs.set j ⟨req, .header r⟩ } := by
  refine ⟨?_, ?_, ?_⟩
  · intro f writes
    have held := inv.main f writes
    rw [free] at held
    cases held
  · intro k job f there writes
    rw [getElem?_set_of_some at_] at there
    split at there
    · cases there
      exact writes
    · have held := inv.jobs k job f there writes
      rw [free] at held
      cases held
  · have before := inv.writes
    rw [free] at before
    exact before

theorem header {j : Nat} {req : Request} {r : Outcome} (inv : Writing marshal s) (counts : Counts s)
    (at_ : s.jobs[j]? = some ⟨req, .header r⟩) :
    Writing marshal
      { s.writeHeader marshal (answer req r) with jobs := s.jobs.set j ⟨req, .body r⟩ } := by
  have held := inv.jobs j _ _ at_ rfl
  refine ⟨?_, ?_, ?_⟩
  · intro f writes
    exact absurd (show s.helloFrame = some f from writes) (greeted counts at_ rfl)
  · intro k job f there writes
    rw [getElem?_set_of_some at_] at there
    split at there
    · cases there
      exact writes
    · rename_i other
      exact absurd (alone counts at_ rfl there writes) other
  · have before := inv.writes
    rw [held] at before
    simp only [Server.writeHeader, before, dangling, List.append_nil]

theorem body {j : Nat} {req : Request} {r : Outcome} (inv : Writing marshal s) (counts : Counts s)
    (at_ : s.jobs[j]? = some ⟨req, .body r⟩) :
    Writing marshal { s.writeBody marshal (answer req r) with
      jobs := s.jobs.set j ⟨req, .leaving (some r)⟩ } := by
  have held := inv.jobs j _ _ at_ rfl
  refine ⟨?_, ?_, ?_⟩
  · intro f writes
    exact absurd (show s.helloFrame = some f from writes) (greeted counts at_ rfl)
  · intro k job f there writes
    rw [getElem?_set_of_some at_] at there
    split at there
    · cases there
      cases writes
    · rename_i other
      exact absurd (alone counts at_ rfl there writes) other
  · have before := inv.writes
    rw [held] at before
    simp [Server.writeBody, before, dangling, Server.pieces]

theorem hello {f : Outgoing × Bool} (counts : Counts s)
    (writes : s.helloFrame = some f) (jobs : t.jobs = s.jobs)
    (main : ∀ f, t.helloFrame = some f → t.wmu = some f)
    (out : t.writes = t.sent.flatMap (Server.pieces marshal) ++ dangling marshal t.wmu) :
    Writing marshal t := by
  refine ⟨main, ?_, out⟩
  intro j job g there also
  rw [jobs] at there
  exact absurd writes (greeted counts there also)

theorem moves (inv : Writing marshal s) (counts : Counts s) (moves : Moves h marshal s t) :
    Writing marshal t := by
  cases moves with
  | poolSize | announce | helloTooLarge | duplicate | cancel | stop | finish =>
    exact inv.aside ⟨rfl, rfl⟩ ⟨rfl, rfl⟩ rfl
  | read _ reads => exact inv.aside ⟨rfl, rfl⟩ ⟨rfl, rfl⟩ reads.holds
  | lockHello main free =>
    refine ⟨fun f writes => writes, ?_, ?_⟩
    · intro j job f there writes
      have held := inv.jobs j job f there writes
      rw [free] at held
      cases held
    · have before := inv.writes
      rw [free] at before
      exact before
  | helloHeader main =>
    have writing : s.helloFrame = some (s.hello, false) := by simp only [Server.helloFrame, main]
    have held := inv.main _ writing
    refine Writing.hello counts writing rfl (fun f writes => writes) ?_
    have before := inv.writes
    rw [held] at before
    simp only [Server.writeHeader, before, dangling, List.append_nil]
  | helloBody main =>
    have writing : s.helloFrame = some (s.hello, true) := by simp only [Server.helloFrame, main]
    have held := inv.main _ writing
    refine Writing.hello counts writing rfl nofun ?_
    have before := inv.writes
    rw [held] at before
    simp [Server.writeBody, before, dangling, Server.pieces]
  | register main _ =>
    refine inv.keep rfl ⟨rfl, rfl⟩ nofun ?_
    intro j job f there writes
    rcases getElem?_concat_cases there with old | ⟨_, rfl⟩
    · exact ⟨job, old, writes⟩
    · cases writes
  | spawn main at_ => exact inv.job at_ rfl rfl ⟨rfl, rfl⟩ (by simp [Server.helloFrame, main]) rfl
  | advance at_ advances => exact inv.job at_ rfl rfl ⟨rfl, rfl⟩ rfl advances.same.2.2.1
  | delete at_ | cancelOwn at_ | tooLarge at_ | unsent at_ | leave at_ =>
    exact inv.job at_ rfl rfl ⟨rfl, rfl⟩ rfl rfl
  | lock at_ free => exact inv.lock at_ free
  | header at_ => exact inv.header counts at_
  | body at_ => exact inv.body counts at_
  | expire => exact ⟨inv.main, inv.jobs, inv.writes⟩

end Writing

/-- What is out whole: the hello frame, then the answers of the goroutines that got so far. -/
structure Greets (s : Server) : Prop where
  early : s.main.early = true → s.jobs = [] ∧ s.sent = []
  sent : s.main.early = false → ∃ answered : List (Request × Outcome),
    s.sent = s.hello :: answered.map (fun a => answer a.1 a.2) ∧
      answered.Perm (s.jobs.filterMap Job.answered)

theorem filterMap_set_same {α β : Type} {f : α → Option β} {l : List α} {i : Nat} {a b : α}
    (member : l[i]? = some a) (same : f b = f a) : (l.set i b).filterMap f = l.filterMap f := by
  induction l generalizing i with
  | nil => simp at member
  | cons x l ih =>
    cases i with
    | zero =>
      have here : x = a := by simpa using member
      simp [List.filterMap_cons, here, same]
    | succ i =>
      have rest := ih (i := i) (by simpa using member)
      rw [List.set_cons_succ, List.filterMap_cons, rest, List.filterMap_cons]

theorem filterMap_set_perm {α β : Type} {f : α → Option β} {l : List α} {i : Nat} {a b : α} {v : β}
    (member : l[i]? = some a) (none : f a = none) (some_ : f b = some v) :
    ((l.set i b).filterMap f).Perm (l.filterMap f ++ [v]) := by
  induction l generalizing i with
  | nil => simp at member
  | cons x l ih =>
    cases i with
    | zero =>
      have here : x = a := by simpa using member
      simpa [List.filterMap_cons, here, none, some_] using (List.perm_append_singleton v _).symm
    | succ i =>
      have rest := ih (i := i) (by simpa using member)
      rw [List.set_cons_succ, List.filterMap_cons, List.filterMap_cons]
      cases f x with
      | none => exact rest
      | some w => exact rest.cons w

namespace Greets

theorem aside (inv : Greets s) (jobs : t.jobs.filterMap Job.answered = s.jobs.filterMap Job.answered)
    (same : t.sent = s.sent ∧ t.poolSize = s.poolSize) (main : s.main.early = false)
    (late : t.main.early = false) : Greets t := by
  refine ⟨by simp [late], fun _ => ?_⟩
  obtain ⟨answered, sent, perm⟩ := inv.sent main
  refine ⟨answered, ?_, ?_⟩
  · rw [same.1, sent, Server.hello, Server.hello, same.2]
  · rw [jobs]
    exact perm

theorem job {j : Nat} {job job' : Job} (inv : Greets s) (at_ : s.jobs[j]? = some job)
    (jobs : t.jobs = s.jobs.set j job') (answered : job'.answered = job.answered)
    (same : t.sent = s.sent ∧ t.poolSize = s.poolSize) (main : t.main = s.main) : Greets t := by
  have late : s.main.early = false := by
    by_contra soon
    rw [Bool.not_eq_false] at soon
    rw [(inv.early soon).1] at at_
    simp at at_
  refine inv.aside ?_ same late (by rw [main, late])
  rw [jobs]
  exact filterMap_set_same at_ answered

theorem moves (inv : Greets s) (moves : Moves h marshal s t) : Greets t := by
  have soon {main : Main} (was : s.main = main) (early : main.early = true) :
      s.jobs = [] ∧ s.sent = [] := inv.early (was ▸ early)
  cases moves with
  | poolSize main | announce main | helloTooLarge main | lockHello main | helloHeader main =>
    exact ⟨fun _ => soon main rfl, nofun⟩
  | helloBody main =>
    obtain ⟨jobs, sent⟩ := soon main rfl
    refine ⟨nofun, fun _ => ⟨[], ?_, ?_⟩⟩
    · simp only [Server.writeBody, sent]
      rfl
    · simp only [Server.writeBody, jobs]
      exact .refl _
  | read main reads =>
    exact inv.aside rfl ⟨rfl, rfl⟩ (by rw [main]; rfl) reads.late
  | duplicate main | cancel main | stop main | finish main =>
    exact inv.aside rfl ⟨rfl, rfl⟩ (by rw [main]; rfl) rfl
  | register main _ =>
    refine inv.aside ?_ ⟨rfl, rfl⟩ (by rw [main]; rfl) rfl
    simp [List.filterMap_append, Job.answered, Stage.answered]
  | spawn main at_ =>
    exact inv.aside (filterMap_set_same at_ rfl) ⟨rfl, rfl⟩ (by rw [main]; rfl) rfl
  | advance at_ advances =>
    obtain ⟨_, _, _, _, now, was⟩ := advances.same
    exact inv.job at_ rfl (by simp only [Job.answered, now, was]) ⟨rfl, rfl⟩ rfl
  | delete at_ | cancelOwn at_ | lock at_ | tooLarge at_ | header at_ | unsent at_ | leave at_ =>
    exact inv.job at_ rfl rfl ⟨rfl, rfl⟩ rfl
  | body at_ =>
    rename_i j req r
    have late : s.main.early = false := by
      by_contra early
      rw [Bool.not_eq_false] at early
      rw [(inv.early early).1] at at_
      simp at at_
    refine ⟨fun early => absurd early (by simp [Server.writeBody, late]), fun _ => ?_⟩
    obtain ⟨answered, sent, perm⟩ := inv.sent late
    refine ⟨answered ++ [(req, r)], ?_, ?_⟩
    · simp [Server.writeBody, sent, Server.hello]
    · have more := filterMap_set_perm (f := Job.answered) (b := ⟨req, .leaving (some r)⟩) at_ rfl rfl
      exact (perm.append_right _).trans more.symm
  | expire => exact ⟨inv.early, inv.sent⟩

end Greets

/-- What Submit and Wait gave each goroutine. -/
structure Outcomes (h : Caller) (s : Server) : Prop where
  ticket : ∀ (j : Nat) (req : Request) (ticket : Nat), s.jobs[j]? = some ⟨req, .waiting ticket⟩ →
    ∃ ended, h.submit (requestContext req) ended req.input (.ok ticket)
  ran : ∀ (j : Nat) (job : Job) (r : Outcome), s.jobs[j]? = some job → job.stage.outcome = some r →
    h.Ran (requestContext job.req) job.req.input r

namespace Outcomes

theorem job {j : Nat} {job : Job} {stage : Stage} (inv : Outcomes h s) (at_ : s.jobs[j]? = some job)
    (jobs : t.jobs = s.jobs.set j ⟨job.req, stage⟩)
    (ticket : ∀ ticket, stage = .waiting ticket →
      ∃ ended, h.submit (requestContext job.req) ended job.req.input (.ok ticket))
    (ran : ∀ r, stage.outcome = some r → job.stage.outcome = some r ∨
      h.Ran (requestContext job.req) job.req.input r) : Outcomes h t := by
  refine ⟨?_, ?_⟩
  · intro k req number there
    rw [jobs, getElem?_set_of_some at_] at there
    split at there
    · cases there
      exact ticket number rfl
    · exact inv.ticket k req number there
  · intro k other r there has
    rw [jobs, getElem?_set_of_some at_] at there
    split at there
    · cases there
      rcases ran r has with old | now
      · exact inv.ran j job r at_ old
      · exact now
    · exact inv.ran k other r there has

theorem advance {j : Nat} {job : Job} {stage : Stage} (inv : Outcomes h s)
    (at_ : s.jobs[j]? = some job)
    (advances : Advances h (requestContext job.req) job.req.input job.stage stage) :
    Outcomes h { s with jobs := s.jobs.set j ⟨job.req, stage⟩ } := by
  obtain ⟨req, was⟩ := job
  cases advances with
  | refused gave =>
    refine inv.job at_ rfl nofun ?_
    rintro r ⟨⟩
    exact .inr (.refused gave)
  | submitted gave =>
    refine inv.job at_ rfl ?_ nofun
    rintro ticket ⟨⟩
    exact ⟨_, gave⟩
  | answered gave =>
    refine inv.job at_ rfl nofun ?_
    rintro r ⟨⟩
    obtain ⟨ended, submitted⟩ := inv.ticket j req _ at_
    exact .inr (.waited submitted gave)

theorem moves (inv : Outcomes h s) (moves : Moves h marshal s t) : Outcomes h t := by
  cases moves with
  | poolSize | announce | helloTooLarge | lockHello | helloHeader | helloBody | read | duplicate
  | cancel | stop | finish | expire => exact ⟨inv.ticket, inv.ran⟩
  | register _ _ =>
    refine ⟨?_, ?_⟩
    · intro k req number there
      rcases getElem?_concat_cases there with old | ⟨_, same⟩
      · exact inv.ticket k req number old
      · cases same
    · intro k job r there has
      rcases getElem?_concat_cases there with old | ⟨_, rfl⟩
      · exact inv.ran k job r old has
      · cases has
  | spawn _ at_ | unsent at_ | tooLarge at_ => exact inv.job at_ rfl nofun nofun
  | advance at_ advances => exact inv.advance at_ advances
  | delete at_ | cancelOwn at_ | lock at_ | header at_ | body at_ | leave at_ =>
    exact inv.job at_ rfl nofun fun r has => .inl has

end Outcomes

end moves

end Gusset.Isolate.Serve
