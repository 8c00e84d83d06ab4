import Gusset.Isolate.Serving

/-! Serve as a whole: it ends, every context is cancelled at the end of the input, and each submit
has one answer. -/
namespace Gusset.Isolate.Serve
open Foundation

variable {h : Caller} {marshal : Outgoing → List Byte} {s t : Server}

theorem cancel_ended {entries : List (Nat × Nat)} {j : Nat} (was : s.ended j ≠ none) :
    (s.cancel entries).ended j ≠ none := by
  simp only [Server.cancel]
  split
  · cases before : s.ended j with
    | none => exact absurd before was
    | some err => simp
  · exact was

theorem cancel_entry {entries : List (Nat × Nat)} {id j : Nat} (member : (id, j) ∈ entries) :
    (s.cancel entries).ended j ≠ none := by
  have found : entries.any (·.2 = j) = true := List.any_eq_true.mpr ⟨_, member, by simp⟩
  simp only [Server.cancel, found, if_true]
  cases s.ended j <;> simp

/-- A context that has ended stays so. -/
theorem Moves.ended (moves : Moves h marshal s t) {j : Nat} (was : s.ended j ≠ none) :
    t.ended j ≠ none := by
  cases moves with
  | cancel | stop | cancelOwn => exact cancel_ended was
  | expire _ running =>
    simp only [Function.update_apply]
    split
    · nofun
    · exact was
  | _ => exact was

theorem Reads.opens {input rest : List Incoming} {main : Main} (reads : Reads input main rest) :
    main.stopped = false ∧ ∀ j, main ≠ .spawning j := by
  cases reads <;> exact ⟨rfl, nofun⟩

theorem Advances.born {ctx : Ctx} {input : List UInt8} {a b : Stage}
    (advances : Advances h ctx input a b) : a ≠ .unborn ∧ b ≠ .unborn := by
  cases advances <;> exact ⟨nofun, nofun⟩

/-- What the end of the input leaves. -/
structure Stops (s : Server) : Prop where
  stopped : s.main.stopped = true → ∀ (j : Nat) (job : Job), s.jobs[j]? = some job →
    job.stage.listed = true → s.ended j ≠ none
  born : ∀ (j : Nat) (job : Job), s.jobs[j]? = some job → job.stage = .unborn → s.main = .spawning j
  spawning : ∀ j, s.main = .spawning j → ∃ req, s.jobs[j]? = some ⟨req, .unborn⟩
  returned : ∀ errs, s.main = .returned errs → s.wg = 0

namespace Stops

theorem job {j : Nat} {job : Job} {stage : Stage} (inv : Stops s) (at_ : s.jobs[j]? = some job)
    (jobs : t.jobs = s.jobs.set j ⟨job.req, stage⟩) (main : t.main = s.main)
    (ended : ∀ k, s.ended k ≠ none → t.ended k ≠ none)
    (listed : stage.listed = true → job.stage.listed = true)
    (born : job.stage ≠ .unborn ∧ stage ≠ .unborn) (wg : s.wg = 0 → t.wg = 0) : Stops t := by
  have set := getElem?_set_of_some at_ ⟨job.req, stage⟩
  refine ⟨?_, ?_, ?_, ?_⟩
  · intro stopped k other there on
    rw [main] at stopped
    rw [jobs, set] at there
    split at there
    · rename_i same
      cases there
      subst same
      exact ended k (inv.stopped stopped k job at_ (listed on))
    · exact ended k (inv.stopped stopped k other there on)
  · intro k other there unborn
    rw [main]
    rw [jobs, set] at there
    split at there
    · cases there
      exact absurd unborn born.2
    · exact inv.born k other there unborn
  · intro k spawning
    rw [main] at spawning
    obtain ⟨req, there⟩ := inv.spawning k spawning
    refine ⟨req, ?_⟩
    rw [jobs, set, if_neg, there]
    rintro rfl
    rw [at_] at there
    cases there
    exact born.1 rfl
  · intro errs returned
    rw [main] at returned
    exact wg (inv.returned errs returned)

theorem aside (inv : Stops s) (jobs : t.jobs = s.jobs) (stopped : t.main.stopped = false)
    (before : ∀ j, s.main ≠ .spawning j) (main : ∀ j, t.main ≠ .spawning j) : Stops t := by
  refine ⟨by simp [stopped], ?_, ?_, ?_⟩
  · intro j job there unborn
    rw [jobs] at there
    exact absurd (inv.born j job there unborn) (before j)
  · intro j spawning
    exact absurd spawning (main j)
  · intro errs returned
    rw [returned] at stopped
    cases stopped

theorem moves (inv : Stops s) (listed : Listed s) (moves : Moves h marshal s t) : Stops t := by
  have ended := fun k => moves.ended (j := k)
  cases moves with
  | poolSize main | announce main | helloTooLarge main | lockHello main | helloHeader main
  | helloBody main | duplicate main | cancel main =>
    exact inv.aside rfl rfl (by rw [main]; nofun) nofun
  | read main reads =>
    exact inv.aside rfl reads.opens.1 (by rw [main]; nofun) reads.opens.2
  | stop main =>
    refine ⟨?_, ?_, nofun, nofun⟩
    · intro _ j job there on
      exact cancel_entry ((listed.listed job.req.id j).mpr ⟨job, there, rfl, on⟩)
    · intro j job there unborn
      have spawning := inv.born j job there unborn
      rw [main] at spawning
      cases spawning
  | finish main none =>
    refine ⟨?_, ?_, nofun, fun _ _ => none⟩
    · intro _
      exact inv.stopped (by rw [main]; rfl)
    · intro j job there unborn
      have spawning := inv.born j job there unborn
      rw [main] at spawning
      cases spawning
  | register main _ =>
    refine ⟨nofun, ?_, ?_, nofun⟩
    · intro j job there unborn
      rcases getElem?_concat_cases there with old | ⟨here, rfl⟩
      · have spawning := inv.born j job old unborn
        rw [main] at spawning
        cases spawning
      · rw [here]
    · rintro j ⟨⟩
      exact ⟨_, List.getElem?_concat_length⟩
  | spawn main at_ =>
    refine ⟨nofun, ?_, nofun, nofun⟩
    intro k job there unborn
    rw [getElem?_set_of_some at_] at there
    split at there
    · cases there
      cases unborn
    · rename_i other
      have spawning := inv.born k job there unborn
      rw [main] at spawning
      cases spawning
      exact absurd rfl other
  | advance at_ advances =>
    exact inv.job at_ rfl rfl ended (fun on => advances.same.1 ▸ on) advances.born fun none => none
  | delete at_ | cancelOwn at_ | lock at_ | tooLarge at_ | header at_ | body at_ | unsent at_ =>
    exact inv.job at_ rfl rfl ended (fun on => by cases on) ⟨nofun, nofun⟩ fun none => none
  | leave at_ =>
    refine inv.job at_ rfl rfl ended (fun on => by cases on) ⟨nofun, nofun⟩ fun none => ?_
    simp [none]
  | expire =>
    exact ⟨fun stopped j job there on => ended j (inv.stopped stopped j job there on), inv.born,
      inv.spawning, inv.returned⟩

end Stops

section rank

def Stage.rank : Stage → Nat
  | .unborn => 10
  | .submitting => 9
  | .waiting _ => 8
  | .ran _ => 7
  | .deleted _ => 6
  | .sending _ => 5
  | .header _ => 4
  | .body _ => 3
  | .unsent _ => 2
  | .leaving _ => 1
  | .halted _ => 0

def Main.rank : Main → Nat
  | .opening => 9
  | .announcing => 8
  | .helloHeader => 7
  | .helloBody => 6
  | .reading => 3
  | .registering _ => 18
  | .spawning _ => 5
  | .cancelling _ => 5
  | .stopping _ => 2
  | .joining _ => 1
  | .refused _ | .returned _ => 0

-- The contexts that have not ended.
def Server.running (s : Server) : Finset Nat :=
  (Finset.range s.jobs.length).filter fun j => s.ended j = none

/-- How many steps are left at most. -/
def Server.rank (s : Server) : Nat :=
  s.main.rank + 20 * s.input.length + census (fun job => job.stage.rank) s.jobs + s.running.card

theorem running_le (length : t.jobs.length = s.jobs.length)
    (ended : ∀ j, s.ended j ≠ none → t.ended j ≠ none) : t.running.card ≤ s.running.card := by
  apply Finset.card_le_card
  intro j member
  simp only [Server.running, Finset.mem_filter, Finset.mem_range, length] at member ⊢
  refine ⟨member.1, ?_⟩
  by_contra was
  exact ended j was member.2

theorem running_register (req : Request) : (Server.running { s with
    cancels := s.cancels ++ [(req.id, s.jobs.length)]
    jobs := s.jobs ++ [⟨req, .unborn⟩]
    main := .spawning s.jobs.length }).card ≤ s.running.card + 1 := by
  have more : Server.running { s with
      cancels := s.cancels ++ [(req.id, s.jobs.length)]
      jobs := s.jobs ++ [⟨req, .unborn⟩]
      main := .spawning s.jobs.length } ⊆ insert s.jobs.length s.running := by
    intro j member
    simp only [Server.running, List.length_append, List.length_singleton, Finset.mem_filter,
      Finset.mem_range, Finset.mem_insert] at member ⊢
    rcases Nat.lt_or_ge j s.jobs.length with inside | outside
    · exact .inr ⟨inside, member.2⟩
    · exact .inl (by omega)
  exact (Finset.card_le_card more).trans (Finset.card_insert_le _ _)

theorem rank_job {j : Nat} {job : Job} {stage : Stage} (at_ : s.jobs[j]? = some job)
    (jobs : t.jobs = s.jobs.set j ⟨job.req, stage⟩)
    (ended : ∀ k, s.ended k ≠ none → t.ended k ≠ none) (input : t.input = s.input)
    (lower : t.main.rank ≤ s.main.rank) (less : stage.rank < job.stage.rank) : t.rank < s.rank := by
  have moved := census_set (fun job => job.stage.rank) at_ ⟨job.req, stage⟩
  have fewer := running_le (by rw [jobs, List.length_set]) ended
  simp only [Server.rank, jobs, input] at *
  omega

theorem rank_main (jobs : t.jobs = s.jobs) (ended : ∀ k, s.ended k ≠ none → t.ended k ≠ none)
    (less : t.main.rank + 20 * t.input.length < s.main.rank + 20 * s.input.length) :
    t.rank < s.rank := by
  have fewer := running_le (by rw [jobs]) ended
  simp only [Server.rank, jobs] at *
  omega

theorem Advances.rank {ctx : Ctx} {input : List UInt8} {a b : Stage}
    (advances : Advances h ctx input a b) : b.rank < a.rank := by
  cases advances <;> simp [Stage.rank]

theorem Reads.rank {input rest : List Incoming} {main : Main} (reads : Reads input main rest) :
    main.rank + 20 * rest.length < Main.reading.rank + 20 * input.length := by
  cases reads <;> simp only [Main.rank, List.length_cons, List.length_nil] <;> omega

/-- Every step brings Serve nearer to its end. -/
theorem Moves.rank (moves : Moves h marshal s t) : t.rank < s.rank := by
  have ended := fun k => moves.ended (j := k)
  cases moves with
  | poolSize main | announce main | helloTooLarge main | lockHello main | helloHeader main
  | helloBody main | duplicate main | cancel main | stop main | finish main =>
    refine rank_main rfl ended ?_
    rw [main]
    exact Nat.add_lt_add_right (by simp [Main.rank]) _
  | read main reads =>
    refine rank_main rfl ended ?_
    rw [main]
    exact reads.rank
  | @register req main _ =>
    have more := running_register (s := s) req
    simp only [Server.rank, main, census_concat, Main.rank, Stage.rank] at *
    omega
  | spawn main at_ =>
      exact rank_job at_ rfl ended rfl (by simp [main, Main.rank]) (by simp [Stage.rank])
  | advance at_ advances => exact rank_job at_ rfl ended rfl (Nat.le_refl _) advances.rank
  | delete at_ | cancelOwn at_ | lock at_ | tooLarge at_ | header at_ | body at_ | unsent at_
  | leave at_ => exact rank_job at_ rfl ended rfl (Nat.le_refl _) (by simp [Stage.rank])
  | expire at_ running =>
    rename_i j job
    have inside := (List.getElem?_eq_some_iff.mp at_).1
    have fewer : (Server.running { s with
        ended := Function.update s.ended j (some .deadlineExceeded) }).card < s.running.card := by
      apply Finset.card_lt_card
      refine Finset.ssubset_iff_subset_ne.mpr ⟨?_, ?_⟩
      · intro k member
        simp only [Server.running, Finset.mem_filter, Finset.mem_range] at member ⊢
        refine ⟨member.1, ?_⟩
        by_contra was
        exact ended k was member.2
      · intro same
        have here : j ∈ s.running := by simp [Server.running, inside, running]
        rw [← same] at here
        simp [Server.running] at here
    simp only [Server.rank] at *
    omega

end rank

/-- What every step keeps. -/
structure Sound (h : Caller) (marshal : Outgoing → List Byte) (s : Server) : Prop where
  listed : Listed s
  counts : Counts s
  writing : Writing marshal s
  greets : Greets s
  outcomes : Outcomes h s
  stops : Stops s

theorem start_sound (poolSize : Int) (frames : List Incoming) :
    Sound h marshal (.start poolSize frames) := by
  have nobody {j : Nat} {job : Job} (there : ([] : List Job)[j]? = some job) : False := by
    cases there
  have nothing {f : Nat × Nat} (there : f ∈ ([] : List (Nat × Nat))) : False := by
    cases there
  refine ⟨⟨?_, fun _ _ _ there => (nothing there).elim⟩, ⟨rfl, rfl⟩, ⟨?_, ?_, rfl⟩,
    ⟨fun _ => ⟨rfl, rfl⟩, ?_⟩, ⟨fun _ _ _ there => (nobody there).elim,
      fun _ _ _ there => (nobody there).elim⟩, ⟨fun _ _ _ there => (nobody there).elim,
      fun _ _ there => (nobody there).elim, ?_, ?_⟩⟩
  · intro id j
    constructor
    · intro there
      exact (nothing there).elim
    · rintro ⟨job, there, _⟩
      exact (nobody there).elim
  · intro f writes
    cases writes
  · intro j job f there
    exact (nobody there).elim
  · intro late
    cases late
  · intro j spawning
    cases spawning
  · intro errs returned
    cases returned

theorem Sound.moves (sound : Sound h marshal s) (moves : Moves h marshal s t) : Sound h marshal t :=
  ⟨sound.listed.moves moves, sound.counts.moves moves, sound.writing.moves sound.counts moves,
    sound.greets.moves moves, sound.outcomes.moves moves, sound.stops.moves sound.listed moves⟩

namespace Sound

/-- A goroutine past run can go on, unless it waits for the writer. -/
theorem job_goes {j : Nat} {job : Job} (at_ : s.jobs[j]? = some job)
    (past : job.stage.listed = false ∨ ∃ r, job.stage = .ran r)
    (free : ∀ r, job.stage = .sending r → s.wmu = none) (on : job.stage.counted = 1) :
    (s.step marshal (.job j)).isSome := by
  obtain ⟨req, stage⟩ := job
  simp only [Server.step, at_, Option.bind_some, Server.jobStep]
  cases stage with
  | unborn | halted => cases on
  | submitting | waiting =>
    rcases past with other | ⟨r, other⟩
    · cases other
    · cases other
  | sending r =>
    simp only [free r rfl, Option.isSome_none, Bool.false_eq_true, if_false, Server.lock]
    split <;> rfl
  | _ => rfl

/-- Serve is never stuck before it returns. -/
theorem goes (sound : Sound h marshal s) (returns : h.Returns)
    (open_ : (∀ err, s.main ≠ .refused err) ∧ ∀ errs, s.main ≠ .returned errs) :
    ∃ a t, a.allowed h s ∧ s.step marshal a = some t := by
  have step {a : Act} (allowed : a.allowed h s) (goes : (s.step marshal a).isSome) :
      ∃ a t, a.allowed h s ∧ s.step marshal a = some t := by
    obtain ⟨t, went⟩ := Option.isSome_iff_exists.mp goes
    exact ⟨a, t, allowed, went⟩
  cases main : s.main with
  | opening =>
    refine step (a := .main) trivial ?_
    simp only [Server.step, Server.mainStep, main]
    split <;> rfl
  | announcing =>
    have free : s.wmu = none := by
      have locked := sound.counts.wmu
      rw [main, (sound.greets.early (by rw [main]; rfl)).1] at locked
      cases wmu : s.wmu with
      | none => rfl
      | some f =>
        rw [wmu] at locked
        cases locked
    refine step (a := .main) trivial ?_
    simp only [Server.step, Server.mainStep, main, free, Option.isSome_none, Bool.false_eq_true,
      if_false, Server.lock]
    split <;> rfl
  | helloHeader | helloBody | cancelling | stopping =>
    exact step (a := .main) trivial (by simp [Server.step, Server.mainStep, main])
  | reading =>
    refine step (a := .main) trivial ?_
    simp only [Server.step, Server.mainStep, main]
    split <;> rfl
  | registering req =>
    refine step (a := .main) trivial ?_
    simp only [Server.step, Server.mainStep, main]
    split <;> rfl
  | spawning j =>
    obtain ⟨req, unborn⟩ := sound.stops.spawning j main
    exact step (a := .main) trivial (by simp [Server.step, Server.mainStep, main, unborn])
  | refused err => exact absurd main (open_.1 err)
  | returned errs => exact absurd main (open_.2 errs)
  | joining err =>
    by_cases none : s.wg = 0
    · exact step (a := .main) trivial (by simp [Server.step, Server.mainStep, main, none])
    · have some_ : 0 < census (fun job : Job => job.stage.counted) s.jobs := by
        rw [← sound.counts.wg]
        omega
      obtain ⟨j, job, at_, counted⟩ := exists_of_census_pos _ some_
      have ended (on : job.stage.listed = true) : ∃ err, s.ended j = some err :=
        Option.ne_none_iff_exists'.mp (sound.stops.stopped (by rw [main]; rfl) j job at_ on)
      have one : job.stage.counted = 1 := by
        have most : job.stage.counted ≤ 1 := by
          unfold Stage.counted
          split <;> decide
        omega
      cases stage : job.stage with
      | submitting =>
        obtain ⟨err, halted⟩ := ended (by rw [stage]; rfl)
        obtain ⟨answer, gave⟩ := returns.submit (requestContext job.req) err job.req.input
        refine step (a := .submitted j answer) ⟨job, at_, by rw [halted]; exact gave⟩ ?_
        obtain ⟨req, was⟩ := job
        cases stage
        simp [Server.step, at_]
      | waiting ticket =>
        obtain ⟨err, halted⟩ := ended (by rw [stage]; rfl)
        obtain ⟨r, gave⟩ := returns.wait (requestContext job.req) err ticket
        refine step (a := .answered j r) ⟨job, ticket, at_, stage, by rw [halted]; exact gave⟩ ?_
        obtain ⟨req, was⟩ := job
        cases stage
        simp [Server.step, at_]
      | sending r =>
        cases wmu : s.wmu with
        | none =>
          exact step (a := .job j) trivial
            (job_goes at_ (.inl (by rw [stage]; rfl)) (fun _ _ => wmu) one)
        | some f =>
          have locked := sound.counts.wmu
          rw [main, wmu] at locked
          have writer : 0 < census (fun job : Job => job.stage.holds) s.jobs := by
            simp only [Main.holds, Option.isSome_some, Bool.toNat_true] at locked
            omega
          obtain ⟨k, other, there, holds⟩ := exists_of_census_pos _ writer
          have writes : other.stage.listed = false ∧ (∀ r, other.stage ≠ .sending r) ∧
              other.stage.counted = 1 := by
            generalize other.stage = stage at holds
            cases stage with
            | header | body => exact ⟨rfl, (fun _ same => by cases same), rfl⟩
            | _ => cases holds
          exact step (a := .job k) trivial
            (job_goes there (.inl writes.1) (fun r same => absurd same (writes.2.1 r)) writes.2.2)
      | unborn | halted =>
        rw [stage] at one
        cases one
      | ran r =>
        exact step (a := .job j) trivial
          (job_goes at_ (.inr ⟨r, stage⟩) (fun _ same => by rw [stage] at same; cases same) one)
      | deleted | header | body | unsent | leaving =>
        exact step (a := .job j) trivial
          (job_goes at_ (.inl (by rw [stage]; rfl))
            (fun _ same => by rw [stage] at same; cases same) one)

end Sound

/-- The submit frames of an input. -/
def submits : List Incoming → List Request
  | [] => []
  | .submit req :: rest => req :: submits rest
  | _ :: rest => submits rest

def Incoming.proper : Incoming → Bool
  | .submit _ | .cancel _ => true
  | .other _ | .malformed _ => false

def Main.inHand : Main → List Request
  | .registering req => [req]
  | _ => []

-- The submits that have a job, the one in hand and those to come.
def Server.handled (s : Server) : List Request :=
  s.jobs.map Job.req ++ s.main.inHand ++ submits s.input

theorem handled_job {j : Nat} {job : Job} {stage : Stage} {req : Request} (member : req ∈ t.handled)
    (at_ : s.jobs[j]? = some job) (jobs : t.jobs = s.jobs.set j ⟨job.req, stage⟩)
    (main : t.main.inHand = s.main.inHand) (input : t.input = s.input) : req ∈ s.handled := by
  have reqs : t.jobs.map Job.req = s.jobs.map Job.req := by
    rw [jobs]
    exact map_set_same Job.req at_ rfl
  rw [Server.handled, reqs, main, input] at member
  exact member

theorem Reads.handled {input rest : List Incoming} {main : Main} (reads : Reads input main rest)
    {req : Request} (member : req ∈ main.inHand ++ submits rest) : req ∈ submits input := by
  cases reads <;> exact member

/-- No step finds a submit that was not in the input. -/
theorem Moves.handled (moves : Moves h marshal s t) {req : Request} (member : req ∈ t.handled) :
    req ∈ s.handled := by
  cases moves with
  | poolSize main | announce main | helloTooLarge main | lockHello main | helloHeader main
  | helloBody main | cancel main | stop main | finish main =>
    rw [Server.handled, main]
    exact member
  | read main reads =>
    rw [Server.handled, List.append_assoc, List.mem_append] at member
    rw [Server.handled, main, List.append_assoc, List.mem_append]
    exact member.imp_right reads.handled
  | duplicate main _ =>
    simp only [Server.handled, main, Main.inHand, List.append_nil, List.mem_append] at member ⊢
    exact member.imp_left .inl
  | register main _ =>
    rw [Server.handled, main]
    simpa [Server.handled, Main.inHand] using member
  | spawn main at_ => exact handled_job member at_ rfl (by rw [main]; rfl) rfl
  | advance at_ _ | delete at_ | cancelOwn at_ | lock at_ | tooLarge at_ | header at_ | body at_
  | unsent at_ | leave at_ => exact handled_job member at_ rfl rfl rfl
  | expire => exact member

-- A goroutine whose answer did not get out.
def Stage.lost : Stage → Bool
  | .unsent _ | .leaving none | .halted none => true
  | _ => false

/-- How long a request may take: nothing is said by 0, and a `time.Duration` has 63 bits. -/
def Request.relativeTimeout (req : Request) : Option Nat :=
  if req.timeoutNS = 0 then none else some (min req.timeoutNS (2 ^ 63 - 1))

theorem requestContext_eq (req : Request) : requestContext req =
    { opcode := req.opcode, trace := req.trace, timeout := req.relativeTimeout } := by
  have timeout : (requestContext req).timeout = req.relativeTimeout := by
    unfold requestContext Request.relativeTimeout
    by_cases none : req.timeoutNS = 0
    · simp [none]
    · simp [none, Nat.pos_of_ne_zero none]
  rw [← timeout]
  rfl

theorem answer_eq (req : Request) (r : Outcome) : answer req r =
    .answer { id := req.id, out := r.out, err := r.err.map encodeError } := rfl

/-- The outcomes of the requests fit into a frame, as the hello does. -/
structure Fits (h : Caller) (marshal : Outgoing → List Byte) (poolSize : Int)
    (frames : List Incoming) : Prop where
  pool : 1 ≤ poolSize ∧ poolSize ≤ maxPoolSize
  hello : (marshal (.hello protocolVersion poolSize)).length ≤ maxResponseFrame
  answer : ∀ req ∈ submits frames, ∀ r,
    h.Ran { opcode := req.opcode, trace := req.trace, timeout := req.relativeTimeout } req.input r →
    (marshal (.answer { id := req.id, out := r.out, err := r.err.map encodeError })).length ≤
      maxResponseFrame

theorem Advances.kept {ctx : Ctx} {input : List UInt8} {a b : Stage}
    (advances : Advances h ctx input a b) : b.lost = false := by
  cases advances <;> rfl

/-- No answer is lost. -/
structure Whole (poolSize : Int) (s : Server) : Prop where
  poolSize : s.poolSize = poolSize
  main : ∀ err, s.main ≠ .refused err
  jobs : ∀ (j : Nat) (job : Job), s.jobs[j]? = some job → job.stage.lost = false
  sendErr : s.sendErr = []

namespace Whole
variable {poolSize : Int}

theorem job {j : Nat} {job job' : Job} (inv : Whole poolSize s) (at_ : s.jobs[j]? = some job)
    (jobs : t.jobs = s.jobs.set j job') (kept : job'.stage.lost = false)
    (main : ∀ err, t.main ≠ .refused err)
    (same : t.poolSize = s.poolSize ∧ t.sendErr = s.sendErr) : Whole poolSize t := by
  refine ⟨same.1.trans inv.poolSize, main, ?_, same.2.trans inv.sendErr⟩
  intro k other there
  rw [jobs, getElem?_set_of_some at_] at there
  split at there
  · cases there
    exact kept
  · exact inv.jobs k other there

theorem moves {frames : List Incoming} (inv : Whole poolSize s)
    (fits : Fits h marshal poolSize frames) (known : ∀ req ∈ s.handled, req ∈ submits frames)
    (outcomes : Outcomes h s) (moves : Moves h marshal s t) : Whole poolSize t := by
  cases moves with
  | poolSize _ outside =>
    rw [inv.poolSize] at outside
    have inside := fits.pool
    omega
  | helloTooLarge _ large =>
    have fit := fits.hello
    rw [Server.hello, inv.poolSize] at large
    omega
  | announce | lockHello | helloHeader | helloBody | duplicate | cancel | stop | finish =>
    exact ⟨inv.poolSize, (fun _ refused => by cases refused), inv.jobs, inv.sendErr⟩
  | read _ reads =>
    refine ⟨inv.poolSize, ?_, inv.jobs, inv.sendErr⟩
    intro err refused
    have late := reads.late
    simp only at refused
    rw [refused] at late
    cases late
  | register _ _ =>
    refine ⟨inv.poolSize, (fun _ refused => by cases refused), ?_, inv.sendErr⟩
    intro j job there
    rcases getElem?_concat_cases there with old | ⟨_, rfl⟩
    · exact inv.jobs j job old
    · rfl
  | spawn main at_ => exact inv.job at_ rfl rfl (fun _ refused => by cases refused) ⟨rfl, rfl⟩
  | advance at_ advances => exact inv.job at_ rfl advances.kept inv.main ⟨rfl, rfl⟩
  | delete at_ | cancelOwn at_ | lock at_ | header at_ | body at_ =>
    exact inv.job at_ rfl rfl inv.main ⟨rfl, rfl⟩
  | @tooLarge j req r err at_ large =>
    have handled : req ∈ s.handled :=
      List.mem_append_left _ (List.mem_append_left _
        (List.mem_map.mpr ⟨_, List.mem_of_getElem? at_, rfl⟩))
    have ran := outcomes.ran j _ r at_ rfl
    simp only [requestContext_eq] at ran
    have fit := fits.answer req (known req handled) r ran
    rw [← answer_eq] at fit
    omega
  | unsent at_ => exact absurd (inv.jobs _ _ at_) (by simp [Stage.lost])
  | @leave j req answered at_ =>
    have kept := inv.jobs j _ at_
    cases answered with
    | none => cases kept
    | some r => exact inv.job at_ rfl rfl inv.main ⟨rfl, rfl⟩
  | expire => exact ⟨inv.poolSize, inv.main, inv.jobs, inv.sendErr⟩

end Whole

/-- With proper frames of different ids, the jobs are the submits read so far. -/
structure Ordered (frames : List Incoming) (s : Server) : Prop where
  order : submits frames = s.jobs.map Job.req ++ s.main.inHand ++ submits s.input
  left : ∀ f ∈ s.input, f.proper = true
  eof : ∀ err, s.main = .stopping err ∨ s.main = .joining err → err = none ∧ s.input = []
  returned : ∀ errs, s.main = .returned errs → errs = s.sendErr ∧ s.input = []

namespace Ordered
variable {frames : List Incoming}

theorem job {j : Nat} {job job' : Job} (inv : Ordered frames s) (at_ : s.jobs[j]? = some job)
    (jobs : t.jobs = s.jobs.set j job') (req : job'.req = job.req) (main : t.main = s.main)
    (same : t.input = s.input ∧ t.sendErr = s.sendErr) : Ordered frames t := by
  have reqs : t.jobs.map Job.req = s.jobs.map Job.req := by
    rw [jobs]
    exact map_set_same Job.req at_ req
  refine ⟨?_, ?_, ?_, ?_⟩
  · rw [reqs, main, same.1]
    exact inv.order
  · rw [same.1]
    exact inv.left
  · rw [main, same.1]
    exact inv.eof
  · rw [main, same.1, same.2]
    exact inv.returned

theorem read {main : Main} {rest : List Incoming} (inv : Ordered frames s) (was : s.main = .reading)
    (reads : Reads s.input main rest) :
    Ordered frames { s with main := main, input := rest } := by
  have order := inv.order
  have left := inv.left
  rw [was] at order
  generalize s.input = input at *
  cases reads with
  | eof =>
    refine ⟨order, left, ?_, nofun⟩
    rintro err (same | same)
    · cases same
      exact ⟨rfl, rfl⟩
    · cases same
  | submit =>
    refine ⟨?_, fun f member => left f (List.mem_cons_of_mem _ member), nofun, nofun⟩
    rw [order]
    simp [Main.inHand, submits]
  | cancel => exact ⟨order, fun f member => left f (List.mem_cons_of_mem _ member), nofun, nofun⟩
  | other => cases left _ List.mem_cons_self
  | malformed => cases left _ List.mem_cons_self

theorem moves {poolSize : Int} (inv : Ordered frames s) (listed : Listed s)
    (whole : Whole poolSize s) (distinct : ((submits frames).map Request.id).Nodup)
    (moves : Moves h marshal s t) :
    Ordered frames t := by
  have order := inv.order
  cases moves with
  | poolSize main | announce main | helloTooLarge main | lockHello main | helloHeader main
  | helloBody main | cancel main =>
    rw [main] at order
    exact ⟨order, inv.left, nofun, nofun⟩
  | read main reads => exact inv.read main reads
  | @duplicate req j main member =>
    obtain ⟨job, there, same, _⟩ := (listed.listed req.id j).mp member
    rw [main] at order
    rw [order, List.map_append, List.map_append, List.append_assoc] at distinct
    have apart := (List.nodup_append.mp distinct).2.2
    have first : req.id ∈ (s.jobs.map Job.req).map Request.id := by
      rw [← same]
      exact List.mem_map_of_mem (List.mem_map_of_mem (List.mem_of_getElem? there))
    exact absurd rfl (apart _ first _ (by simp [Main.inHand]))
  | register main _ =>
    rw [main] at order
    refine ⟨?_, inv.left, nofun, nofun⟩
    simpa [Main.inHand] using order
  | spawn main at_ =>
    rw [main] at order
    refine ⟨?_, inv.left, nofun, nofun⟩
    simp only [map_set_same Job.req at_ (show (Job.mk _ Stage.submitting).req = _ from rfl)]
    exact order
  | stop main =>
    rw [main] at order
    obtain ⟨rfl, none⟩ := inv.eof _ (.inl main)
    refine ⟨order, inv.left, ?_, nofun⟩
    rintro err (same | same)
    · cases same
    · cases same
      exact ⟨rfl, none⟩
  | finish main _ =>
    rw [main] at order
    obtain ⟨rfl, none⟩ := inv.eof _ (.inr main)
    exact ⟨order, inv.left, nofun, by rintro errs ⟨⟩; exact ⟨rfl, none⟩⟩
  | advance at_ _ | delete at_ | cancelOwn at_ | lock at_ | tooLarge at_ | header at_ | body at_
  | leave at_ => exact inv.job at_ rfl rfl rfl ⟨rfl, rfl⟩
  | unsent at_ => exact absurd (whole.jobs _ _ at_) (by simp [Stage.lost])
  | expire => exact ⟨order, inv.left, inv.eof, inv.returned⟩

end Ordered

/-- What Serve promises in every state: the writer gets whole frames one after the other; a cancel
frame cancels the request with its id and no other; at the end of the input every context in flight
is cancelled; Serve goes on until it returns, with an empty map and one answer for each request it
accepted, which has the id of the request and the outcome of running its input with its opcode,
trace and timeout; and it accepts every submit, if the frames are proper and their ids differ. -/
structure Promises (h : Caller) (marshal : Outgoing → List Byte) (poolSize : Int)
    (frames : List Incoming) (s : Server) : Prop where
  whole : ∃ rest, (rest = [] ∨ ∃ f, rest = [putUint32 (marshal f).length]) ∧
    s.writes = s.sent.flatMap (Server.pieces marshal) ++ rest
  only : ∀ id t, s.main = .cancelling id → s.step marshal .main = some t →
    ∀ j, t.ended j ≠ s.ended j → ∃ job, s.jobs[j]? = some job ∧ job.req.id = id
  cancelled : ∀ id t, s.main = .cancelling id → s.step marshal .main = some t →
    ∀ (j : Nat) (job : Job), s.jobs[j]? = some job → job.req.id = id → job.stage.listed = true →
    t.ended j ≠ none
  stopped : s.main.stopped = true → ∀ (j : Nat) (job : Job), s.jobs[j]? = some job →
    job.stage.listed = true → s.ended j ≠ none
  goes : (∀ errs, s.main ≠ .returned errs) → ∃ a t, a.allowed h s ∧ s.step marshal a = some t
  returned : ∀ errs, s.main = .returned errs → s.cancels = [] ∧
    ∃ answered : List (Request × Outcome),
      (answered.map Prod.fst).Perm (s.jobs.map Job.req) ∧
      (∀ a ∈ answered, h.Ran
        { opcode := a.1.opcode, trace := a.1.trace, timeout := a.1.relativeTimeout } a.1.input a.2) ∧
      s.writes = (.hello protocolVersion poolSize :: answered.map fun a =>
        .answer { id := a.1.id, out := a.2.out, err := a.2.err.map encodeError }).flatMap
          fun f => [putUint32 (marshal f).length, marshal f]
  all : (∀ f ∈ frames, f.proper = true) → ((submits frames).map Request.id).Nodup →
    ∀ errs, s.main = .returned errs → errs = [] ∧ s.jobs.map Job.req = submits frames

section promises
variable {poolSize : Int} {frames : List Incoming}

theorem cancel_only {id : Nat} (listed : Listed s) (main : s.main = .cancelling id)
    (went : s.step marshal .main = some t) {j : Nat} (changed : t.ended j ≠ s.ended j) :
    ∃ job, s.jobs[j]? = some job ∧ job.req.id = id := by
  simp only [Server.step, Server.mainStep, main, Option.some.injEq] at went
  subst went
  simp only [Server.cancel] at changed
  split at changed
  · rename_i found
    obtain ⟨⟨x, k⟩, member, same⟩ := List.any_eq_true.mp found
    obtain rfl : k = j := by simpa using same
    obtain ⟨known, own⟩ := List.mem_filter.mp member
    obtain rfl : x = id := by simpa using own
    obtain ⟨job, there, is, _⟩ := (listed.listed x k).mp known
    exact ⟨job, there, is⟩
  · exact absurd rfl changed

theorem cancel_reaches {id : Nat} (listed : Listed s) (main : s.main = .cancelling id)
    (went : s.step marshal .main = some t) {j : Nat} {job : Job} (at_ : s.jobs[j]? = some job)
    (same : job.req.id = id) (on : job.stage.listed = true) : t.ended j ≠ none := by
  simp only [Server.step, Server.mainStep, main, Option.some.injEq] at went
  subst went
  have known := (listed.listed id j).mpr ⟨job, at_, same, on⟩
  exact cancel_entry (List.mem_filter.mpr ⟨known, by simp⟩)

/-- When Serve has returned, every goroutine is over and its answer out. -/
theorem returned_over {errs : List Text} (sound : Sound h marshal s) (whole : Whole poolSize s)
    (main : s.main = .returned errs) {j : Nat} {job : Job} (at_ : s.jobs[j]? = some job) :
    ∃ r, job.stage = .halted (some r) := by
  have none := sound.stops.returned errs main
  have counted := le_census (fun job : Job => job.stage.counted) at_
  rw [← sound.counts.wg, none] at counted
  have kept := whole.jobs j job at_
  have born := sound.stops.born j job at_
  rw [main] at born
  generalize job.stage = stage at *
  cases stage with
  | unborn => cases born rfl
  | halted answered =>
    cases answered with
    | none => cases kept
    | some r => exact ⟨r, rfl⟩
  | _ => cases counted

theorem map_answered {jobs : List Job} (all : ∀ job ∈ jobs, ∃ r, job.stage = .halted (some r)) :
    (jobs.filterMap Job.answered).map Prod.fst = jobs.map Job.req := by
  induction jobs with
  | nil => rfl
  | cons job rest ih =>
    obtain ⟨r, halted⟩ := all job List.mem_cons_self
    have here : job.answered = some (job.req, r) := by simp [Job.answered, halted, Stage.answered]
    rw [List.filterMap_cons_some here, List.map_cons, List.map_cons,
      ih fun other member => all other (List.mem_cons_of_mem _ member)]

theorem promises_returned {errs : List Text} (sound : Sound h marshal s) (whole : Whole poolSize s)
    (main : s.main = .returned errs) : s.cancels = [] ∧ ∃ answered : List (Request × Outcome),
      (answered.map Prod.fst).Perm (s.jobs.map Job.req) ∧
      (∀ a ∈ answered, h.Ran
        { opcode := a.1.opcode, trace := a.1.trace, timeout := a.1.relativeTimeout } a.1.input a.2) ∧
      s.writes = (.hello protocolVersion poolSize :: answered.map fun a =>
        .answer { id := a.1.id, out := a.2.out, err := a.2.err.map encodeError }).flatMap
          fun f => [putUint32 (marshal f).length, marshal f] := by
  have halted {j : Nat} {job : Job} (at_ : s.jobs[j]? = some job) :=
    returned_over sound whole main at_
  have overs (job : Job) (member : job ∈ s.jobs) : ∃ r, job.stage = .halted (some r) := by
    obtain ⟨j, at_⟩ := List.mem_iff_getElem?.mp member
    exact halted at_
  refine ⟨?_, ?_⟩
  · apply List.eq_nil_iff_forall_not_mem.mpr
    rintro ⟨id, j⟩ member
    obtain ⟨job, at_, _, on⟩ := (sound.listed.listed id j).mp member
    obtain ⟨r, stage⟩ := halted at_
    rw [stage] at on
    cases on
  · obtain ⟨answered, sent, perm⟩ := sound.greets.sent (by rw [main]; rfl)
    refine ⟨answered, ?_, ?_, ?_⟩
    · rw [← map_answered overs]
      exact perm.map _
    · intro a member
      obtain ⟨job, known, same⟩ := List.mem_filterMap.mp (perm.mem_iff.mp member)
      obtain ⟨j, at_⟩ := List.mem_iff_getElem?.mp known
      obtain ⟨r, stage⟩ := halted at_
      rw [Job.answered, stage] at same
      cases same
      rw [← requestContext_eq]
      exact sound.outcomes.ran j job r at_ (by rw [stage]; rfl)
    · have free : s.wmu = none := by
        have locked := sound.counts.wmu
        rw [main, census_eq_zero _ (by
          intro job member
          obtain ⟨r, stage⟩ := overs job member
          rw [stage]
          rfl)] at locked
        cases wmu : s.wmu with
        | none => rfl
        | some f =>
          rw [wmu] at locked
          cases locked
      have writes := sound.writing.writes
      rw [free, sent, Server.hello, whole.poolSize] at writes
      simp only [answer_eq] at writes
      rw [writes]
      exact List.append_nil _

theorem runs_sound {n : Nat} (fits : Fits h marshal poolSize frames)
    (run : Runs h marshal (.start poolSize frames) n s) :
    Sound h marshal s ∧ Whole poolSize s ∧ (∀ req ∈ s.handled, req ∈ submits frames) ∧
      n + s.rank ≤ (Server.start poolSize frames).rank := by
  induction run with
  | start =>
    exact ⟨start_sound poolSize frames, ⟨rfl, nofun, nofun, rfl⟩, fun req member => member,
      Nat.le_of_eq (Nat.zero_add _)⟩
  | step before allowed went ih =>
    obtain ⟨sound, whole, known, lower⟩ := ih
    have moves := step_moves allowed went
    have less := moves.rank
    exact ⟨sound.moves moves, whole.moves fits known sound.outcomes moves,
      fun req member => known req (moves.handled member), by omega⟩

theorem runs_ordered {n : Nat} (fits : Fits h marshal poolSize frames)
    (proper : ∀ f ∈ frames, f.proper = true) (distinct : ((submits frames).map Request.id).Nodup)
    (run : Runs h marshal (.start poolSize frames) n s) : Ordered frames s := by
  induction run with
  | start =>
    refine ⟨rfl, proper, ?_, nofun⟩
    rintro err (same | same)
    · cases same
    · cases same
  | step before allowed went ih =>
    obtain ⟨sound, whole, _⟩ := runs_sound fits before
    exact ih.moves sound.listed whole distinct (step_moves allowed went)

/-- Serve on any handle whose calls return once their contexts end, with any input: it keeps its
promises in every interleaving, and every run is over after a bounded number of steps. -/
theorem serve_promises (h : Caller) (marshal : Outgoing → List Byte) (poolSize : Int)
    (frames : List Incoming) (returns : h.Returns) (fits : Fits h marshal poolSize frames) :
    (∀ n s, Runs h marshal (.start poolSize frames) n s → Promises h marshal poolSize frames s) ∧
    ∀ n s, Runs h marshal (.start poolSize frames) n s → n ≤ (Server.start poolSize frames).rank := by
  refine ⟨fun n s run => ?_, fun n s run => ?_⟩
  · obtain ⟨sound, whole, _⟩ := runs_sound fits run
    refine ⟨⟨dangling marshal s.wmu, ?_, sound.writing.writes⟩, fun id t main went j =>
      cancel_only sound.listed main went,
      fun id t main went j job at_ => cancel_reaches sound.listed main went at_, sound.stops.stopped,
      fun on => sound.goes returns ⟨whole.main, on⟩, fun errs => promises_returned sound whole, ?_⟩
    · unfold dangling
      split
      · exact .inr ⟨_, rfl⟩
      · exact .inl rfl
    · intro proper distinct errs main
      have ordered := runs_ordered fits proper distinct run
      obtain ⟨same, none⟩ := ordered.returned errs main
      have order := ordered.order
      rw [main, none] at order
      refine ⟨same.trans whole.sendErr, ?_⟩
      simpa [Main.inHand, submits] using order.symm
  · obtain ⟨_, _, _, most⟩ := runs_sound fits run
    omega

end promises

theorem follow_runs {start : Server} {n : Nat} {act : Server → Act → Option Server} {acts : List Act}
    (each : ∀ s a t, act s a = some t → a.allowed h s ∧ s.step marshal a = some t)
    (before : Runs h marshal start n s) (run : follow act s acts = some t) :
    Runs h marshal start (n + acts.length) t := by
  induction acts generalizing s n with
  | nil =>
    cases run
    exact before
  | cons a rest ih =>
    obtain ⟨mid, went, later⟩ := Option.bind_eq_some_iff.mp run
    obtain ⟨allowed, moved⟩ := each s a mid went
    have more := ih (before.step allowed moved) later
    rw [List.length_cons, Nat.add_comm rest.length 1, ← Nat.add_assoc]
    exact more

/-- A handle that gives the first byte of an input back and refuses an empty one. -/
def echoSubmit : List UInt8 → Except GoErr Nat
  | b :: _ => .ok b.toNat
  | [] => .error (.named .closed)

def echoWait (ticket : Nat) : Outcome := ⟨[.ofNat ticket], none⟩

def echo : Caller :=
  ⟨fun _ _ input answer => answer = echoSubmit input, fun _ _ ticket r => r = echoWait ticket⟩

def base64Digit (n : Nat) : UInt8 :=
  (text "ABCDEFGHIJKLMNOPQRSTUVWXYZabcdefghijklmnopqrstuvwxyz0123456789+/").getD n 61

def base64 : List UInt8 → Text
  | a :: b :: c :: rest =>
    let n := a.toNat * 65536 + b.toNat * 256 + c.toNat
    [n / 262144, n / 4096 % 64, n / 64 % 64, n % 64].map base64Digit ++ base64 rest
  | [a, b] =>
    let n := a.toNat * 1024 + b.toNat * 4
    [n / 4096, n / 64 % 64, n % 64].map base64Digit ++ text "="
  | [a] => [a.toNat / 4, a.toNat % 4 * 16].map base64Digit ++ text "=="
  | [] => []

def Kind.json : Kind → Text
  | .ffi => []
  | .closed => text ",\"kind\":\"closed\""
  | .shutdown => text ",\"kind\":\"shutdown\""
  | .deadline => text ",\"kind\":\"deadline\""
  | .canceled => text ",\"kind\":\"canceled\""
  | .other => text ",\"kind\":\"other\""

-- An error that is no `*gusset.Error`, with nothing to escape in its text.
def jsonError (e : WireError) : Text :=
  text ",\"err\":\x7b\"msg\":\"" ++ e.msg ++ text "\"" ++ Kind.json e.kind ++ text "\x7d"

-- The JSON of the frames, whose ids are not 0.
def echoJson : Outgoing → List Byte
  | .hello version poolSize =>
    (text s!"\x7b\"op\":\"hello\",\"version\":{version},\"pool_size\":{poolSize}\x7d").map
      UInt8.toBitVec
  | .answer resp =>
    (text s!"\x7b\"id\":{resp.id}" ++
      (if resp.out = [] then [] else text ",\"out\":\"" ++ base64 resp.out ++ text "\"") ++
      (resp.err.map jsonError).getD [] ++ text "\x7d").map UInt8.toBitVec

def echoFrames : List Incoming :=
  [.submit ⟨5, [7], 0, none, none⟩, .submit ⟨9, [], 60, some 3, none⟩, .cancel 5]

-- Both requests are under way when the second is answered, then the first is cancelled.
def echoActs : List Act :=
  List.replicate 10 .main ++ .submitted 1 (echoSubmit []) :: .submitted 0 (echoSubmit [7]) ::
    List.replicate 6 (.job 1) ++ .main :: .main :: .answered 0 (echoWait 7) ::
    List.replicate 6 (.job 0) ++ List.replicate 3 .main

/-- A step that the handle allows. -/
def echoStep (s : Server) : Act → Option Server
  | .submitted j answer =>
    (s.jobs[j]?).bind fun job =>
      if answer = echoSubmit job.req.input then s.step echoJson (.submitted j answer) else none
  | .answered j r =>
    (s.jobs[j]?).bind fun job =>
      if job.stage = .waiting (r.out.headD 0).toNat ∧ r = echoWait (r.out.headD 0).toNat then
        s.step echoJson (.answered j r)
      else none
  | .refuse _ => none
  | a => s.step echoJson a

theorem echoStep_allowed (s : Server) (a : Act) (t : Server) (went : echoStep s a = some t) :
    a.allowed echo s ∧ s.step echoJson a = some t := by
  cases a with
  | submitted j answer =>
    obtain ⟨job, at_, went⟩ := Option.bind_eq_some_iff.mp went
    obtain ⟨own, went⟩ := Option.ite_none_right_eq_some.mp went
    exact ⟨⟨job, at_, own⟩, went⟩
  | answered j r =>
    obtain ⟨job, at_, went⟩ := Option.bind_eq_some_iff.mp went
    obtain ⟨⟨stage, own⟩, went⟩ := Option.ite_none_right_eq_some.mp went
    exact ⟨⟨job, _, at_, stage, own⟩, went⟩
  | refuse err => cases went
  | main | job j | expire j => exact ⟨trivial, went⟩

theorem echo_ran {ctx : Ctx} {input : List UInt8} {r : Outcome} (ran : echo.Ran ctx input r) :
    (∃ err, echoSubmit input = .error err ∧ r = ⟨[], some err⟩) ∨
      ∃ ticket, echoSubmit input = .ok ticket ∧ r = echoWait ticket := by
  cases ran with
  | @refused _ err said => exact .inl ⟨err, said.symm, rfl⟩
  | waited said answered => exact .inr ⟨_, said.symm, answered⟩

theorem echo_fits : Fits echo echoJson 2 echoFrames := by
  refine ⟨by decide, by decide +kernel, ?_⟩
  intro req member r ran
  simp only [echoFrames, submits, List.mem_cons] at member
  rcases member with rfl | rfl | member
  · rcases echo_ran ran with ⟨err, said, rfl⟩ | ⟨ticket, said, rfl⟩
    · cases said
    · cases said
      decide +kernel
  · rcases echo_ran ran with ⟨err, said, rfl⟩ | ⟨ticket, said, rfl⟩
    · cases said
      decide +kernel
    · cases said
  · cases member

theorem echo_returns : echo.Returns := ⟨fun _ _ _ => ⟨_, rfl⟩, fun _ _ _ => ⟨_, rfl⟩⟩

theorem serve_promises_echo : ∃ s, Runs echo echoJson (.start 2 echoFrames) 30 s ∧
    s.main = .returned [] ∧ s.jobs.map Job.req = submits echoFrames ∧
    s.sent = [.hello 1 2, .answer ⟨9, [], some (encodeError (.named .closed))⟩,
      .answer ⟨5, [7], none⟩] ∧
    Promises echo echoJson 2 echoFrames s := by
  have end_ : (follow echoStep (.start 2 echoFrames) echoActs).map (fun s => (s.main, s.sent)) =
      some (.returned [], [.hello 1 2, .answer ⟨9, [], some (encodeError (.named .closed))⟩,
        .answer ⟨5, [7], none⟩]) := by decide +kernel
  obtain ⟨s, run, same⟩ := Option.map_eq_some_iff.mp end_
  obtain ⟨main, sent⟩ := Prod.mk.inj same
  have runs := follow_runs echoStep_allowed .start run
  have promises := (serve_promises echo echoJson 2 echoFrames echo_returns echo_fits).1 30 s runs
  exact ⟨s, runs, main, (promises.all (by decide) (by decide) [] main).2, sent, promises⟩

end Gusset.Isolate.Serve
