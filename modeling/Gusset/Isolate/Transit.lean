import Gusset.Isolate.Shares

/-! Where the id of a ticket is, from the host's write to the host's read: while the worker lives,
each id is in one place, and the host still waits for its answer. -/
namespace Gusset.Isolate
open Foundation

namespace Proc

variable {p p' : Proc} {x id i : Nat}

theorem owed_put {t : TicketState} {slot : Option TicketState} (found : p.lookup x = some t)
    (same : owed slot = owed (some t)) (id : Nat) :
    owed ((p.put x slot).lookup id) = owed (p.lookup id) := by
  rw [lookup_put p x id slot (by simp [found])]
  split
  · rename_i here
    rw [here, found, same]
  · rfl

theorem owed_abandon (p : Proc) (x id : Nat) :
    owed ((p.abandon x).lookup id) = owed (p.lookup id) := by
  unfold abandon
  split
  · rename_i t found
    exact owed_put found (by obtain ⟨_ | r, _, _⟩ := t <;> rfl) id
  · rfl

theorem owed_claim (p : Proc) (x i id : Nat) :
    owed ((p.claim x i).1.lookup id) = owed (p.lookup id) := by
  unfold claim
  split
  · rfl
  · split
    · rfl
    · rename_i t found
      split
      · rfl
      · split
        · rfl
        · split
          · rename_i r res
            exact owed_put found (by obtain ⟨_, _, _⟩ := t; cases res; rfl) id
          · exact owed_put found (by obtain ⟨_ | r, _, _⟩ := t <;> rfl) id

theorem owed_discard (p : Proc) (x id : Nat) :
    owed ((p.discard x).1.lookup id) = owed (p.lookup id) := by
  unfold discard
  split
  · rfl
  · split
    · rfl
    · rename_i t found
      split
      · rfl
      · split
        · rfl
        · split
          · rename_i r res
            exact owed_put found (by obtain ⟨_, _, _⟩ := t; cases res; rfl) id
          · exact owed_put found (by obtain ⟨_ | r, _, _⟩ := t <;> rfl) id

/-- What no step of a call and none of the reader's own touches, and what both keep. -/
structure Alike (p p' : Proc) : Prop where
  frames : p'.frames = p.frames
  reaped : p'.reaped = p.reaped
  procExited : p'.procExited = p.procExited
  poolSize : p'.poolSize = p.poolSize
  sem : p.sem ≤ p.poolSize → p'.sem ≤ p.poolSize

theorem alike_claim (p : Proc) (x i : Nat) : p.Alike (p.claim x i).1 := by
  unfold claim
  repeat' split
  all_goals exact ⟨rfl, rfl, rfl, rfl, id⟩

theorem alike_discard (p : Proc) (x : Nat) : p.Alike (p.discard x).1 := by
  unfold discard
  repeat' split
  all_goals exact ⟨rfl, rfl, rfl, rfl, id⟩

theorem alike_abandon (p : Proc) (x : Nat) : p.Alike (p.abandon x) := by
  unfold abandon
  split <;> exact ⟨rfl, rfl, rfl, rfl, id⟩

end Proc

namespace Call

-- The submitter has a ticket and its frame is not out.
def sends (id : Nat) : Call → Nat
  | .sending x | .poisoning x _ | .unsent x _ => if x = id then 1 else 0
  | _ => 0

-- The step puts the submit frame of this id on the pipe.
def wrote (c : Choice) (id : Nat) : Call → Nat
  | .sending x => if c = .go ∧ x = id then 1 else 0
  | _ => 0

variable {p : Proc} {i : Nat} {c : Choice} {call : Call} {e : Effect}

theorem step_alike (went : call.step p i c = some e) : p.Alike e.proc := by
  cases call with
  | wait x =>
    have alike := p.alike_claim x i
    simp only [step] at went
    split at went
    all_goals
      rename_i same
      cases went
      rw [same] at alike
      exact alike
  | discard x =>
    cases went
    exact p.alike_discard x
  | expired x err box =>
    cases box with
    | none =>
      cases went
      exact p.alike_abandon x
    | some r =>
      cases went
      exact ⟨rfl, rfl, rfl, rfl, id⟩
  | unsent x err =>
    obtain ⟨⟨p', sends⟩, failed, rfl⟩ := Option.map_eq_some_iff.mp went
    rcases Proc.sendFailed_cases failed with ⟨_, _, _, _, rfl, _⟩ | ⟨_, rfl, _⟩
    · exact ⟨rfl, rfl, rfl, rfl, fun bound => Nat.le_trans (Nat.sub_le _ 1) bound⟩
    · exact ⟨rfl, rfl, rfl, rfl, id⟩
  | _ =>
    unfold step at went
    constructor <;> grind -ring -linarith [Effect.quiet, Proc.register, Proc.close, Proc.poisonStream,
      Option.map_eq_some_iff]

/-- A step of a call keeps the balance of an id: what it writes and what it has still to write
against the ticket. -/
theorem step_sends (went : call.step p i c = some e) (id : Nat) :
    call.wrote c id + e.call.sends id + census (sends id) e.fork.toList +
      Proc.owed (p.lookup id) ≤ call.sends id + Proc.owed (e.proc.lookup id) := by
  cases call with
  | acquired =>
    simp only [step] at went
    split at went
    · cases went
      exact Nat.le_refl _
    · cases went
      simp only [Effect.quiet, Proc.lookup_register]
      split
      · rename_i same
        simp [wrote, sends, same, Proc.lookup_fresh, Proc.owed]
      · rename_i other
        simp [wrote, sends, Ne.symm other]
  | unsent x err =>
    obtain ⟨⟨p', sends_⟩, failed, rfl⟩ := Option.map_eq_some_iff.mp went
    rcases Proc.sendFailed_cases failed with ⟨waiter, abandoned, found, _, rfl, _⟩ | ⟨_, rfl, _⟩
    · have put := Proc.lookup_put p x id none (by simp [found])
      have same : (p.put x none).lookup id =
          { p.put x none with sem := p.sem - 1, failures := p.failures ++ [(x, err)] }.lookup id := rfl
      rw [same] at put
      simp only [put]
      split
      · rename_i here
        simp [wrote, sends, here, found, Proc.owed]
      · simp [wrote, sends]
    · have same : { p with failures := p.failures ++ [(x, err)] }.lookup id = p.lookup id := rfl
      simp [wrote, sends, same]
  | wait x =>
    have same := p.owed_claim x i id
    simp only [step] at went
    split at went
    all_goals
      rename_i claimed
      cases went
      rw [claimed] at same
      simp [wrote, sends, Effect.quiet, same]
  | discard x =>
    simp only [step, Option.some.injEq] at went
    subst went
    simp [wrote, sends, Effect.quiet, p.owed_discard x id]
  | close =>
    simp only [step] at went
    split at went
    · cases went
      simp [wrote, sends, Effect.quiet]
    · cases went
      simp [wrote, sends, Proc.lookup_close, Proc.owed_shut]
  | expired x err box =>
    cases box with
    | none =>
      cases went
      simp [wrote, sends, p.owed_abandon x id]
    | some r =>
      cases went
      simp [wrote, sends, Effect.quiet]
  | sending x =>
    simp only [step] at went
    split at went
    all_goals cases went
    all_goals simp [wrote, sends, Effect.quiet]
  | poisoning x err =>
    cases went
    exact Nat.le_of_eq (by simp [wrote, sends, Effect.quiet, Proc.lookup, Proc.poisonStream])
  | submit input context =>
    cases went
    simp only [Effect.quiet]
    repeat' split
    all_goals simp [wrote, sends]
  | submitted | waited | cancelled | discarded | closeReturned => cases went
  | parked x box =>
    simp only [step] at went
    split at went
    · obtain ⟨r, _, rfl⟩ := Option.map_eq_some_iff.mp went
      simp [wrote, sends, Effect.quiet]
    · cases went
      simp [wrote, sends, Effect.quiet]
    · cases went
  | _ =>
    obtain ⟨_, fork, quiet⟩ := step_plain went rfl
    have same : e.proc.lookup id = p.lookup id := by rw [Proc.lookup, Proc.lookup, quiet.tickets]
    rw [same, fork]
    simp only [step] at went
    repeat' split at went
    all_goals cases went
    all_goals simp [wrote, sends, Effect.quiet]

theorem receive_sends {id : Nat} {r : Result} {call' : Call} (got : call.receive r = some call') :
    call'.sends id = call.sends id + 0 := by
  unfold receive at got
  split at got
  · cases got
    rfl
  · cases got
    rfl
  · cases got

end Call

def Response.counts (id : Nat) (resp : Response) : Nat := if resp.id = id then 1 else 0

-- A submit frame of this id.
def Serve.Incoming.brings (id : Nat) : Serve.Incoming → Nat
  | .submit req => if req.id = id then 1 else 0
  | _ => 0

namespace Host

variable {s t : Host}

/-- The steps of the host that the worker does not cause. -/
structure Waits (s t : Host) : Prop where
  frames : t.proc.frames = s.proc.frames
  poolSize : t.proc.poolSize = s.proc.poolSize
  sem : s.proc.sem ≤ s.proc.poolSize → t.proc.sem ≤ s.proc.poolSize

theorem writes_brings (s : Host) (req : Serve.Request) (i : Nat) (c : Choice) (id : Nat) {call : Call}
    (at_ : s.calls[i]? = some call) :
    census (Serve.Incoming.brings id) (s.writes req (.call i c)) = call.wrote c id := by
  simp only [writes, at_]
  cases call with
  | sending x => cases c <;> simp [Call.wrote, Serve.Incoming.brings]
  | cancelling x => cases c <;> simp [Call.wrote, Serve.Incoming.brings]
  | _ => rfl

theorem call_sends {i : Nat} {c : Choice} (went : s.callStep i c = some t) (req : Serve.Request)
    (id : Nat) : s.Waits t ∧ t.proc.reaped = s.proc.reaped ∧ t.proc.procExited = s.proc.procExited ∧
      census (Serve.Incoming.brings id) (s.writes req (.call i c)) + census (Call.sends id) t.calls +
        Proc.owed (s.proc.lookup id) ≤
      census (Call.sends id) s.calls + Proc.owed (t.proc.lookup id) := by
  obtain ⟨call, at_, went⟩ := Option.bind_eq_some_iff.mp went
  obtain ⟨e, stepped, went⟩ := Option.bind_eq_some_iff.mp went
  obtain ⟨calls, posted, rfl⟩ := Option.map_eq_some_iff.mp went
  have alike := Call.step_alike stepped
  refine ⟨⟨alike.frames, alike.poolSize, alike.sem⟩, alike.reaped, alike.procExited, ?_⟩
  have balance := Call.step_sends stepped id
  have moved := census_set (Call.sends id) at_ e.call
  have sent := post_census posted (Call.sends id) (fun _ => 0) fun r c c' got =>
    Call.receive_sends got
  have nothing : census (fun _ : Nat × Result => 0) e.sends = 0 := census_eq_zero _ fun _ _ => rfl
  rw [writes_brings s req i c id at_]
  simp only [census_append]
  omega

theorem step_waits {a : HostAct} (went : s.step a = some t) (other : ∀ resp, a ≠ .frame resp) :
    s.Waits t ∧ (t.proc.reaped = true → s.proc.reaped = true ∨ ∃ err, a = .reap err) ∧
      ((s.proc.procExited = true → s.proc.reaped = true) → t.proc.procExited = true →
        t.proc.reaped = true) := by
  cases a with
  | enter e =>
    cases went
    exact ⟨⟨rfl, rfl, id⟩, .inl, id⟩
  | call i c =>
    obtain ⟨waits, reaped, exited, _⟩ := call_sends went ⟨0, [], 0, none, none⟩ 0
    exact ⟨waits, fun now => .inl (reaped ▸ now), fun known now => reaped ▸ known (exited ▸ now)⟩
  | frame resp => exact absurd rfl (other resp)
  | readFails cause =>
    simp only [step] at went
    split at went
    · cases went
      exact ⟨⟨rfl, rfl, id⟩, .inl, id⟩
    · cases went
  | reap err =>
    simp only [step] at went
    split at went
    · cases went
    · cases went
      exact ⟨⟨rfl, rfl, id⟩, fun _ => .inr ⟨err, rfl⟩, fun _ _ => rfl⟩
  | exit =>
    simp only [step] at went
    split at went
    · rename_i ready
      cases went
      simp only [Bool.and_eq_true] at ready
      exact ⟨⟨rfl, rfl, id⟩, .inl, fun _ _ => ready.1⟩
    · cases went
  | sweep =>
    simp only [step] at went
    split at went
    · split at went
      · obtain ⟨calls, _, rfl⟩ := Option.map_eq_some_iff.mp went
        simp only [Proc.sweep]
        split <;> exact ⟨⟨rfl, rfl, id⟩, .inl, id⟩
      · cases went
    · cases went
  | done =>
    simp only [step] at went
    split at went
    · cases went
      exact ⟨⟨rfl, rfl, id⟩, .inl, id⟩
    · cases went

theorem sends_aside {a : HostAct} {req : Serve.Request} (nothing : s.writes req a = [])
    (calls : t.calls = s.calls) (tickets : t.proc.tickets = s.proc.tickets) (id : Nat) :
    census (Serve.Incoming.brings id) (s.writes req a) + census (Call.sends id) t.calls +
      Proc.owed (s.proc.lookup id) ≤
    census (Call.sends id) s.calls + Proc.owed (t.proc.lookup id) := by
  rw [nothing, calls, Proc.lookup, Proc.lookup, tickets, census_nil]
  omega

/-- What the host writes and has still to write against its tickets. -/
theorem step_sends {a : HostAct} (went : s.step a = some t) (other : ∀ resp, a ≠ .frame resp)
    (alive : s.proc.procExited = false) (req : Serve.Request) (id : Nat) :
    census (Serve.Incoming.brings id) (s.writes req a) + census (Call.sends id) t.calls +
      Proc.owed (s.proc.lookup id) ≤
    census (Call.sends id) s.calls + Proc.owed (t.proc.lookup id) := by
  cases a with
  | enter e =>
    cases went
    have fresh : e.call.sends id = 0 := by cases e <;> rfl
    simp [writes, fresh]
  | call i c => exact (call_sends went req id).2.2.2
  | frame resp => exact absurd rfl (other resp)
  | readFails cause =>
    simp only [step] at went
    split at went
    · cases went
      exact sends_aside rfl rfl rfl id
    · cases went
  | reap err =>
    simp only [step] at went
    split at went
    · cases went
    · cases went
      exact sends_aside rfl rfl rfl id
  | exit =>
    simp only [step] at went
    split at went
    · cases went
      exact sends_aside rfl rfl rfl id
    · cases went
  | sweep =>
    simp only [step] at went
    split at went
    · split at went
      · rename_i exited
        rw [alive] at exited
        cases exited
      · cases went
    · cases went
  | done =>
    simp only [step] at went
    split at went
    · cases went
      exact sends_aside rfl rfl rfl id
    · cases went

/-- The host reads a frame. -/
theorem frame_reads {resp : Response} (went : s.step (.frame resp) = some t) :
    t.proc.frames.length = s.proc.frames.length + 1 ∧ t.proc.poolSize = s.proc.poolSize ∧
      t.proc.sem ≤ s.proc.sem ∧ t.proc.reaped = s.proc.reaped ∧
      t.proc.procExited = s.proc.procExited ∧ ∀ id, census (Call.sends id) t.calls =
        census (Call.sends id) s.calls ∧
        Proc.owed (s.proc.lookup id) ≤ Proc.owed (t.proc.lookup id) + resp.counts id := by
  simp only [step] at went
  split at went
  · obtain ⟨⟨p, sends⟩, read, went⟩ := Option.bind_eq_some_iff.mp went
    obtain ⟨calls, posted, rfl⟩ := Option.map_eq_some_iff.mp went
    have sent (id : Nat) := post_census posted (Call.sends id) (fun _ => 0) fun r c c' got =>
      Call.receive_sends got
    have nothing : census (fun _ : Nat × Result => 0) sends = 0 := census_eq_zero _ fun _ _ => rfl
    rcases Proc.frame_cases read with ⟨waiter, abandoned, slot, poisoned, found, _, _, rfl⟩ |
      ⟨_, _, rfl⟩
    · refine ⟨by simp, rfl, Nat.sub_le _ _, rfl, rfl, fun id => ⟨?_, ?_⟩⟩
      · have same := sent id
        dsimp only at same ⊢
        omega
      · have put := Proc.lookup_put s.proc resp.id id slot (by simp [found])
        have same : (s.proc.put resp.id slot).lookup id = { s.proc.put resp.id slot with
            sem := s.proc.sem - 1
            poisoned := poisoned
            frames := s.proc.frames ++ [(resp, true)] }.lookup id := rfl
        rw [same] at put
        simp only [put]
        split
        · rename_i here
          rw [here, found]
          simp [Response.counts, Proc.owed]
        · exact Nat.le_add_right _ _
    · refine ⟨by simp, rfl, Nat.le_refl _, rfl, rfl, fun id => ⟨?_, ?_⟩⟩
      · have same := sent id
        dsimp only at same ⊢
        omega
      · exact Nat.le_add_right _ _
  · cases went

end Host

namespace Serve

-- The answer is still to be written.
def Stage.unanswered : Stage → Nat
  | .unsent _ | .leaving _ | .halted _ => 0
  | _ => 1

def Job.unanswered (id : Nat) (job : Job) : Nat := if job.req.id = id then job.stage.unanswered else 0

def Main.brings (id : Nat) : Main → Nat
  | .registering req => if req.id = id then 1 else 0
  | _ => 0

namespace Server

-- The submits of this id that Serve has still to answer.
def weight (s : Server) (id : Nat) : Nat :=
  census (Incoming.brings id) s.input + s.main.brings id + census (Job.unanswered id) s.jobs

def responses (s : Server) : List Response := s.sent.filterMap Outgoing.response

/-- Every response is the answer of a job. -/
def Answered (s : Server) : Prop :=
  ∀ resp ∈ s.responses, ∃ (j : Nat) (job : Job) (r : Outcome), s.jobs[j]? = some job ∧
    job.stage.answered = some r ∧ answer job.req r = .answer resp

end Server

theorem Advances.unanswered {h : Caller} {ctx : Ctx} {input : List UInt8} {a b : Stage}
    (advances : Advances h ctx input a b) : b.unanswered = a.unanswered := by
  cases advances <;> rfl

/-- A step of Serve writes at most one answer, and each answer is one submit less. -/
structure Replies (s t : Server) : Prop where
  input : ∀ id, ∃ more, t.responses = s.responses ++ more ∧
    t.weight id + census (Response.counts id) more ≤ s.weight id
  answered : s.Answered → t.Answered

namespace Replies

variable {s t : Server}

/-- Nothing is written and no job changes. -/
theorem aside (jobs : t.jobs = s.jobs) (responses : t.responses = s.responses)
    (less : ∀ id, census (Incoming.brings id) t.input + t.main.brings id ≤
      census (Incoming.brings id) s.input + s.main.brings id) : Replies s t := by
  constructor
  · intro id
    refine ⟨[], by simp [responses], ?_⟩
    have few := less id
    simp only [Server.weight, jobs, census_nil]
    omega
  · intro answered resp member
    rw [responses] at member
    rw [jobs]
    exact answered resp member

/-- One job changes. -/
theorem job {j : Nat} {old new : Job} (at_ : s.jobs[j]? = some old) (jobs : t.jobs = s.jobs.set j new)
    (responses : t.responses = s.responses) (input : t.input = s.input)
    (main : ∀ id, t.main.brings id = s.main.brings id) (req : new.req = old.req)
    (less : new.stage.unanswered ≤ old.stage.unanswered)
    (answered : old.stage.answered = none ∨ new.stage.answered = old.stage.answered) :
    Replies s t := by
  constructor
  · intro id
    refine ⟨[], by simp [responses], ?_⟩
    have main := main id
    have moved := census_set (Job.unanswered id) at_ new
    have fewer : new.unanswered id ≤ old.unanswered id := by
      unfold Job.unanswered
      rw [req]
      split
      · exact less
      · exact Nat.le_refl _
    simp only [Server.weight, jobs, input, census_nil]
    omega
  · intro was resp member
    rw [responses] at member
    obtain ⟨k, job, r, here, gave, same⟩ := was resp member
    rw [jobs]
    by_cases mine : k = j
    · subst mine
      rw [at_] at here
      cases here
      rcases answered with none | kept
      · rw [none] at gave
        cases gave
      · refine ⟨k, new, r, ?_, kept.trans gave, req ▸ same⟩
        rw [getElem?_set_of_some at_, if_pos rfl]
    · exact ⟨k, job, r, by rw [List.getElem?_set_ne (Ne.symm mine)]; exact here, gave, same⟩

/-- A job answers. -/
theorem body {marshal : Outgoing → List Byte} {j : Nat} {req : Request} {r : Outcome}
    (at_ : s.jobs[j]? = some ⟨req, .body r⟩) :
    Replies s { s.writeBody marshal (answer req r) with
      jobs := s.jobs.set j ⟨req, .leaving (some r)⟩ } := by
  have sent : Server.responses { s.writeBody marshal (answer req r) with
      jobs := s.jobs.set j ⟨req, .leaving (some r)⟩ } =
      s.responses ++ [⟨req.id, r.out, r.err.map encodeError⟩] := by
    simp [Server.responses, Server.writeBody, answer, Outgoing.response]
  constructor
  · intro id
    refine ⟨_, sent, ?_⟩
    have moved := census_set (Job.unanswered id) at_ ⟨req, .leaving (some r)⟩
    simp only [Server.weight, Server.writeBody, census_cons, census_nil]
    simp only [Job.unanswered, Stage.unanswered, Response.counts, ite_self] at moved ⊢
    omega
  · intro was resp member
    rw [sent, List.mem_append, List.mem_singleton] at member
    rcases member with old | rfl
    · obtain ⟨k, job, r', here, gave, same⟩ := was resp old
      have other : k ≠ j := by
        rintro rfl
        rw [at_] at here
        cases here
        cases gave
      exact ⟨k, job, r', (List.getElem?_set_ne (Ne.symm other)).trans here, gave, same⟩
    · exact ⟨j, _, r, (getElem?_set_of_some at_ _ j).trans (if_pos rfl), rfl, rfl⟩

theorem register {req : Request} (main : s.main = .registering req) :
    Replies s { s with
      cancels := s.cancels ++ [(req.id, s.jobs.length)]
      jobs := s.jobs ++ [⟨req, .unborn⟩]
      main := .spawning s.jobs.length } := by
  constructor
  · intro id
    refine ⟨[], (List.append_nil _).symm, ?_⟩
    simp only [Server.weight, main, Main.brings, census_concat, census_nil, Job.unanswered,
      Stage.unanswered]
    omega
  · intro was resp member
    obtain ⟨k, job, r, here, gave, same⟩ := was resp member
    refine ⟨k, job, r, ?_, gave, same⟩
    exact (List.getElem?_append_left (List.getElem?_eq_some_iff.mp here).1).trans here

theorem read {main : Main} {rest : List Incoming} (was : s.main = .reading)
    (reads : Reads s.input main rest) : Replies s { s with main := main, input := rest } := by
  refine .aside rfl rfl fun id => ?_
  simp only [was]
  generalize s.input = input at reads
  cases reads with
  | submit =>
    simp only [Main.brings, Incoming.brings, census_cons]
    omega
  | _ => simp [Main.brings, Incoming.brings]

theorem moves {h : Caller} {marshal : Outgoing → List Byte} (moves : Moves h marshal s t) :
    Replies s t := by
  cases moves with
  | read main reads => exact .read main reads
  | duplicate main _ => exact .aside rfl rfl fun id => by simp [Main.brings]
  | register main _ => exact .register main
  | spawn main at_ =>
    exact .job at_ rfl rfl rfl (by simp [main, Main.brings]) rfl (Nat.le_refl _) (.inl rfl)
  | advance at_ advances =>
    exact .job at_ rfl rfl rfl (fun _ => rfl) rfl advances.unanswered.le
      (.inl advances.same.2.2.2.2.2)
  | delete at_ => exact .job at_ rfl rfl rfl (fun _ => rfl) rfl (Nat.le_refl _) (.inl rfl)
  | cancelOwn at_ => exact .job at_ rfl rfl rfl (fun _ => rfl) rfl (Nat.le_refl _) (.inl rfl)
  | lock at_ _ => exact .job at_ rfl rfl rfl (fun _ => rfl) rfl (Nat.le_refl _) (.inl rfl)
  | tooLarge at_ _ => exact .job at_ rfl rfl rfl (fun _ => rfl) rfl (Nat.zero_le _) (.inl rfl)
  | header at_ => exact .job at_ rfl rfl rfl (fun _ => rfl) rfl (Nat.le_refl _) (.inl rfl)
  | body at_ => exact .body at_
  | unsent at_ => exact .job at_ rfl rfl rfl (fun _ => rfl) rfl (Nat.le_refl _) (.inl rfl)
  | leave at_ => exact .job at_ rfl rfl rfl (fun _ => rfl) rfl (Nat.le_refl _) (.inr rfl)
  | helloBody main =>
    refine .aside rfl ?_ fun id => by simp [Server.writeBody, main, Main.brings]
    simp [Server.responses, Server.writeBody, Server.hello, Outgoing.response]
  | _ =>
    refine .aside rfl rfl fun id => ?_
    simp_all [Main.brings, Server.writeHeader, Server.cancel]

theorem refuse {err : Text} (went : s.refuse err = some t) : Replies s t := by
  unfold Server.refuse at went
  split at went
  · rename_i main
    cases went
    exact .aside rfl rfl fun id => by simp [main, Main.brings]
  · rename_i main
    cases went
    exact .aside rfl rfl fun id => by simp [main, Main.brings]
  · obtain ⟨job, found, rfl⟩ := Option.map_eq_some_iff.mp went
    have writes := List.find?_some found
    rw [List.find?_eq_getElem?_findIdx] at found
    refine .job found rfl rfl rfl (fun _ => rfl) rfl (Nat.zero_le _) (.inl ?_)
    cases stage : job.stage with
    | leaving r => simp [stage] at writes
    | halted r => simp [stage] at writes
    | _ => rfl

end Replies

/-- A handle that may answer anything. -/
def anything : Caller := ⟨fun _ _ _ _ => True, fun _ _ _ _ => True⟩

theorem step_replies {marshal : Outgoing → List Byte} {s t : Server} {a : Act}
    (went : s.step marshal a = some t) : Replies s t := by
  cases a with
  | refuse err => exact .refuse went
  | submitted j answer =>
    have at_ : ∃ job, s.jobs[j]? = some job := by
      by_contra none
      simp_all [Server.step]
    obtain ⟨job, at_⟩ := at_
    exact .moves (step_moves (h := anything) (a := .submitted j answer) ⟨job, at_, trivial⟩ went)
  | answered j r =>
    simp only [Server.step] at went
    split at went
    · rename_i req ticket found
      cases went
      exact .job found rfl rfl rfl (fun _ => rfl) rfl (Nat.le_refl _) (.inl rfl)
    · cases went
  | main => exact .moves (mainStep_moves (h := anything) went)
  | job j =>
    obtain ⟨job, at_, went⟩ := Option.bind_eq_some_iff.mp went
    exact .moves (jobStep_moves (h := anything) at_ went)
  | expire j => exact .moves (step_moves (h := anything) (a := .expire j) trivial went)

end Serve

end Gusset.Isolate
