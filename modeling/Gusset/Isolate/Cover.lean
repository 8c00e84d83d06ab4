import Gusset.Isolate.Transit

/-! The host's permits cover the worker's: every permit that is out on the worker's handle belongs
to a job whose answer the host still waits for. -/
namespace Gusset.Isolate
open Foundation
open Handle (Ticket Pc Thread)

namespace Joint

variable {setup : Setup} {s t : Joint}

/-- What every step keeps on the host's side. -/
structure Posted (setup : Setup) (s : Joint) : Prop where
  hosts : Hosts setup.poolSize s.host
  poolSize : s.host.proc.poolSize = setup.poolSize
  sem : s.host.proc.sem ≤ setup.poolSize
  reaped : s.host.proc.reaped = true → s.exited = true
  procExited : s.host.proc.procExited = true → s.host.proc.reaped = true
  read : s.host.proc.frames.length ≤ s.server.responses.length
  transit : s.exited = false → ∀ id, census (Call.sends id) s.host.calls + s.server.weight id +
    census (Response.counts id) (s.server.responses.drop s.host.proc.frames.length) ≤
      Proc.owed (s.host.proc.lookup id)
  answered : s.server.Answered

namespace Posted

theorem start (setup : Setup) : Posted setup (start setup) where
  hosts := hosts_start setup.poolSize
  poolSize := rfl
  sem := Nat.zero_le _
  reaped := nofun
  procExited := nofun
  read := Nat.le_refl _
  transit := fun _ id => by
    simp [Joint.start, Serve.Server.weight, Serve.Server.start, Serve.Server.responses, Host.start,
      Serve.Main.brings]
  answered := nofun

/-- Serve takes a step. -/
theorem replies {server : Serve.Server} (inv : Posted setup s)
    (replies : Serve.Replies s.server server) {worker : Handle.State} {calls : Nat → Option Nat}
    {tickets : Nat → Option Ticket} :
    Posted setup ⟨s.host, server, worker, calls, tickets, s.exited⟩ := by
  refine ⟨inv.hosts, inv.poolSize, inv.sem, inv.reaped, inv.procExited, ?_, ?_,
    replies.answered inv.answered⟩
  · obtain ⟨more, longer, _⟩ := replies.input 0
    have read := inv.read
    dsimp only
    rw [longer, List.length_append]
    omega
  · intro alive id
    obtain ⟨more, longer, less⟩ := replies.input id
    have before := inv.transit alive id
    rw [longer, List.drop_append_of_le_length inv.read, census_append]
    dsimp only
    omega

theorem host {a : HostAct} {req : Serve.Request} {host : Host} (inv : Posted setup s)
    (lets : s.lets a = true) (went : s.host.step a = some host) :
    Posted setup { s with
      host := host
      server := { s.server with input := s.server.input ++ s.host.writes req a } } := by
  have other (resp : Response) : a ≠ .frame resp := by
    rintro rfl
    cases lets
  obtain ⟨waits, reaped, exits⟩ := Host.step_waits went other
  refine ⟨inv.hosts.next ⟨a, went⟩, waits.poolSize.trans inv.poolSize, ?_, ?_,
    exits inv.procExited, ?_, ?_, inv.answered⟩
  · exact inv.poolSize ▸ waits.sem (inv.poolSize ▸ inv.sem)
  · intro now
    rcases reaped now with before | ⟨err, rfl⟩
    · exact inv.reaped before
    · exact lets
  · exact waits.frames ▸ inv.read
  · intro alive id
    have running : s.host.proc.procExited = false := by
      by_contra exited
      have gone := inv.reaped (inv.procExited (by simpa using exited))
      exact absurd (alive.symm.trans gone) nofun
    have balance := Host.step_sends went other running req id
    have before := inv.transit alive id
    have same : Serve.Server.responses { s.server with
        input := s.server.input ++ s.host.writes req a } = s.server.responses := rfl
    rw [waits.frames, same]
    simp only [Serve.Server.weight, census_append] at before ⊢
    omega

theorem reads {resp : Response} {host : Host} (inv : Posted setup s) (next : s.next = some resp)
    (went : s.host.step (.frame resp) = some host) : Posted setup { s with host := host } := by
  obtain ⟨longer, poolSize, sem, reaped, exited, sends⟩ := Host.frame_reads went
  obtain ⟨inside, here⟩ := List.getElem?_eq_some_iff.mp next
  refine ⟨inv.hosts.next ⟨_, went⟩, poolSize.trans inv.poolSize, Nat.le_trans sem inv.sem, ?_, ?_, ?_,
    ?_, inv.answered⟩
  · exact reaped ▸ inv.reaped
  · exact reaped ▸ exited ▸ inv.procExited
  · rw [longer]
    exact inside
  · intro alive id
    have before := inv.transit alive id
    have balance := sends id
    have first : s.server.responses.drop s.host.proc.frames.length =
        resp :: s.server.responses.drop host.proc.frames.length := by
      rw [longer, ← here]
      exact List.drop_eq_getElem_cons inside
    rw [first, census_cons] at before
    dsimp only
    omega

theorem moves (inv : Posted setup s) (moves : Moves setup s t) : Posted setup t := by
  cases moves with
  | host lets went => exact inv.host lets went
  | read next went => exact inv.reads next went
  | serve _ _ went => exact inv.replies (Serve.step_replies went)
  | issued _ _ _ at_ | refused _ _ _ at_ | waited _ _ _ at_ =>
    apply inv.replies
    exact .job at_ rfl rfl rfl (fun _ => rfl) rfl (Nat.le_refl _) (.inl rfl)
  | exit =>
    exact ⟨inv.hosts, inv.poolSize, inv.sem, fun _ => rfl, inv.procExited, inv.read, nofun,
      inv.answered⟩
  | _ =>
    exact ⟨inv.hosts, inv.poolSize, inv.sem, inv.reaped, inv.procExited, inv.read, inv.transit,
      inv.answered⟩

end Posted

/-- What every run within the condition keeps. -/
structure Sound (setup : Setup) (s : Joint) : Prop where
  shares : Shares setup s
  posted : Posted setup s

theorem stays_sound (stays : Stays setup s) : Sound setup s := by
  refine stays.invariant ?_ ?_
  · rintro s rfl
    exact ⟨.start setup, .start setup⟩
  · rintro s t sound ⟨a, covered, went⟩
    have moves := step_moves covered went
    exact ⟨sound.shares.moves moves, sound.posted.moves moves⟩

-- The jobs in Submit or in Wait.
def active (s : Joint) : Finset Nat :=
  (Finset.range s.server.jobs.length).filter fun j =>
    ((s.server.jobs[j]?).map fun job => job.stage.active).getD false

theorem mem_active {j : Nat} : j ∈ s.active ↔
    ∃ job, s.server.jobs[j]? = some job ∧ job.stage.active = true := by
  unfold active
  rw [Finset.mem_filter, Finset.mem_range]
  constructor
  · rintro ⟨inside, active⟩
    rw [List.getElem?_eq_getElem inside] at active ⊢
    exact ⟨_, rfl, active⟩
  · rintro ⟨job, at_, active⟩
    exact ⟨(List.getElem?_eq_some_iff.mp at_).1, by rw [at_]; exact active⟩

/-- What a job has of the worker's permits: its place, or its ticket. -/
def name (s : Joint) (j : Nat) : Option (Nat ⊕ Ticket) :=
  match s.server.jobs[j]? with
  | some ⟨_, .waiting t⟩ => some (.inr t)
  | some ⟨_, .submitting⟩ => (s.calls j).bind fun i => (s.worker.threads[i]?).map fun th =>
      match th.pc.brings with
      | some t => .inr t
      | none => .inl i
  | _ => none

theorem holding_brings {pc : Pc} (holds : pc.role = .holding) : pc.brings = none := by
  cases pc with
  | insert t | release t | issue t => cases holds
  | done out => cases holds
  | unlock after =>
    cases after with
    | release t | issue t => cases holds
    | _ => rfl
  | _ => rfl

theorem asks_idle {pc : Pc} (asks : pc.early = true) : pc.role = .idle ∧ pc.brings = none := by
  cases pc with
  | closed1 | exited1 | poisoned1 | input | acquire => exact ⟨rfl, rfl⟩
  | _ => cases asks

/-- Every permit is one of a job in its call, and a Submit that has not come to its select has none.
-/
theorem Shares.sem_le (inv : Shares setup s) {A : Finset Nat}
    (all : ∀ j ∈ s.active, ¬ s.asks j → j ∈ A) : s.worker.sh.sem ≤ A.card := by
  have books := Handle.State.reaches_books inv.reach
  refine books.permits.sem_le_card s.name ?_ ?_
  · intro i holds
    simp only [Handle.State.ledger, List.getElem?_map, Option.map_eq_some_iff] at holds
    obtain ⟨th, there, role⟩ := holds
    have caller : ∃ j, s.calls j = some i := by
      by_contra nobody
      obtain ⟨out, halted⟩ := inv.staffed.idle i th there fun j called => nobody ⟨j, called⟩
      rw [halted] at role
      cases role
    obtain ⟨j, called⟩ := caller
    obtain ⟨th', req, stage, here, at_, inCall⟩ := inv.staffed.call j i called
    rw [there] at here
    cases here
    cases inCall with
    | submit submits =>
      refine ⟨j, all j (mem_active.mpr ⟨_, at_, rfl⟩) ?_, ?_⟩
      · rintro ⟨_, _, early⟩
        obtain ⟨th', here, asks⟩ := early i called
        rw [there] at here
        cases here
        rw [(asks_idle asks).1] at role
        cases role
      · simp [name, at_, called, there, holding_brings role]
    | wait waits => exact absurd role (Handle.State.waits_role waits)
  · intro ticket unpaid
    obtain ⟨accepted, none⟩ := Finset.mem_filter.mp unpaid
    obtain ⟨j, owns⟩ := inv.ticketed.kept ticket accepted none
    cases owns with
    | waits at_ =>
      refine ⟨j, all j (mem_active.mpr ⟨_, at_, rfl⟩) ?_, by simp [name, at_]⟩
      rintro ⟨_, other, _⟩
      rw [at_] at other
      cases other
    | @brings req i th at_ called there brings =>
      refine ⟨j, all j (mem_active.mpr ⟨_, at_, rfl⟩) ?_, by simp [name, at_, called, there, brings]⟩
      rintro ⟨_, _, early⟩
      obtain ⟨th', here, asks⟩ := early i called
      rw [there] at here
      cases here
      rw [(asks_idle asks).2] at brings
      cases brings

theorem active_unanswered {stage : Serve.Stage} (active : stage.active = true) :
    stage.unanswered = 1 := by
  cases stage with
  | submitting | waiting => rfl
  | _ => cases active

theorem Posted.one (inv : Posted setup s) (alive : s.exited = false) {j : Nat} {job : Serve.Job}
    (at_ : s.server.jobs[j]? = some job) (active : job.stage.active = true) :
    census (Serve.Job.unanswered job.req.id) s.server.jobs ≤ 1 ∧
      Proc.owed (s.host.proc.lookup job.req.id) = 1 := by
  have transit := inv.transit alive job.req.id
  have mine := le_census (Serve.Job.unanswered job.req.id) at_
  have one : job.unanswered job.req.id = 1 := by
    simp [Serve.Job.unanswered, active_unanswered active]
  have most : Proc.owed (s.host.proc.lookup job.req.id) ≤ 1 := by
    unfold Proc.owed
    split <;> omega
  simp only [Serve.Server.weight] at transit
  constructor <;> omega

/-- Different jobs have different ids, and the host waits for each of them. -/
theorem Posted.card_le (inv : Posted setup s) (alive : s.exited = false) :
    s.active.card ≤ census Proc.owed s.host.proc.tickets := by
  let idOf (j : Nat) : Nat := ((s.server.jobs[j]?).map fun job => job.req.id).getD 0
  have found (j : Nat) (member : j ∈ s.active) : ∃ job : Serve.Job, s.server.jobs[j]? = some job ∧
      job.stage.active = true ∧ idOf j = job.req.id := by
    obtain ⟨job, at_, active⟩ := mem_active.mp member
    exact ⟨job, at_, active, by simp [idOf, at_]⟩
  have different : (s.active.toList.map idOf).Nodup := by
    refine List.Nodup.map_on ?_ s.active.nodup_toList
    intro j hj k hk same
    obtain ⟨job, at_, active, id⟩ := found j (Finset.mem_toList.mp hj)
    obtain ⟨other, there, activeOther, idOther⟩ := found k (Finset.mem_toList.mp hk)
    have ids : other.req.id = job.req.id := idOther.symm.trans (same.symm.trans id)
    refine index_unique _ (inv.one alive at_ active).1 at_ there ?_ ?_
    · simp [Serve.Job.unanswered, active_unanswered active]
    · simp [Serve.Job.unanswered, ids, active_unanswered activeOther]
  have owes (id : Nat) (member : id ∈ s.active.toList.map idOf) : (s.host.proc.tickets[id]?.map
      fun slot => decide (Proc.owed slot = 1)).getD false = true := by
    obtain ⟨j, inside, rfl⟩ := List.mem_map.mp member
    obtain ⟨job, at_, active, same⟩ := found j (Finset.mem_toList.mp inside)
    have owed := (inv.one alive at_ active).2
    rw [← same, Proc.lookup] at owed
    cases slot : s.host.proc.tickets[idOf j]? with
    | none =>
      rw [slot] at owed
      cases owed
    | some slot' =>
      rw [slot] at owed
      exact decide_eq_true owed
  have few := length_le_census _ different owes
  have same := census_le (fun slot => (decide (Proc.owed slot = 1)).toNat) Proc.owed
    (l := s.host.proc.tickets) fun slot _ => by
      by_cases one : Proc.owed slot = 1 <;> simp [one]
  rw [List.length_map, Finset.length_toList] at few
  exact Nat.le_trans few same

/-- In every run within the condition the host's permits cover the worker's. -/
theorem host_covers_worker (stays : Stays setup s) : Covers setup s := by
  obtain ⟨shares, posted⟩ := stays_sound stays
  have books := Handle.State.reaches_books shares.reach
  constructor
  · intro alive
    exact Nat.le_trans (shares.sem_le fun j member _ => member) (posted.card_le alive)
  · intro alive j asks
    obtain ⟨req, at_, _⟩ := id asks
    have member : j ∈ s.active := mem_active.mpr ⟨_, at_, rfl⟩
    have less := shares.sem_le fun k inside quiet =>
      Finset.mem_erase.mpr ⟨fun same => quiet (same ▸ asks), inside⟩
    have counted := (hosts_sound posted.hosts).counted.least
    have sem := posted.sem
    have card := posted.card_le alive
    have positive := Finset.card_pos.mpr ⟨j, member⟩
    rw [Finset.card_erase_of_mem member] at less
    omega
  · intro resp host next went returned
    obtain ⟨j, job, r, at_, gave, same⟩ := posted.answered resp (List.mem_of_getElem? next)
    refine ⟨j, job, r, at_, gave, same, ?_⟩
    intro ticket had
    have paid : 0 < s.worker.hist.gaveBack ticket := by
      rcases shares.ticketed.paid j ticket had with paid | ⟨req, here⟩
      · exact paid
      · rw [at_] at here
        cases here
        cases gave
    refine ⟨?_, paid⟩
    have ledger : 0 < s.worker.ledger.hist.gaveBack ticket := paid
    rcases books.permits.early ticket (by omega) with delivered | exited
    · exact books.reader.delivered ticket delivered
    · have running := shares.exited
      rw [show s.worker.sh.drainExited = true from exited] at running
      cases running

/-- A pool of one, with errors as the handle reports them. -/
def single : Setup where
  poolSize := 1
  maxUncollected := 0
  marshal := fun _ => [0]
  report := fun ended e =>
    match e with
    | .ctx => (ended.getD .canceled).err
    | .unknownTicket => .named .unknownTicket
    | .ticketBusy => .named .ticketBusy
    | .poisoned => .ffi errHandlePoisoned
    | _ => .named .closed

-- A request with a deadline.
def hurried : Serve.Request := ⟨0, [], 1, none, none⟩

def hostSubmits (i : Nat) : List Act :=
  [.host (.enter (.submit [] none)) hurried, .host (.call i .go) hurried, .host (.call i .go) hurried,
    .host (.call i .go) hurried, .host (.call i .go) hurried]

def turns (n : Nat) : List Act := .replicate n (.serve .main)

def runs (i n : Nat) : List Act := .replicate n (.worker (.thread i .go))

/-- The first job is submitted and runs. -/
def begun : List Act :=
  turns 4 ++ hostSubmits 0 ++ turns 3 ++ ([.submit 0] : List Act) ++ runs 0 13 ++
    ([.worker (.thread 0 (.ticket 1))] : List Act) ++ runs 0 3 ++
    ([.submitted 0, .wait 0] : List Act) ++ runs 1 1

/-- Its deadline passes, its Wait gives up and is answered, and the host submits the next job while
the engine is still at the first one. -/
def givenUp : List Act :=
  begun ++ ([.serve (.expire 0), .expire 0, .worker (.thread 1 .ctx)] : List Act) ++ runs 1 6 ++
    ([.waited 0] : List Act) ++ List.replicate 6 (Act.serve (.job 0)) ++ ([.read] : List Act) ++
    hostSubmits 1 ++ turns 3 ++ ([.submit 1] : List Act) ++ runs 2 4

/-- That job's Submit finds no permit. -/
theorem submit_queues : ¬ ∀ setup s, Reaches setup s → Covers setup s := by
  intro covers
  obtain ⟨s, run⟩ := Option.isSome_iff_exists.mp
    (show (follow (step single) (start single) givenUp).isSome by decide +kernel)
  have reach : Reaches single s :=
    Reachable.follow (fun _ a _ went => ⟨a, went⟩) (.start rfl) run
  have place : (follow (step single) (start single) givenUp).map (fun s =>
      (s.exited, s.worker.sh.sem, s.server.jobs[1]?.map Serve.Job.stage, s.calls 1,
        s.worker.threads[2]?.map Thread.pc)) =
      some (false, 1, some .submitting, some 2, some .acquire) := by decide +kernel
  rw [run] at place
  simp only [Option.map_some, Option.some.injEq, Prod.mk.injEq, Option.map_eq_some_iff] at place
  obtain ⟨alive, full, ⟨⟨req, stage⟩, at_, rfl⟩, called, ⟨th, there, pc⟩⟩ := place
  have asks : s.asks 1 := by
    refine ⟨req, at_, fun i other => ?_⟩
    rw [called] at other
    cases other
    exact ⟨th, there, by rw [pc]; rfl⟩
  have free := (covers single s reach).free alive 1 asks
  rw [full] at free
  exact absurd free (by decide)

/-- The engine answers, the Wait collects and the answer is written. -/
def collected : List Act :=
  begun ++ ([.worker (.reader (.consume 1 (some [7]))), .worker (.reader .go)] : List Act) ++
    runs 1 4 ++ ([.waited 0] : List Act) ++ List.replicate 6 (Act.serve (.job 0))

theorem host_covers_worker_collected : ∃ s, Stays single s ∧ s.next = some ⟨1, [7], none⟩ ∧
    s.exited = false ∧ Covers single s := by
  let within (s : Joint) (a : Act) : Option Joint := if s.covered a then s.step single a else none
  obtain ⟨s, run⟩ := Option.isSome_iff_exists.mp
    (show (follow within (start single) collected).isSome by decide +kernel)
  have stays : Stays single s := by
    refine Reachable.follow ?_ (.start rfl) run
    intro s a t went
    obtain ⟨covered, moved⟩ := Option.ite_none_right_eq_some.mp went
    exact ⟨a, covered, moved⟩
  have place : (follow within (start single) collected).map (fun s => (s.next, s.exited)) =
      some (some ⟨1, [7], none⟩, false) := by decide +kernel
  rw [run] at place
  simp only [Option.map_some, Option.some.injEq, Prod.mk.injEq] at place
  exact ⟨s, stays, place.1, place.2, host_covers_worker stays⟩

end Joint

end Gusset.Isolate
