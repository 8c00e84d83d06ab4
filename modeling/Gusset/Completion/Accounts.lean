import Gusset.Completion.Moves
import Gusset.Ring.Runs

/-! Where a completed ticket's record is: still with its worker, at a position of the ring, or among
the records written to the pipe. -/
namespace Gusset.Completion
open Foundation Wire Gusset.Ring

namespace Job

variable (cfg : Config) (j : Job)

theorem record_ticket : (j.record cfg).ticket = j.ticket := by
  unfold record
  split
  · split <;> rfl
  · rfl

theorem spilled_ticket : (j.spilled cfg).ticket = j.ticket := by
  unfold spilled
  split
  · rfl
  · exact j.record_ticket cfg

end Job

namespace Worker

/-- The job whose record is not out yet. -/
def job : Worker → Option Job
  | .start j | .write j | .full j | .spill j => some j
  | .publish j p => p.waits.map fun _ => j
  | _ => none

def carries (t : Word) (w : Worker) : Nat :=
  match w.job with
  | some j => if j.ticket = t then 1 else 0
  | none => 0

/-- A worker in `try_publish` has its own job's record there. -/
def Own (cfg : Config) : Worker → Prop
  | .publish j p => p.waits = some (j.record cfg) ∨ p.writes = some (j.record cfg)
  | _ => True

theorem Own.waits {cfg : Config} {j : Job} {p : Producer} (own : Own cfg (.publish j p))
    {r : Record} (waits : p.waits = some r) : p.waits = some (j.record cfg) := by
  rcases own with here | there
  · exact here
  · rw [Producer.waits_of_writes there] at waits
    cases waits

theorem Own.writes {cfg : Config} {j : Job} {p : Producer} (own : Own cfg (.publish j p))
    {r : Record} (writes : p.writes = some r) : p.writes = some (j.record cfg) := by
  rcases own with here | there
  · rw [Producer.waits_of_writes writes] at here
    cases here
  · exact there

theorem carries_of_job {w v : Worker} (same : w.job = v.job) (t : Word) :
    w.carries t = v.carries t := by
  simp only [carries, same]

theorem carries_none {w : Worker} (none : w.job = none) (t : Word) : w.carries t = 0 := by
  simp only [carries, none]

theorem carries_some {w : Worker} {j : Job} (some_job : w.job = some j) (t : Word) :
    w.carries t = if j.ticket = t then 1 else 0 := by
  simp only [carries, some_job]

end Worker

theorem State.published_waits {j : Job} {q : Producer} {r : Record} (waits : q.waits = some r) :
    State.published j q = .publish j q := by
  cases q with
  | done published => cases waits
  | _ => rfl

theorem State.published_writes {j : Job} {q : Producer} {r : Record} (writes : q.writes = some r) :
    State.published j q = .publish j q := by
  cases q with
  | done published => cases writes
  | _ => rfl

def tickets (l : List Record) : List Word := l.map Record.ticket

/-- Every ticket is counted once among the workers, the ring's positions and the pipe's records. -/
structure Accounts (cfg : Config) (s : State) : Prop where
  distinct : (s.begun.map Job.ticket).Nodup
  carried : ∀ w ∈ s.workers, ∀ j, w.job = some j → j ∈ s.begun
  own : ∀ w ∈ s.workers, w.Own cfg
  logged : ∀ r ∈ s.log, ∃ j ∈ s.begun, r = j.record cfg
  sent : ∀ r ∈ s.sent, r = .token ∨ ∃ j ∈ s.begun, r = j.record cfg ∨ r = j.spilled cfg
  count : ∀ t, t ≠ 0 → census (Worker.carries t) s.workers + (tickets s.log).count t +
    (tickets s.sent).count t = (s.begun.map Job.ticket).count t

variable {cfg : Config} {s t : State} {i : Nat}

theorem opened_accounts (cfg : Config) : Accounts cfg (.opened cfg) where
  distinct := List.nodup_nil
  carried := by
    intro w member
    cases member
  own := by
    intro w member
    cases member
  logged := by
    intro r member
    cases member
  sent := by
    intro r member
    cases member
  count := fun _ _ => rfl

namespace Accounts

/-- A worker moves on with its job. -/
theorem keep (books : Accounts cfg s) {w v : Worker} (here : s.workers[i]? = some w)
    (same : v.job = w.job) (own : v.Own cfg) (workers : t.workers = s.workers.set i v)
    (begun : t.begun = s.begun) (log : t.log = s.log) (sent : t.sent = s.sent) :
    Accounts cfg t where
  distinct := by
    rw [begun]
    exact books.distinct
  carried := by
    intro u member j job
    rw [workers] at member
    rw [begun]
    rcases mem_set_cases member with rfl | ⟨k, _, old⟩
    · exact books.carried w (List.mem_of_getElem? here) j (same ▸ job)
    · exact books.carried u (List.mem_of_getElem? old) j job
  own := by
    intro u member
    rw [workers] at member
    rcases mem_set_cases member with rfl | ⟨k, _, old⟩
    · exact own
    · exact books.own u (List.mem_of_getElem? old)
  logged := by
    rw [log, begun]
    exact books.logged
  sent := by
    rw [sent, begun]
    exact books.sent
  count := by
    intro k issued
    rw [workers, log, sent, begun, census_set_same _ here (Worker.carries_of_job same k)]
    exact books.count k issued

/-- A worker puts its job's record out: into the ring's log or into the pipe. -/
theorem out (books : Accounts cfg s) {w v : Worker} {j : Job} {r : Record}
    (here : s.workers[i]? = some w) (job : w.job = some j) (rid : v.job = none)
    (own : v.Own cfg) (workers : t.workers = s.workers.set i v) (begun : t.begun = s.begun)
    (route : t.log = s.log ++ [r] ∧ t.sent = s.sent ∧ r = j.record cfg ∨
      t.log = s.log ∧ t.sent = s.sent ++ [r] ∧ (r = j.record cfg ∨ r = j.spilled cfg)) :
    Accounts cfg t := by
  have member := books.carried w (List.mem_of_getElem? here) j job
  have ticket : r.ticket = j.ticket := by
    rcases route with ⟨_, _, rfl⟩ | ⟨_, _, rfl | rfl⟩
    · exact j.record_ticket cfg
    · exact j.record_ticket cfg
    · exact j.spilled_ticket cfg
  exact {
    distinct := by
      rw [begun]
      exact books.distinct
    carried := by
      intro u inside k has
      rw [workers] at inside
      rw [begun]
      rcases mem_set_cases inside with rfl | ⟨n, _, old⟩
      · rw [rid] at has
        cases has
      · exact books.carried u (List.mem_of_getElem? old) k has
    own := by
      intro u inside
      rw [workers] at inside
      rcases mem_set_cases inside with rfl | ⟨n, _, old⟩
      · exact own
      · exact books.own u (List.mem_of_getElem? old)
    logged := by
      rw [begun]
      rcases route with ⟨log, _, rfl⟩ | ⟨log, _⟩
      · rw [log]
        intro r inside
        rcases List.mem_append.mp inside with old | new
        · exact books.logged r old
        · exact ⟨j, member, List.mem_singleton.mp new⟩
      · rw [log]
        exact books.logged
    sent := by
      rw [begun]
      rcases route with ⟨_, sent, _⟩ | ⟨_, sent, kind⟩
      · rw [sent]
        exact books.sent
      · rw [sent]
        intro r' inside
        rcases List.mem_append.mp inside with old | new
        · exact books.sent r' old
        · rw [List.mem_singleton.mp new]
          exact .inr ⟨j, member, kind⟩
    count := by
      intro k issued
      have before := books.count k issued
      have moved := census_set (Worker.carries k) here v
      rw [Worker.carries_some job, Worker.carries_none rid] at moved
      have one : (tickets [r]).count k = if j.ticket = k then 1 else 0 := by
        simp only [tickets, List.map_cons, List.map_nil, ticket, List.count_singleton, beq_iff_eq]
      rw [workers, begun]
      rcases route with ⟨log, sent, _⟩ | ⟨log, sent, _⟩
      · rw [log, sent, tickets, List.map_append, List.count_append]
        simp only [tickets] at one before ⊢
        omega
      · rw [log, sent, tickets, tickets, List.map_append, List.count_append]
        simp only [tickets] at one before ⊢
        omega }

theorem same (books : Accounts cfg s) (workers : t.workers = s.workers) (begun : t.begun = s.begun)
    (log : t.log = s.log) (sent : t.sent = s.sent) : Accounts cfg t where
  distinct := begun ▸ books.distinct
  carried := by
    rw [workers, begun]
    exact books.carried
  own := workers ▸ books.own
  logged := by
    rw [log, begun]
    exact books.logged
  sent := by
    rw [sent, begun]
    exact books.sent
  count := by
    rw [workers, begun, log, sent]
    exact books.count

/-- A wake token is no ticket's record. -/
theorem wake (books : Accounts cfg s) {w v : Worker} (here : s.workers[i]? = some w)
    (job : w.job = none) (rid : v.job = none) (own : v.Own cfg) {pipe : List Byte} :
    Accounts cfg { s with
      pipe := pipe, sent := s.sent ++ [.token], workers := s.workers.set i v } := by
  have kept : Accounts cfg { s with pipe := pipe, workers := s.workers.set i v } :=
    books.keep here (rid.trans job.symm) own rfl rfl rfl rfl
  exact {
    distinct := kept.distinct
    carried := kept.carried
    own := kept.own
    logged := kept.logged
    sent := by
      intro r inside
      rcases List.mem_append.mp inside with old | new
      · exact kept.sent r old
      · exact .inl (List.mem_singleton.mp new)
    count := by
      intro k issued
      have before := kept.count k issued
      have none : (tickets [Record.token]).count k = 0 := by
        simp only [tickets, List.map_cons, List.map_nil, List.count_singleton, beq_iff_eq]
        exact if_neg (Ne.symm issued)
      simp only [tickets, List.map_append, List.count_append] at none before ⊢
      omega }

end Accounts

theorem WorkerMove.accounts (move : WorkerMove cfg s i t) (books : Accounts cfg s) :
    Accounts cfg t := by
  cases move with
  | direct j here alone => exact books.keep (v := .write j) here rfl trivial rfl rfl rfl rfl
  | begin c j here ring =>
    exact books.keep (v := .publish j _) here rfl (.inl rfl) rfl rfl rfl rfl
  | stall => exact books
  | write w r after here writes room =>
    cases writes with
    | record j =>
      exact books.out (v := .idle) here rfl rfl trivial rfl rfl (.inr ⟨rfl, rfl, .inl rfl⟩)
    | token => exact books.wake (v := .idle) here rfl rfl trivial
    | spill j =>
      exact books.out (v := .note) here rfl rfl trivial rfl rfl (.inr ⟨rfl, rfl, .inr rfl⟩)
  | publish c j p weak m p' claim here ring moved =>
    have own := books.own _ (List.mem_of_getElem? here)
    cases Producer.step_advance moved with
    | wait before after =>
      rw [State.published_waits after]
      exact books.keep (v := .publish j p') here (by simp [Worker.job, before, after])
        (.inl (after.trans (before.symm.trans (own.waits before)))) rfl rfl (List.append_nil _) rfl
    | refuse before =>
      exact books.keep (v := .full j) here (by simp [Worker.job, before]) trivial rfl rfl
        (List.append_nil _) rfl
    | claim before after =>
      have record := Option.some.inj (before.symm.trans (own.waits before))
      rw [State.published_writes after]
      exact books.out (v := .publish j p') here (by simp [Worker.job, before])
        (by simp [Worker.job, Producer.waits_of_writes after])
        (.inr (after.trans (congrArg some record))) rfl rfl (.inl ⟨rfl, rfl, record⟩)
    | write before after =>
      have none := Producer.waits_of_writes before
      rw [State.published_writes after]
      exact books.keep (v := .publish j p') here
        (by simp [Worker.job, none, Producer.waits_of_writes after])
        (.inr (after.trans (before.symm.trans (own.writes before)))) rfl rfl (List.append_nil _) rfl
    | publish before =>
      exact books.keep (v := .load) here
        (by simp [Worker.job, Producer.waits_of_writes before]) trivial rfl rfl
        (List.append_nil _) rfl
  | load here => exact books.keep here (by split <;> rfl) (by split <;> trivial) rfl rfl rfl rfl
  | swap here => exact books.keep here (by split <;> rfl) (by split <;> trivial) rfl rfl rfl rfl
  | full j here => exact books.keep (v := .spill j) here rfl trivial rfl rfl rfl rfl
  | note here => exact books.keep (v := .idle) here rfl trivial rfl rfl rfl rfl

theorem Move.accounts (move : Move cfg s t) (books : Accounts cfg s) : Accounts cfg t := by
  cases move with
  | spawn =>
    exact {
      distinct := books.distinct
      carried := by
        intro w member j job
        rcases List.mem_append.mp member with old | new
        · exact books.carried w old j job
        · rw [List.mem_singleton.mp new] at job
          cases job
      own := by
        intro w member
        rcases List.mem_append.mp member with old | new
        · exact books.own w old
        · rw [List.mem_singleton.mp new]
          trivial
      logged := books.logged
      sent := books.sent
      count := by
        intro k issued
        rw [census_concat]
        exact books.count k issued }
  | complete i j here new =>
    exact {
      distinct := by
        rw [List.map_append, List.nodup_append]
        refine ⟨books.distinct, List.nodup_singleton _, ?_⟩
        intro k old k' fresh
        obtain ⟨job, member, rfl⟩ := List.mem_map.mp old
        rw [List.mem_singleton.mp fresh]
        exact new job member
      carried := by
        intro w member k job
        rcases mem_set_cases member with rfl | ⟨n, _, old⟩
        · cases job
          exact List.mem_append_right _ (List.mem_singleton_self _)
        · exact List.mem_append_left _ (books.carried w (List.mem_of_getElem? old) k job)
      own := by
        intro w member
        rcases mem_set_cases member with rfl | ⟨n, _, old⟩
        · trivial
        · exact books.own w (List.mem_of_getElem? old)
      logged := by
        intro r member
        obtain ⟨k, old, rfl⟩ := books.logged r member
        exact ⟨k, List.mem_append_left _ old, rfl⟩
      sent := by
        intro r member
        rcases books.sent r member with wake | ⟨k, old, kind⟩
        · exact .inl wake
        · exact .inr ⟨k, List.mem_append_left _ old, kind⟩
      count := by
        intro k issued
        have before := books.count k issued
        have moved := census_set (Worker.carries k) here (.start j)
        have one : ([j].map Job.ticket).count k = if j.ticket = k then 1 else 0 := by
          simp only [List.map_cons, List.map_nil, List.count_singleton, beq_iff_eq]
        rw [Worker.carries_none (w := .idle) rfl, Worker.carries_some (w := .start j) rfl] at moved
        simp only [List.map_append, List.count_append]
        omega }
  | worker i move => exact move.accounts books
  | reader move =>
    have frame := move.frame
    exact books.same frame.workers frame.begun frame.log frame.sent
  | take k r found => exact books.same rfl rfl rfl rfl
  | missing => exact books

/-- Tickets are distinct and below `2 ^ 63`, so fewer positions than that are ever claimed. -/
theorem Accounts.few (books : Accounts cfg s) : s.log.length < 2 ^ 63 := by
  have once : (tickets s.log).Nodup := by
    apply List.nodup_iff_count_le_one.mpr
    intro k
    by_cases issued : k = 0
    · have absent : k ∉ tickets s.log := by
        intro member
        obtain ⟨r, inside, zero⟩ := List.mem_map.mp member
        obtain ⟨j, _, rfl⟩ := books.logged r inside
        exact j.issued ((j.record_ticket cfg).symm.trans (zero.trans issued))
      rw [List.count_eq_zero.mpr absent]
      exact Nat.zero_le _
    · have total := books.count k issued
      have most := List.nodup_iff_count_le_one.mp books.distinct k
      omega
  have numbers : ((tickets s.log).map BitVec.toNat).Nodup :=
    once.map fun _ _ same => BitVec.eq_of_toNat_eq same
  have inside : ((tickets s.log).map BitVec.toNat).toFinset ⊆ Finset.Ico 1 (2 ^ 63) := by
    intro n member
    obtain ⟨w, listed, rfl⟩ := List.mem_map.mp (List.mem_toFinset.mp member)
    obtain ⟨r, logged, rfl⟩ := List.mem_map.mp listed
    obtain ⟨j, _, rfl⟩ := books.logged r logged
    rw [j.record_ticket cfg, Finset.mem_Ico]
    refine ⟨Nat.pos_of_ne_zero ?_, j.low⟩
    intro zero
    exact j.issued (BitVec.eq_of_toNat_eq zero)
  have size := Finset.card_le_card inside
  rw [List.toFinset_card_of_nodup numbers, Nat.card_Ico, tickets, List.length_map,
    List.length_map] at size
  omega

end Gusset.Completion
