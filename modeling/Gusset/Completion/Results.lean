import Gusset.Completion.Stream

/-! The results map: a ticket announced bare has its result there until it is taken, a ticket whose
record carries the result never does. -/
namespace Gusset.Completion
open Foundation Wire Gusset.Ring

/-- No result of this ticket is stored, and none was taken. -/
def Absent (s : State) (k : Word) : Prop := s.results.lookup k = none ∧ s.takes.count k = 0

/-- The result is stored, or was taken once. -/
def Kept (s : State) (j : Job) : Prop :=
  (s.results.lookup j.ticket = some j.result ∧ s.takes.count j.ticket = 0) ∨
    (s.results.lookup j.ticket = none ∧ s.takes.count j.ticket = 1)

/-- How a job announced this way stands in the results. -/
def Announced (s : State) (j : Job) (bare : Prop) : Prop :=
  (bare → Kept s j) ∧ (¬ bare → Absent s j.ticket)

-- Whether a worker has stored the result of the job it carries.
def Worker.stored (cfg : Config) : Worker → Prop
  | .write j | .publish j _ | .full j => (j.record cfg).data = none
  | .spill j => (j.spilled cfg).data = none
  | _ => False

structure Results (cfg : Config) (s : State) : Prop where
  carried : ∀ w ∈ s.workers, ∀ j, w.job = some j → Announced s j (w.stored cfg)
  visible : ∀ r, r ∈ s.log ∨ r ∈ s.sent → ∀ j ∈ s.begun, j.ticket = r.ticket →
    Announced s j (r.data = none)
  unknown : ∀ k, k ∉ s.begun.map Job.ticket → Absent s k

variable {cfg : Config} {s t : State} {i : Nat}

theorem opened_results (cfg : Config) : Results cfg (.opened cfg) where
  carried := by
    intro w member
    cases member
  visible := by
    rintro r (member | member)
    · cases member
    · cases member
  unknown := fun _ _ => ⟨rfl, rfl⟩

/-- Only the entry and the takes of its own ticket decide how a job stands. -/
theorem Announced.carry {j : Job} {bare : Prop} (known : Announced s j bare)
    (entry : t.results.lookup j.ticket = s.results.lookup j.ticket)
    (takes : t.takes.count j.ticket = s.takes.count j.ticket) : Announced t j bare := by
  unfold Announced Kept Absent at *
  rw [entry, takes]
  exact known

theorem Announced.take {j : Job} {bare : Prop} {k : Word} {r : JobResult}
    (known : Announced s j bare) (found : s.results.lookup k = some r) :
    Announced { s with results := s.results.erase k, takes := s.takes ++ [k] } j bare := by
  by_cases same : j.ticket = k
  · subst same
    constructor
    · intro yes
      right
      rcases known.1 yes with ⟨_, none⟩ | ⟨gone, _⟩
      · simp [none]
      · rw [found] at gone
        cases gone
    · intro no
      have none := (known.2 no).1
      rw [found] at none
      cases none
  · apply known.carry
    · simp [same]
    · simp [List.count_append, Ne.symm same]

/-- A job whose result is being stored. -/
theorem Announced.store {j : Job} {bare : Prop} (none : Absent s j.ticket) [Decidable bare]
    (results : t.results = s.insertResult j bare) (takes : t.takes = s.takes) :
    Announced t j bare := by
  constructor
  · intro yes
    left
    rw [results, takes, State.insertResult, if_pos yes]
    exact ⟨by simp, none.2⟩
  · intro no
    unfold Absent
    rw [results, takes, State.insertResult, if_neg no]
    exact none

namespace Accounts

variable {w : Worker} {j : Job}

theorem job_eq (books : Accounts cfg s) {k : Job} (hj : j ∈ s.begun) (hk : k ∈ s.begun)
    (same : j.ticket = k.ticket) : j = k :=
  List.inj_on_of_nodup_map books.distinct hj hk same

/-- What a worker carries is nowhere else. -/
theorem alone (books : Accounts cfg s) (here : s.workers[i]? = some w) (job : w.job = some j) :
    (∀ n v k, s.workers[n]? = some v → n ≠ i → v.job = some k → k.ticket ≠ j.ticket) ∧
      ∀ r, r ∈ s.log ∨ r ∈ s.sent → r.ticket ≠ j.ticket := by
  have total := books.count j.ticket j.issued
  have most := List.nodup_iff_count_le_one.mp books.distinct j.ticket
  have mine : w.carries j.ticket = 1 := by rw [Worker.carries_some job, if_pos rfl]
  have one := le_census (Worker.carries j.ticket) here
  constructor
  · intro n v k there differ other same
    have theirs : v.carries j.ticket = 1 := by rw [Worker.carries_some other, if_pos same]
    exact differ (index_unique (Worker.carries j.ticket) (by omega) there here (by omega) (by omega))
  · intro r member same
    rcases member with logged | sent
    · have counted := List.count_pos_iff.mpr (List.mem_map_of_mem (f := Record.ticket) logged)
      rw [same] at counted
      simp only [tickets] at total
      omega
    · have counted := List.count_pos_iff.mpr (List.mem_map_of_mem (f := Record.ticket) sent)
      rw [same] at counted
      simp only [tickets] at total
      omega

end Accounts

namespace Results

/-- A worker moves on with its job, storing nothing. -/
theorem keep (held : Results cfg s) {w v : Worker} (here : s.workers[i]? = some w)
    (job : v.job = w.job) (stored : v.job.isSome → (v.stored cfg ↔ w.stored cfg))
    (workers : t.workers = s.workers.set i v) (results : t.results = s.results)
    (takes : t.takes = s.takes) (begun : t.begun = s.begun) (log : t.log = s.log)
    (sent : t.sent = s.sent) : Results cfg t := by
  have same : ∀ {j bare}, Announced s j bare → Announced t j bare := fun known =>
    known.carry (by rw [results]) (by rw [takes])
  exact {
    carried := by
      intro u member j has
      rw [workers] at member
      rcases mem_set_cases member with rfl | ⟨n, _, old⟩
      · have known := held.carried w (List.mem_of_getElem? here) j (job ▸ has)
        have alike := stored (by rw [has]; rfl)
        rw [alike]
        exact same known
      · exact same (held.carried u (List.mem_of_getElem? old) j has)
    visible := by
      rw [log, sent, begun]
      intro r member j old ticket
      exact same (held.visible r member j old ticket)
    unknown := by
      rw [begun]
      intro k fresh
      unfold Absent
      rw [results, takes]
      exact held.unknown k fresh }

/-- A worker stores the result of the job it carries. -/
theorem store (held : Results cfg s) (books : Accounts cfg s) {w v : Worker} {j : Job}
    {b : Prop} [Decidable b] (here : s.workers[i]? = some w) (job : w.job = some j)
    (fresh : Absent s j.ticket) (still : v.job = some j) (stored : v.stored cfg ↔ b)
    (workers : t.workers = s.workers.set i v) (results : t.results = s.insertResult j b)
    (takes : t.takes = s.takes) (begun : t.begun = s.begun) (log : t.log = s.log)
    (sent : t.sent = s.sent) : Results cfg t := by
  obtain ⟨apart, away⟩ := books.alone here job
  have member := books.carried w (List.mem_of_getElem? here) j job
  have elsewhere : ∀ k, k ≠ j.ticket → t.results.lookup k = s.results.lookup k := by
    intro k differ
    rw [results, State.insertResult]
    split
    · simp [differ]
    · rfl
  exact {
    carried := by
      intro u inside k has
      rw [workers] at inside
      rcases mem_set_cases inside with rfl | ⟨n, differ, old⟩
      · cases still.symm.trans has
        rw [stored]
        exact Announced.store fresh results takes
      · exact (held.carried u (List.mem_of_getElem? old) k has).carry
          (elsewhere k.ticket (apart n u k old differ has)) (by rw [takes])
    visible := by
      rw [log, sent, begun]
      intro r inside k old ticket
      exact (held.visible r inside k old ticket).carry
        (elsewhere k.ticket (ticket ▸ away r inside)) (by rw [takes])
    unknown := by
      rw [begun]
      intro k outside
      have differ : k ≠ j.ticket := by
        rintro rfl
        exact outside (List.mem_map_of_mem member)
      unfold Absent
      rw [elsewhere k differ, takes]
      exact held.unknown k outside }

/-- A worker puts its record out. -/
theorem out (held : Results cfg s) (books : Accounts cfg s) {w v : Worker} {j : Job} {r : Record}
    (here : s.workers[i]? = some w) (job : w.job = some j) (rid : v.job = none)
    (ticket : r.ticket = j.ticket) (stored : w.stored cfg ↔ r.data = none)
    (workers : t.workers = s.workers.set i v) (results : t.results = s.results)
    (takes : t.takes = s.takes) (begun : t.begun = s.begun)
    (more : ∀ q, q ∈ t.log ∨ q ∈ t.sent → q = r ∨ q ∈ s.log ∨ q ∈ s.sent) : Results cfg t := by
  have same : ∀ {k bare}, Announced s k bare → Announced t k bare := fun known =>
    known.carry (by rw [results]) (by rw [takes])
  have member := books.carried w (List.mem_of_getElem? here) j job
  exact {
    carried := by
      intro u inside k has
      rw [workers] at inside
      rcases mem_set_cases inside with rfl | ⟨n, _, old⟩
      · rw [rid] at has
        cases has
      · exact same (held.carried u (List.mem_of_getElem? old) k has)
    visible := by
      rw [begun]
      intro q inside k old alike
      rcases more q inside with rfl | before
      · cases books.job_eq old member (alike.trans ticket)
        have known := held.carried w (List.mem_of_getElem? here) j job
        rw [stored] at known
        exact same known
      · exact same (held.visible q before k old alike)
    unknown := by
      rw [begun]
      intro k outside
      unfold Absent
      rw [results, takes]
      exact held.unknown k outside }

/-- A wake token says nothing about any ticket. -/
theorem wake (held : Results cfg s) {w v : Worker} (here : s.workers[i]? = some w)
    (job : w.job = none) (rid : v.job = none) {pipe : List Byte} :
    Results cfg { s with
      pipe := pipe, sent := s.sent ++ [.token], workers := s.workers.set i v } := by
  have kept : Results cfg { s with pipe := pipe, workers := s.workers.set i v } :=
    held.keep here (rid.trans job.symm) (by simp [rid]) rfl rfl rfl rfl rfl rfl
  exact {
    carried := kept.carried
    visible := by
      intro r inside k old ticket
      rcases inside with logged | sent
      · exact kept.visible r (.inl logged) k old ticket
      · rcases List.mem_append.mp sent with before | new
        · exact kept.visible r (.inr before) k old ticket
        · rw [List.mem_singleton.mp new] at ticket
          exact absurd ticket k.issued
    unknown := kept.unknown }

/-- A new job begins, of which nothing is known yet. -/
theorem begin (held : Results cfg s) (books : Accounts cfg s) {j : Job}
    (new : ∀ k ∈ s.begun, k.ticket ≠ j.ticket) :
    Results cfg { s with workers := s.workers.set i (.start j), begun := s.begun ++ [j] } where
  carried := by
    intro w member k job
    rcases mem_set_cases member with rfl | ⟨n, _, old⟩
    · cases job
      refine ⟨False.elim, fun _ => held.unknown j.ticket ?_⟩
      intro known
      obtain ⟨k, old, same⟩ := List.mem_map.mp known
      exact new k old same
    · exact held.carried w (List.mem_of_getElem? old) k job
  visible := by
    intro r inside k member ticket
    rcases List.mem_append.mp member with old | added
    · exact held.visible r inside k old ticket
    · cases List.mem_singleton.mp added
      rcases inside with logged | sent
      · obtain ⟨k, old, rfl⟩ := books.logged r logged
        exact absurd ((k.record_ticket cfg).symm.trans ticket.symm) (new k old)
      · rcases books.sent r sent with rfl | ⟨k, old, rfl | rfl⟩
        · exact absurd ticket j.issued
        · exact absurd ((k.record_ticket cfg).symm.trans ticket.symm) (new k old)
        · exact absurd ((k.spilled_ticket cfg).symm.trans ticket.symm) (new k old)
  unknown := by
    intro k fresh
    apply held.unknown k
    intro old
    apply fresh
    rw [List.map_append]
    exact List.mem_append_left _ old

end Results

theorem WorkerMove.results (move : WorkerMove cfg s i t) (books : Accounts cfg s)
    (held : Results cfg s) : Results cfg t := by
  have fresh : ∀ {w j}, s.workers[i]? = some w → w.job = some j → ¬ w.stored cfg →
      Absent s j.ticket := fun here job no =>
    (held.carried _ (List.mem_of_getElem? here) _ job).2 no
  cases move with
  | direct j here alone =>
    exact held.store books (v := .write j) (b := (j.record cfg).data = none) here rfl
      (fresh here rfl id) rfl Iff.rfl rfl rfl rfl rfl rfl rfl
  | begin c j here ring =>
    exact held.store books (v := .publish j (.load (j.record cfg)))
      (b := (j.record cfg).data = none) here rfl (fresh here rfl id) rfl Iff.rfl rfl rfl rfl rfl rfl rfl
  | stall => exact held
  | write w r after here writes room =>
    cases writes with
    | record j =>
      refine held.out books (v := .idle) here rfl rfl (j.record_ticket cfg) Iff.rfl rfl rfl rfl rfl ?_
      simp only [List.mem_append, List.mem_singleton]
      tauto
    | token => exact held.wake (v := .idle) here rfl rfl
    | spill j =>
      refine held.out books (v := .note) here rfl rfl (j.spilled_ticket cfg) Iff.rfl rfl rfl rfl rfl ?_
      simp only [List.mem_append, List.mem_singleton]
      tauto
  | publish c j p weak m q claim here ring moved =>
    have own := books.own _ (List.mem_of_getElem? here)
    cases Producer.step_advance moved with
    | wait before after =>
      rw [State.published_waits after]
      exact held.keep (v := .publish j q) here (by simp [Worker.job, before, after])
        (fun _ => Iff.rfl) rfl rfl rfl rfl (List.append_nil _) rfl
    | refuse before =>
      exact held.keep (v := .full j) here (by simp [Worker.job, before]) (fun _ => Iff.rfl) rfl rfl
        rfl rfl (List.append_nil _) rfl
    | claim before after =>
      have record := Option.some.inj (before.symm.trans (own.waits before))
      rw [State.published_writes after]
      subst record
      refine held.out books (v := .publish j q) here (by simp [Worker.job, before])
        (by simp [Worker.job, Producer.waits_of_writes after]) (j.record_ticket cfg) Iff.rfl rfl rfl
        rfl rfl ?_
      simp only [Option.toList_some, List.mem_append, List.mem_singleton]
      tauto
    | write before after =>
      have none := Producer.waits_of_writes after
      rw [State.published_writes after]
      exact held.keep (v := .publish j q) here
        (by simp [Worker.job, none, Producer.waits_of_writes before]) (fun _ => Iff.rfl) rfl rfl
        rfl rfl (List.append_nil _) rfl
    | publish before =>
      exact held.keep (v := .load) here
        (by simp [Worker.job, Producer.waits_of_writes before]) (fun job => by cases job) rfl rfl rfl
        rfl (List.append_nil _) rfl
  | load here =>
    cases s.waiting with
    | true => exact held.keep (v := .swap) here rfl (fun job => by cases job) rfl rfl rfl rfl rfl rfl
    | false => exact held.keep (v := .idle) here rfl (fun job => by cases job) rfl rfl rfl rfl rfl rfl
  | swap here =>
    cases s.waiting with
    | true => exact held.keep (v := .token) here rfl (fun job => by cases job) rfl rfl rfl rfl rfl rfl
    | false => exact held.keep (v := .idle) here rfl (fun job => by cases job) rfl rfl rfl rfl rfl rfl
  | full j here =>
    by_cases inline : j.demoted cfg
    · have stored : (j.spilled cfg).data = none := by
        rw [Job.spilled, if_pos inline]
        rfl
      exact held.store books (v := .spill j) here rfl (fresh here rfl inline.1) rfl
        (iff_of_true stored inline) rfl rfl rfl rfl rfl rfl
    · have same : j.spilled cfg = j.record cfg := if_neg inline
      refine held.keep (v := .spill j) here rfl (fun _ => ?_) rfl (if_neg inline) rfl rfl rfl rfl
      simp only [Worker.stored, same]
  | note here =>
      exact held.keep (v := .idle) here rfl (fun job => by cases job) rfl rfl rfl rfl rfl rfl

theorem Move.results (move : Move cfg s t) (books : Accounts cfg s) (held : Results cfg s) :
    Results cfg t := by
  cases move with
  | spawn =>
    refine ⟨?_, held.visible, held.unknown⟩
    intro w member j job
    rcases List.mem_append.mp member with old | new
    · exact held.carried w old j job
    · rw [List.mem_singleton.mp new] at job
      cases job
  | complete i j _ new => exact held.begin books new
  | worker i move => exact move.results books held
  | reader move =>
    obtain ⟨workers, _, results, begun, log, sent, takes⟩ := move.frame
    have same : ∀ {j bare}, Announced s j bare → Announced t j bare := fun known =>
      known.carry (by rw [results]) (by rw [takes])
    refine ⟨?_, ?_, ?_⟩
    · rw [workers]
      exact fun w member j job => same (held.carried w member j job)
    · rw [log, sent, begun]
      exact fun r inside j old ticket => same (held.visible r inside j old ticket)
    · rw [begun]
      intro k fresh
      unfold Absent
      rw [results, takes]
      exact held.unknown k fresh
  | take k r found =>
    refine ⟨?_, ?_, ?_⟩
    · exact fun w member j job => (held.carried w member j job).take found
    · exact fun q inside j old ticket => (held.visible q inside j old ticket).take found
    · intro k' fresh
      obtain ⟨none, untaken⟩ := held.unknown k' fresh
      have differ : k' ≠ k := by
        rintro rfl
        rw [found] at none
        cases none
      constructor
      · simp [differ, none]
      · simp [List.count_append, untaken, Ne.symm differ]
  | missing => exact held

theorem State.reaches_results (reach : State.Reaches cfg s) : Results cfg s := by
  apply reach.induction
  · rintro _ rfl
    exact opened_results cfg
  · rintro s t before held ⟨a, went⟩
    exact (step_moves went).results (reaches_accounts before) held

end Gusset.Completion
