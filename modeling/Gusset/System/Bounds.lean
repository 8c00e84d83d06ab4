import Gusset.System.Tickets

/-! The permits of the Go side bound what the Rust side holds: the job queue, the ring and the pipe
are each sized for more completions than there are permits. -/
namespace Gusset.System
open Foundation Wire Gusset.Ring
open Handle (has has_of_mem has_of_notMem)

namespace Config

variable (cfg : Config)

/-- `attach_ring` builds a ring with a slot for each permit. -/
theorem attach_ring (attached : cfg.attached = true) :
    ∃ c, cfg.ring = some c ∧ cfg.poolSize ≤ c.slots := by
  have most := cfg.most
  unfold maxPoolSize at most
  have few : nextPowerOfTwo (max cfg.poolSize 2) ≤ 2 ^ 10 :=
    Nat.pow_le_pow_right (by decide) (Nat.clog_le_of_le_pow (by omega))
  have enough := le_nextPowerOfTwo (max cfg.poolSize 2)
  simp only [ring, attached, if_true, Capacity.new]
  rw [dif_pos (by omega)]
  exact ⟨_, rfl, Nat.le_trans (Nat.le_max_left _ _) enough⟩

theorem ring_alone (alone : cfg.attached = false) : cfg.ring = none := by
  simp [ring, alone]

/-- What the code takes the kernel to do: the pipe holds the bytes `ensure_pipe_capacity` accepted,
and one that cannot be grown has 16 KiB where the code lets inline records into it. -/
structure PipeHolds : Prop where
  granted : grantedBytes cfg.poolSize cfg.canGrow cfg.grow ≤ cfg.pipeBytes
  fixed : cfg.canGrow = false → cfg.inlineOk = true → 16 * 1024 ≤ cfg.pipeBytes

/-- A pool of this size saturates nothing. -/
theorem saturatingMul_eq {n : Nat} (small : n ≤ 64) :
    saturatingMul cfg.poolSize n = cfg.poolSize * n := by
  have most := cfg.most
  have product : cfg.poolSize * n ≤ 1024 * 64 := Nat.mul_le_mul most small
  unfold saturatingMul
  omega

/-- The pipe has room for as many records as there are permits. -/
theorem PipeHolds.room (holds : cfg.PipeHolds) :
    cfg.poolSize * cfg.recordBytes ≤ cfg.pipeBytes := by
  have records : saturatingMul cfg.poolSize inlineRecordMax = cfg.poolSize * inlineRecordMax :=
    cfg.saturatingMul_eq (by decide)
  have tickets := cfg.saturatingMul_eq (n := 8) (by decide)
  have sized := cfg.sized
  have granted := holds.granted
  unfold grantedBytes at granted
  unfold sizeCompletionPipe at sized
  unfold recordBytes
  simp only [records, tickets] at granted sized
  cases fixed : cfg.canGrow with
  | false =>
    simp only [fixed, if_true] at sized
    simp only [fixed, Bool.false_eq_true, false_and, if_false] at granted
    obtain ⟨_, inline⟩ := Option.ite_none_right_eq_some.mp sized
    cases fits : cfg.inlineOk with
    | false => simpa using granted
    | true =>
      have plenty := holds.fixed fixed fits
      rw [fits, Option.some.injEq, decide_eq_true_eq] at inline
      simp only [if_true]
      omega
  | true =>
    simp only [fixed, Bool.true_eq_false, if_false] at sized
    simp only [fixed, true_and] at granted
    split at sized
    · rename_i grown
      cases fits : cfg.inlineOk with
      | false =>
        rw [fits] at sized
        cases sized
      | true =>
        rw [if_pos grown] at granted
        simpa using granted
    · rename_i refused
      rw [if_neg refused] at granted
      obtain ⟨_, inline⟩ := Option.ite_none_right_eq_some.mp sized
      rw [← Option.some.inj inline]
      simpa using granted

end Config

variable {cfg : Config} {s : State}

namespace State

/-- The tickets Rust accepted whose completion the reader has not consumed. -/
def outstanding (s : State) : Finset Nat := s.go.hist.accepted \ s.go.hist.consumed

theorem outstanding_le (reach : Reaches cfg s) (running : s.go.sh.drainExited = false) :
    s.outstanding.card ≤ cfg.poolSize :=
  (Handle.State.reaches_books (reaches_go reach)).permits.unconsumed_le
    (Handle.State.reaches_books (reaches_go reach)).reader running

/-- Distinct outstanding tickets are no more than the permits. -/
theorem length_le (reach : Reaches cfg s) (running : s.go.sh.drainExited = false) {l : List Nat}
    (distinct : l.Nodup) (inside : ∀ t ∈ l, t ∈ s.outstanding) : l.length ≤ cfg.poolSize := by
  have subset : l.toFinset ⊆ s.outstanding := by
    intro t member
    exact inside t (List.mem_toFinset.mp member)
  have most := Finset.card_le_card subset
  rw [List.toFinset_card_of_nodup distinct] at most
  exact Nat.le_trans most (outstanding_le reach running)

/-- What `next` returned was given to `complete`. -/
theorem returned_completing (reach : Reaches cfg s) {t : Nat} (member : t ∈ s.returned) :
    t ∈ s.completing := by
  obtain ⟨p, returned, rfl⟩ := List.mem_map.mp member
  obtain ⟨_, j, begun, ticket, _⟩ := Completion.State.reaches_returned (reaches_rust reach) returned
  exact List.mem_map.mpr ⟨j, begun, by rw [ticket]⟩

theorem mem_accepted (books : Tickets s) {t : Nat}
    (placed : 0 < s.queued.count t + s.completing.count t) : t ∈ s.go.hist.accepted := by
  by_contra absent
  have total := books.placed t
  rw [has_of_notMem absent] at total
  omega

/-- A queued ticket is outstanding, and queued once. -/
theorem queued_outstanding (reach : Reaches cfg s) :
    s.queued.Nodup ∧ ∀ t ∈ s.queued, t ∈ s.outstanding := by
  have books := reaches_tickets reach
  have most : ∀ t, has s.go.hist.accepted t ≤ 1 := by
    intro t
    unfold has
    split <;> omega
  constructor
  · apply List.nodup_iff_count_le_one.mpr
    intro t
    have total := books.placed t
    have one := most t
    omega
  · intro t member
    have here := List.count_pos_iff.mpr member
    apply Finset.mem_sdiff.mpr
    refine ⟨mem_accepted books (by omega), ?_⟩
    intro consumed
    have done := List.count_pos_iff.mpr
      (returned_completing reach ((books.consumed t).mp consumed))
    have total := books.placed t
    have one := most t
    omega

/-- A ticket given to `complete` and not returned is outstanding. -/
theorem completing_outstanding (reach : Reaches cfg s) {j : Completion.Job}
    (begun : j ∈ s.rust.begun)
    (unread : (s.rust.returned.map Popped.ticket).count j.ticket = 0) :
    j.ticket.toNat ∈ s.outstanding := by
  have books := reaches_tickets reach
  have here : 0 < s.completing.count j.ticket.toNat :=
    List.count_pos_iff.mpr (List.mem_map.mpr ⟨j, begun, rfl⟩)
  apply Finset.mem_sdiff.mpr
  refine ⟨mem_accepted books (by omega), ?_⟩
  intro consumed
  obtain ⟨p, returned, same⟩ := List.mem_map.mp ((books.consumed _).mp consumed)
  have equal : p.ticket = j.ticket := BitVec.eq_of_toNat_eq same
  have some_one : 0 < (s.rust.returned.map Popped.ticket).count j.ticket :=
    List.count_pos_iff.mpr (List.mem_map.mpr ⟨p, returned, equal⟩)
  omega

/-- What the workers carry and the ring and the pipe hold are no more tickets than permits. -/
theorem unreturned_le (reach : Reaches cfg s) (running : s.go.sh.drainExited = false)
    {l : List Word} (begun : ∀ k ∈ l, ∃ j ∈ s.rust.begun, j.ticket = k)
    (held : ∀ k, l.count k ≤ census (Completion.Worker.carries k) s.rust.workers +
      (Completion.tickets (s.rust.log.drop s.rust.popped.length)).count k +
      (Completion.tickets s.rust.unread).count k) : l.length ≤ cfg.poolSize := by
  have once : ∀ k ∈ l, l.count k + (s.rust.returned.map Popped.ticket).count k ≤ 1 := by
    intro k member
    obtain ⟨j, inside, rfl⟩ := begun k member
    have total := Completion.State.reaches_places (reaches_rust reach) inside
    have most := held j.ticket
    rw [Completion.State.count_unread] at most
    omega
  have distinct : l.Nodup := by
    apply List.nodup_iff_count_le_one.mpr
    intro k
    by_cases member : k ∈ l
    · have most := once k member
      omega
    · rw [List.count_eq_zero.mpr member]
      exact Nat.zero_le 1
  rw [← List.length_map BitVec.toNat]
  apply length_le reach running (distinct.map fun _ _ same => BitVec.eq_of_toNat_eq same)
  intro t member
  obtain ⟨k, listed, rfl⟩ := List.mem_map.mp member
  obtain ⟨j, inside, rfl⟩ := begun k listed
  have most := once j.ticket listed
  have here := List.count_pos_iff.mpr listed
  exact completing_outstanding reach inside (by omega)

/-- A worker that still has a record to pass on leaves room for it. -/
theorem carrying_le (reach : Reaches cfg s) (running : s.go.sh.drainExited = false) {i : Nat}
    {w : Completion.Worker} {j : Completion.Job} (here : s.rust.workers[i]? = some w)
    (job : w.job = some j) {l : List Word} (begun : ∀ k ∈ l, ∃ j ∈ s.rust.begun, j.ticket = k)
    (held : ∀ k, l.count k ≤
      (Completion.tickets (s.rust.log.drop s.rust.popped.length)).count k +
      (Completion.tickets s.rust.unread).count k) : l.length + 1 ≤ cfg.poolSize := by
  have books := Completion.State.reaches_accounts (reaches_rust reach)
  rw [← List.length_cons (a := j.ticket)]
  apply unreturned_le reach running
  · intro k member
    rcases List.mem_cons.mp member with rfl | inside
    · exact ⟨j, books.carried w (List.mem_of_getElem? here) j job, rfl⟩
    · exact begun k inside
  · intro k
    have carried := le_census (Completion.Worker.carries k) here
    rw [Completion.Worker.carries_some job] at carried
    have most := held k
    rw [List.count_cons]
    simp only [beq_iff_eq]
    omega

theorem ring_begun (reach : Reaches cfg s) :
    ∀ k ∈ Completion.tickets (s.rust.log.drop s.rust.popped.length),
      ∃ j ∈ s.rust.begun, j.ticket = k := by
  intro k member
  obtain ⟨r, inside, rfl⟩ := List.mem_map.mp member
  have books := Completion.State.reaches_accounts (reaches_rust reach)
  obtain ⟨j, begun, rfl⟩ := books.logged r (List.mem_of_mem_drop inside)
  exact ⟨j, begun, (j.record_ticket cfg.completion).symm⟩

/-- A `try_publish` that looks at a tail of the last `2 ^ 63` claims finds room. -/
theorem publish_lands (reach : Reaches cfg s) (running : s.go.sh.drainExited = false)
    {c : Capacity} (ring : cfg.ring = some c) (enough : cfg.poolSize ≤ c.slots) {i : Nat}
    {weak : Bool} {j : Completion.Job} {r : Record} {pos : Word} {seen : Nat}
    {t : Completion.State} (here : s.rust.workers[i]? = some (.publish j (.look r pos seen)))
    (recent : s.rust.log.length + c.slots ≤ seen + 2 ^ 63)
    (went : s.rust.step cfg.completion (.worker i weak) = some t) :
    t.workers[i]? ≠ some (.full j) := by
  intro refused
  have room := carrying_le reach running here (j := j) rfl (ring_begun reach)
    fun k => Nat.le_add_right _ _
  have sound := Ring.State.reaches_sound (Completion.State.reaches_ring ring (reaches_rust reach))
  have place : s.rust.ring.producers[i]? = some (.look r pos seen) := by
    simp only [Completion.State.ring, List.getElem?_map, here]
    rfl
  obtain ⟨rfl, known⟩ := sound.producers _ (List.mem_of_getElem? place)
  simp only [Completion.State.step, Completion.State.workerStep, here, Config.completion, ring,
    Option.bind_some, Producer.step, c.index_ofNat] at went
  have bound := (List.getElem?_eq_some_iff.mp here).1
  split at went
  · cases went
    simp only [List.getElem?_set_self bound, Completion.State.published] at refused
    cases refused
  · split at went
    · rename_i behind
      have full := sound.look_full known recent behind
      rw [Completion.tickets, List.length_map, List.length_drop] at room
      simp only [Completion.State.ring] at full
      omega
    · cases went
      simp only [List.getElem?_set_self bound, Completion.State.published] at refused
      cases refused

theorem bare_size (j : Completion.Job) : j.bare.size ≤ cfg.recordBytes := by
  unfold Config.recordBytes
  split
  · exact (Record.size_pos _).2
  · exact Nat.le_refl 8

/-- With no ring, a record takes no more of the pipe than it was sized for. -/
theorem record_size (alone : cfg.ring = none) (j : Completion.Job) :
    (j.record cfg.completion).size ≤ cfg.recordBytes := by
  unfold Completion.Job.record
  split
  · split
    · rename_i fits
      have inline : cfg.inlineOk = true := by simpa [Config.completion, alone] using fits.2.1
      rw [Config.recordBytes, inline]
      exact (Record.size_pos _).2
    · exact bare_size j
  · exact bare_size j

theorem unread_size (reach : Reaches cfg s) (alone : cfg.ring = none) :
    ∀ r ∈ s.rust.unread, r ≠ .token ∧ r.size ≤ cfg.recordBytes := by
  intro r member
  have rust := reaches_rust reach
  have sent : r ∈ s.rust.sent := List.mem_of_mem_drop member
  have real : r ≠ .token := by
    rintro rfl
    exact ((Completion.State.reaches_stream rust).alone alone).2 sent
  refine ⟨real, ?_⟩
  rcases (Completion.State.reaches_accounts rust).sent r sent with wake | ⟨j, _, rfl | rfl⟩
  · exact absurd wake real
  · exact record_size alone j
  · unfold Completion.Job.spilled
    split
    · exact bare_size j
    · exact record_size alone j

theorem pipe_begun (reach : Reaches cfg s) (alone : cfg.ring = none) :
    ∀ k ∈ Completion.tickets s.rust.unread, ∃ j ∈ s.rust.begun, j.ticket = k := by
  intro k member
  obtain ⟨r, inside, rfl⟩ := List.mem_map.mp member
  have real := (unread_size reach alone r inside).1
  obtain ⟨j, begun, ticket, _⟩ :=
    Completion.State.reaches_origin (reaches_rust reach) (.inr (List.mem_of_mem_drop inside)) real
  exact ⟨j, begun, ticket⟩

/-- The pipe holds no more than its unread records. -/
theorem pipe_le (reach : Reaches cfg s) (alone : cfg.ring = none) :
    s.rust.pipe.length ≤ s.rust.unread.length * cfg.recordBytes := by
  have bytes := congrArg List.length (Completion.State.reaches_stream (reaches_rust reach)).bytes
  have most := length_stream_le cfg.endian fun r inside => (unread_size reach alone r inside).2
  rw [List.length_append] at bytes
  exact Nat.le_trans (by omega) (bytes.symm ▸ most)

/-- A write to a pipe with no ring finds room. -/
theorem write_lands (reach : Reaches cfg s) (running : s.go.sh.drainExited = false)
    (alone : cfg.ring = none) (holds : cfg.PipeHolds) {i : Nat} {j : Completion.Job}
    (here : s.rust.workers[i]? = some (.write j)) :
    s.rust.pipe.length + (j.record cfg.completion).size ≤ cfg.pipeBytes := by
  have room := carrying_le reach running here (j := j) rfl (pipe_begun reach alone)
    fun k => Nat.le_add_left _ _
  rw [Completion.tickets, List.length_map] at room
  calc s.rust.pipe.length + (j.record cfg.completion).size
      ≤ s.rust.unread.length * cfg.recordBytes + cfg.recordBytes :=
        Nat.add_le_add (pipe_le reach alone) (record_size alone j)
    _ = (s.rust.unread.length + 1) * cfg.recordBytes := (Nat.succ_mul _ _).symm
    _ ≤ cfg.poolSize * cfg.recordBytes := Nat.mul_le_mul_right _ room
    _ ≤ cfg.pipeBytes := holds.room

/-- The permits make the bounds of the Rust side unreachable while the reader runs: no more tickets
than permits are accepted and not consumed; the job queue is never full; a `try_publish` whose tail
is of the last `2 ^ 63` claims is not refused; and with no ring the pipe holds no more than the
records it was sized for, and each write finds room. -/
theorem bounds_unreachable (reach : Reaches cfg s) (running : s.go.sh.drainExited = false) :
    (s.go.hist.accepted \ s.go.hist.consumed).card ≤ cfg.poolSize ∧
    (∀ u, s.queue.push u ≠ .error .full) ∧
    (cfg.attached = true → ∃ c, Capacity.new cfg.poolSize = some c ∧ cfg.ring = some c ∧
      ∀ (i : Nat) weak (j : Completion.Job) r pos seen t,
        s.rust.workers[i]? = some (.publish j (.look r pos seen)) →
        s.rust.log.length + c.slots ≤ seen + 2 ^ 63 →
        s.rust.step cfg.completion (.worker i weak) = some t → t.workers[i]? ≠ some (.full j)) ∧
    (cfg.attached = false → s.rust.pipe.length ≤ cfg.poolSize * cfg.recordBytes) ∧
    (cfg.attached = false → cfg.PipeHolds → ∀ (i : Nat) (j : Completion.Job),
      s.rust.workers[i]? = some (.write j) →
      s.rust.pipe.length + (j.record cfg.completion).size ≤ cfg.pipeBytes) := by
  refine ⟨outstanding_le reach running, ?_, ?_, ?_, ?_⟩
  · intro u full
    have least := cfg.least
    have cap := reaches_cap reach
    obtain ⟨distinct, inside⟩ := queued_outstanding reach
    have few := length_le reach running distinct inside
    rw [queued, List.length_map] at few
    unfold JobQueue.push at full
    split at full
    · cases full
    · split at full
      · omega
      · cases full
  · intro attached
    obtain ⟨c, ring, enough⟩ := cfg.attach_ring attached
    have built : Capacity.new cfg.poolSize = some c := by
      simpa only [Config.ring, attached, if_true] using ring
    refine ⟨c, built, ring, ?_⟩
    intro i weak j r pos seen t here recent went
    exact publish_lands reach running ring enough here recent went
  · intro alone
    have none := cfg.ring_alone alone
    have few := unreturned_le reach running (pipe_begun reach none) fun k => Nat.le_add_left _ _
    rw [Completion.tickets, List.length_map] at few
    exact Nat.le_trans (pipe_le reach none) (Nat.mul_le_mul_right _ few)
  · intro alone holds i j here
    exact write_lands reach running (cfg.ring_alone alone) holds here

/-- A caller with an id has its answer: the Go side never stands in the way of `try_send`. -/
theorem send_answers (reach : Reaches cfg s) {i : Nat} {id : Id} (held : s.reserved i = some id)
    (wantsInline poisoned : Bool) : (s.step cfg (.send i wantsInline poisoned)).isSome = true := by
  obtain ⟨_, fresh, here⟩ := (reaches_tickets reach).pending i id held
  obtain ⟨⟨ctx, pc⟩, place, rfl⟩ := Option.map_eq_some_iff.mp here
  simp only [step, held, Option.bind_some, send]
  split
  · simp [Handle.State.step, place, Handle.State.threadStep, Handle.State.submitStep, fresh]
  · simp [Handle.State.step, place, Handle.State.threadStep, Handle.State.submitStep]

/-- What `next` returns was accepted and not consumed before, so `drainPipe` has it. -/
theorem read_answers (reach : Reaches cfg s) (waits : s.go.reader = .next) {n : Nat} {spent : Bool}
    (reads : (s.rust.step cfg.completion (.reader n spent)).isSome = true) :
    (s.step cfg (.read n spent)).isSome = true := by
  obtain ⟨rust, went⟩ := Option.isSome_iff_exists.mp reads
  obtain ⟨begun, same | ⟨p, more⟩⟩ := Completion.read_returns went
  · simp [step, read, waits, went, same]
  · have after := (reaches_rust reach).next ⟨_, went⟩
    have listed : p ∈ rust.returned := by simp [more]
    obtain ⟨_, j, member, ticket, _⟩ := Completion.State.reaches_returned after listed
    have total := Completion.State.reaches_places after member
    rw [more, List.map_append, List.count_append, List.map_cons, List.map_nil, ← ticket,
      List.count_singleton_self] at total
    have out := completing_outstanding reach (begun ▸ member) (by omega)
    rw [ticket] at out
    obtain ⟨accepted, unconsumed⟩ := Finset.mem_sdiff.mp out
    simp [step, read, waits, went, more, Handle.State.step, Handle.State.readerStep, accepted,
      unconsumed]

theorem follow_reaches {t : State} {acts : List Act} (reach : Reaches cfg s)
    (run : follow (step cfg) s acts = some t) : Reaches cfg t :=
  reach.follow (fun _ a _ went => ⟨a, went⟩) run

end State

-- Caller `i` submits, and worker `i` runs the unit up to its write.
def Act.upToWrite (i : Nat) (data : List Byte) : List Act :=
  .go (.call (.submit (.bytes 0))) :: List.replicate 13 (Act.go (.thread i .go)) ++
    ([.reserve i, .send i true false, .spawn, .pop i, .complete i (.ok data), .worker i false] :
      List Act)

/-- A pipe that could be grown to 64 KiB. -/
def Config.grown : Config where
  poolSize := 2
  least := by decide
  most := by decide
  maxUncollected := 0
  endian := .little
  canGrow := true
  grow := fun n => n ≤ 65536
  inlineOk := true
  sized := by decide
  pipeBytes := 65536
  attached := false

namespace State

def writing : Option State := follow (step .grown) (opened .grown) (Act.upToWrite 0 [7])

theorem writing_runs : writing.isSome = true := by decide

theorem bounds_unreachable_writing :
    (writing.get writing_runs).rust.workers =
        [.write ⟨1, .ok [7], true, by decide, by decide⟩] ∧
      (writing.get writing_runs).rust.pipe.length + 24 ≤ 65536 := by
  have reach : Reaches .grown (writing.get writing_runs) :=
    follow_reaches (.start rfl) (Option.some_get _).symm
  have lands := (bounds_unreachable reach (by decide)).2.2.2.2 rfl
    ⟨by decide, fun fixed => Bool.noConfusion fixed⟩
  refine ⟨by decide, ?_⟩
  exact lands 0 ⟨1, .ok [7], true, by decide, by decide⟩ (by decide)

end State

/-- A pipe that cannot be grown, of the 512 bytes Darwin can hand out under memory pressure. -/
def Config.short : Config where
  poolSize := 9
  least := by decide
  most := by decide
  maxUncollected := 0
  endian := .little
  canGrow := false
  grow := fun _ => true
  inlineOk := true
  sized := by decide
  pipeBytes := 512
  attached := false

namespace State

/-- Eight results of 48 bytes are in the pipe, and the ninth is about to be written. -/
def filled : Option State :=
  follow (step .short) (opened .short)
    ((List.range 8).flatMap (fun i => Act.upToWrite i (List.replicate 48 0) ++ [.worker i false]) ++
      Act.upToWrite 8 (List.replicate 48 0))

theorem filled_runs : filled.isSome = true := by decide +kernel

/-- Bytes `ensure_pipe_capacity` accepted are not enough where the pipe cannot be grown: nine
permits, and the ninth write finds the pipe full. -/
theorem short_pipe_fills :
    ¬ ∀ (cfg : Config) (s : State), Reaches cfg s → s.go.sh.drainExited = false →
      cfg.attached = false → grantedBytes cfg.poolSize cfg.canGrow cfg.grow ≤ cfg.pipeBytes →
      ∀ (i : Nat) (j : Completion.Job), s.rust.workers[i]? = some (.write j) →
        s.rust.pipe.length + (j.record cfg.completion).size ≤ cfg.pipeBytes := by
  intro lands
  have reach : Reaches .short (filled.get filled_runs) :=
    follow_reaches (.start rfl) (Option.some_get _).symm
  have room := lands _ _ reach (by decide +kernel) rfl (by decide) 8
    ⟨9, .ok (List.replicate 48 0), true, by decide, by decide⟩ (by decide +kernel)
  revert room
  decide +kernel

end State

end Gusset.System
