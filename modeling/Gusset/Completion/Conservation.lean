import Gusset.Completion.Handshake
import Gusset.Completion.Results

/-! No completion is lost, repeated or changed on its way from a worker to the caller of `next`. -/
namespace Gusset.Completion
open Foundation Wire Gusset.Ring

-- The spill is in the pipe and not yet counted.
def Worker.notes : Worker → Nat
  | .note => 1
  | _ => 0

/-- The records among those written, without the wake tokens. -/
def completions (l : List Record) : List Record := l.filter (· ≠ .token)

/-- The overflow counter runs behind the pipe, and a handle with no ring has an empty log. -/
structure Spills (cfg : Config) (s : State) : Prop where
  behind : s.overflow.toNat + census Worker.notes s.workers ≤ (completions s.sent).length
  unused : cfg.ring = none → s.log = [] ∧ s.popped = []

variable {cfg : Config} {s t : State} {i : Nat}

theorem opened_spills (cfg : Config) : Spills cfg (.opened cfg) where
  behind := Nat.le_refl 0
  unused := fun _ => ⟨rfl, rfl⟩

theorem length_completions (l : List Record) (r : Record) :
    (completions (l ++ [r])).length = (completions l).length + if r = .token then 0 else 1 := by
  unfold completions
  rw [List.filter_append, List.length_append]
  by_cases wake : r = .token <;> simp [wake]

theorem Writes.notes {w v : Worker} {r : Record} (writes : Writes cfg w r v) :
    v.notes ≤ w.notes + if r = .token then 0 else 1 := by
  cases writes with
  | record j => exact Nat.zero_le _
  | token => exact Nat.le_refl 0
  | spill j =>
    rw [if_neg (j.spilled_ne_token cfg)]
    exact Nat.le_refl 1

theorem Spills.keep (spills : Spills cfg s) {w v : Worker} (here : s.workers[i]? = some w)
    (notes : v.notes ≤ w.notes) (workers : t.workers = s.workers.set i v)
    (overflow : t.overflow = s.overflow) (sent : t.sent = s.sent)
    (unused : cfg.ring = none → t.log = s.log ∧ t.popped = s.popped) : Spills cfg t where
  behind := by
    have before := spills.behind
    have moved := census_set Worker.notes here v
    rw [workers, overflow, sent]
    omega
  unused := by
    intro none
    rw [(unused none).1, (unused none).2]
    exact spills.unused none

theorem WorkerMove.spills (move : WorkerMove cfg s i t) (spills : Spills cfg s) :
    Spills cfg t := by
  have same : cfg.ring = none → s.log = s.log ∧ s.popped = s.popped := fun _ => ⟨rfl, rfl⟩
  cases move with
  | direct j here alone =>
    exact spills.keep (v := .write j) here (Nat.le_refl 0) rfl rfl rfl same
  | begin c j here ring =>
    exact spills.keep (v := .publish j _) here (Nat.le_refl 0) rfl rfl rfl same
  | stall => exact spills
  | write w r after here writes room =>
    have before := spills.behind
    have moved := census_set Worker.notes here after
    have noted := writes.notes
    refine ⟨?_, spills.unused⟩
    simp only [length_completions]
    omega
  | publish c j p weak m q claim here ring moved =>
    refine spills.keep here ?_ rfl rfl rfl ?_
    · cases q with
      | done b => cases b <;> exact Nat.le_refl 0
      | _ => exact Nat.le_refl 0
    · intro none
      rw [none] at ring
      cases ring
  | load here =>
    refine spills.keep here ?_ rfl rfl rfl same
    split <;> exact Nat.le_refl 0
  | swap here =>
    refine spills.keep here ?_ rfl rfl rfl same
    split <;> exact Nat.le_refl 0
  | full j here => exact spills.keep (v := .spill j) here (Nat.le_refl 0) rfl rfl rfl same
  | note here =>
    have before := spills.behind
    have moved := census_set Worker.notes here .idle
    have counted : (s.overflow + 1).toNat ≤ s.overflow.toNat + 1 := by
      rw [BitVec.toNat_add]
      exact Nat.mod_le _ _
    refine ⟨?_, spills.unused⟩
    simp only [Worker.notes] at moved ⊢
    omega

theorem Move.spills (move : Move cfg s t) (spills : Spills cfg s) : Spills cfg t := by
  cases move with
  | spawn =>
    refine ⟨?_, spills.unused⟩
    rw [census_concat]
    exact spills.behind
  | complete i j here new =>
    exact spills.keep (v := .start j) here (Nat.le_refl 0) rfl rfl rfl fun _ => ⟨rfl, rfl⟩
  | worker i move => exact move.spills spills
  | reader move =>
    have frame := move.frame
    refine ⟨?_, ?_⟩
    · rw [frame.workers, frame.overflow, frame.sent]
      exact spills.behind
    · intro none
      have unused := spills.unused none
      cases move with
      | pop c k k' m head p here ring moved =>
        rw [none] at ring
        cases ring
      | _ => exact unused
  | take k r found => exact ⟨spills.behind, spills.unused⟩
  | missing => exact spills

theorem State.reaches_spills (reach : State.Reaches cfg s) : Spills cfg s := by
  apply reach.invariant
  · rintro _ rfl
    exact opened_spills cfg
  · rintro s t spills ⟨a, went⟩
    exact (step_moves went).spills spills

/-- A record only ever carries its own job's bytes. -/
theorem Job.record_data (cfg : Config) (j : Job) {d : List Byte}
    (inline : (j.record cfg).data = some d) : j.result = .ok d := by
  unfold Job.record at inline
  split at inline
  · rename_i d' result
    split at inline
    · cases inline
      exact result
    · cases inline
  · cases inline

theorem Job.spilled_data (cfg : Config) (j : Job) {d : List Byte}
    (inline : (j.spilled cfg).data = some d) : j.result = .ok d := by
  unfold Job.spilled at inline
  split at inline
  · cases inline
  · exact j.record_data cfg inline

namespace State

/-- What the reader took off the ring is what was claimed first. -/
theorem reaches_popped (reach : Reaches cfg s) :
    s.popped = (s.log.take s.popped.length).map Popped.of := by
  cases ring : cfg.ring with
  | none =>
    obtain ⟨log, popped⟩ := (reaches_spills reach).unused ring
    rw [log, popped]
    rfl
  | some c => exact (Ring.State.reaches_sound (reaches_ring ring reach)).popped

/-- A position of the ring not yet popped is published, its record whole in its slot, or its own
worker is still writing it. -/
theorem reaches_position {c : Capacity} (attached : cfg.ring = some c) (reach : Reaches cfg s)
    {n : Nat} {r : Record} (low : s.popped.length ≤ n) (found : s.log[n]? = some r) :
    (s.mem.seq (n % c.slots) = .ofNat 64 (n + 1) ∧
      ∀ k w, (r.words cfg.endian)[k]? = some w → s.mem.words (n % c.slots) k = w) ∨
    ∃ j pos k, .publish j (.store r pos n k) ∈ s.workers := by
  have sound := Ring.State.reaches_sound (reaches_ring attached reach)
  have below := (List.getElem?_eq_some_iff.mp found).1
  rcases sound.claimed n low below with done | pending
  · exact .inl ⟨done.1, fun k w word => done.2.2 r found (k + 1) k w (Nat.lt_succ_self k) word⟩
  · right
    have one := pending.2
    obtain ⟨i, p, there, writes⟩ := exists_of_census_pos (Producer.storing n)
      (l := s.ring.producers) (by
        simp only [Ring.State.storing] at one
        omega)
    obtain ⟨r', pos, k, rfl⟩ := Producer.storing_pos writes
    obtain ⟨_, _, logged, _⟩ := sound.producers _ (List.mem_of_getElem? there)
    cases logged.symm.trans found
    simp only [State.ring, List.getElem?_map, Option.map_eq_some_iff] at there
    obtain ⟨w, place, seen⟩ := there
    cases w with
    | publish j p =>
      cases seen
      exact ⟨j, pos, k, List.mem_of_getElem? place⟩
    | _ => cases seen

theorem buffered_piped (s : State) : s.buffered ++ s.piped = s.unread :=
  List.take_append_drop _ _

theorem count_unread (s : State) (k : Word) :
    (tickets s.unread).count k = (tickets s.buffered).count k + (tickets s.piped).count k := by
  rw [← buffered_piped, tickets, List.map_append, List.count_append]
  rfl

/-- A ticket given to `complete` is in exactly one of its worker's hands, the ring, the pipe, the
reader's buffer and what `next` returned. -/
theorem reaches_places (reach : Reaches cfg s) {j : Job} (member : j ∈ s.begun) :
    census (Worker.carries j.ticket) s.workers +
      (tickets (s.log.drop s.popped.length)).count j.ticket + (tickets s.piped).count j.ticket +
      (tickets s.buffered).count j.ticket + (s.returned.map Popped.ticket).count j.ticket = 1 := by
  have books := reaches_accounts reach
  have popped := reaches_popped reach
  have total := books.count j.ticket j.issued
  have out := (reaches_stream reach).count j.ticket j.issued
  have one := List.count_eq_one_of_mem books.distinct (List.mem_map_of_mem member)
  have log : (tickets s.log).count j.ticket =
      (s.popped.map Popped.ticket).count j.ticket +
        (tickets (s.log.drop s.popped.length)).count j.ticket := by
    conv_lhs => rw [← List.take_append_drop s.popped.length s.log]
    rw [tickets, List.map_append, List.count_append]
    conv_rhs => rw [popped]
    simp only [tickets, List.map_map]
    rw [← popped]
    rfl
  have sent : (tickets s.sent).count j.ticket = (tickets (s.sent.take s.parsed)).count j.ticket +
      (tickets s.buffered).count j.ticket + (tickets s.piped).count j.ticket := by
    have rest := count_unread s j.ticket
    conv_lhs => rw [← List.take_append_drop s.parsed s.sent]
    rw [tickets, List.map_append, List.count_append, ← tickets, ← tickets, ← unread]
    omega
  omega

/-- A record in the ring or in the pipe is the record of a job that was begun. -/
theorem reaches_origin (reach : Reaches cfg s) {r : Record} (inside : r ∈ s.log ∨ r ∈ s.sent)
    (real : r ≠ .token) :
    ∃ j ∈ s.begun, j.ticket = r.ticket ∧ ∀ d, r.data = some d → j.result = .ok d := by
  have books := reaches_accounts reach
  rcases inside with logged | sent
  · obtain ⟨j, member, rfl⟩ := books.logged r logged
    exact ⟨j, member, (j.record_ticket cfg).symm, fun d => j.record_data cfg⟩
  · rcases books.sent r sent with wake | ⟨j, member, rfl | rfl⟩
    · exact absurd wake real
    · exact ⟨j, member, (j.record_ticket cfg).symm, fun d => j.record_data cfg⟩
    · exact ⟨j, member, (j.spilled_ticket cfg).symm, fun d => j.spilled_data cfg⟩

/-- What `next` returned is a job's, and no token. -/
theorem reaches_returned (reach : Reaches cfg s) {p : Popped} (member : p ∈ s.returned) :
    p.ticket ≠ 0 ∧ ∃ j ∈ s.begun, j.ticket = p.ticket ∧
      ∀ d, p.data = some d → j.result = .ok d := by
  have source : ∃ r, (r ∈ s.log ∨ r ∈ s.sent) ∧ r ≠ .token ∧ p = Popped.of r := by
    rcases (reaches_stream reach).returned p member with ring | ⟨r, before, real, rfl⟩
    · rw [reaches_popped reach] at ring
      obtain ⟨r, before, rfl⟩ := List.mem_map.mp ring
      have logged := List.mem_of_mem_take before
      refine ⟨r, .inl logged, ?_, rfl⟩
      obtain ⟨j, _, rfl⟩ := (reaches_accounts reach).logged r logged
      exact j.record_ne_token cfg
    · exact ⟨r, .inr (List.mem_of_mem_take before), real, rfl⟩
  obtain ⟨r, inside, real, rfl⟩ := source
  obtain ⟨j, begun, ticket, data⟩ := reaches_origin reach inside real
  exact ⟨fun zero => j.issued (ticket.trans zero), j, begun, ticket, data⟩

/-- Completions are conserved: every ticket given to `complete` is in exactly one of its worker's
hands, the ring, the pipe, the reader's buffer and what `next` returned; `next` returns no token and
nothing but a job's own bytes or its bare ticket; the results hold a bare ticket's result until it
is taken, once, and never that of an inline one; and the overflow counter runs behind the pipe. -/
theorem completions_conserved (reach : Reaches cfg s) :
    (∀ j ∈ s.begun, census (Worker.carries j.ticket) s.workers +
      (tickets (s.log.drop s.popped.length)).count j.ticket + (tickets s.piped).count j.ticket +
      (tickets s.buffered).count j.ticket + (s.returned.map Popped.ticket).count j.ticket = 1) ∧
    s.reader.held ++ s.pipe = stream cfg.endian (s.buffered ++ s.piped) ∧
    (∀ c n r, cfg.ring = some c → s.popped.length ≤ n → s.log[n]? = some r →
      (s.mem.seq (n % c.slots) = .ofNat 64 (n + 1) ∧
        ∀ k w, (r.words cfg.endian)[k]? = some w → s.mem.words (n % c.slots) k = w) ∨
      ∃ j pos k, .publish j (.store r pos n k) ∈ s.workers) ∧
    (∀ p ∈ s.returned, p.ticket ≠ 0 ∧ ∃ j ∈ s.begun, j.ticket = p.ticket ∧
      ∀ d, p.data = some d → j.result = .ok d) ∧
    (∀ r, r ∈ s.log ∨ r ∈ s.sent → r ≠ .token → ∃ j ∈ s.begun, j.ticket = r.ticket ∧
      (r.data = none →
        (s.results.lookup j.ticket = some j.result ∧ s.takes.count j.ticket = 0) ∨
          (s.results.lookup j.ticket = none ∧ s.takes.count j.ticket = 1)) ∧
      (r.data ≠ none → s.results.lookup j.ticket = none ∧ s.takes.count j.ticket = 0)) ∧
    s.overflow.toNat ≤ (completions s.sent).length := by
  have flow := reaches_stream reach
  refine ⟨fun j => reaches_places reach, by rw [buffered_piped, flow.bytes],
    fun c n r ring => reaches_position ring reach, fun p => reaches_returned reach, ?_, ?_⟩
  · intro r inside real
    obtain ⟨j, begun, ticket, _⟩ := reaches_origin reach inside real
    have known := (reaches_results reach).visible r inside j begun ticket
    exact ⟨j, begun, ticket, known.1, known.2⟩
  · have behind := (reaches_spills reach).behind
    omega

/-- One small success and one error through the ring, both returned, and the error taken. -/
def delivered : Option State :=
  follow (State.step .small) (opened .small)
    ([.spawn, .complete 0 ⟨1, .ok [7], true, by decide, by decide⟩] ++ Act.workers 0 9 ++
      [.complete 0 (.failing 2 Nat.two_pos Job.two_low)] ++ Act.workers 0 7 ++ Act.readers 9 ++
      [.take 2])

theorem delivered_runs : delivered.isSome = true := by decide

theorem completions_conserved_delivered :
    (delivered.get delivered_runs).returned = [⟨1, some [7]⟩, ⟨2, none⟩] ∧
      (delivered.get delivered_runs).takes = [2] ∧
      ∀ j ∈ (delivered.get delivered_runs).begun,
        ((delivered.get delivered_runs).returned.map Popped.ticket).count j.ticket ≤ 1 := by
  have reach : Reaches .small (delivered.get delivered_runs) :=
    follow_reaches (.start rfl) (Option.some_get delivered_runs).symm
  have once := (completions_conserved reach).1
  refine ⟨by decide, by decide, ?_⟩
  intro j begun
  have total := once j begun
  omega

end State

end Gusset.Completion
