import Gusset.System.Moves

/-! Where every ticket is: with a submit that has not queued it, in the queue, at a worker, given to
`complete`, or consumed by the reader. -/
namespace Gusset.Handle.State

variable {cfg : Config} {s s' : State}

/-- Rust answers a Submit with a ticket. -/
theorem ticket_step {i : Nat} {t : Ticket} (went : s.step cfg (.thread i (.ticket t)) = some s') :
    t ∉ s.hist.accepted ∧ s'.hist = s.hist.accept t ∧ ∀ k, k ≠ i → s'.pcOf k = s.pcOf k := by
  obtain ⟨th, place, taken⟩ := Option.bind_eq_some_iff.mp went
  obtain ⟨⟨mid, pc'⟩, moved, rfl⟩ := Option.map_eq_some_iff.mp taken
  have submits : submitStep cfg s th.ctx th.pc (.ticket t) = some (mid, pc') := by
    simp only [threadStep, Option.or_eq_some_iff] at moved
    rcases moved with submit | ⟨_, wait | ⟨_, cgo | ⟨_, close⟩⟩⟩
    · exact submit
    · unfold waitStep at wait
      split at wait <;> grind -ring -linarith
    · unfold cgoStep at cgo
      split at cgo <;> grind -ring -linarith
    · unfold closeCallStep at close
      split at close <;> grind -ring -linarith
  unfold submitStep at submits
  split at submits <;> try grind -ring -linarith
  rename_i same
  cases same
  split at submits <;> cases submits
  rename_i fresh
  refine ⟨fresh, rfl, ?_⟩
  intro k other
  simp only [pcOf]
  rw [List.getElem?_set_ne (Ne.symm other)]

/-- `next` hands the reader a completion. -/
theorem consume_step {t : Ticket} {inline : Option Bytes}
    (went : s.step cfg (.reader (.consume t inline)) = some s') :
    t ∉ s.hist.consumed ∧ s'.hist = s.hist.consume t ∧ s'.threads = s.threads := by
  obtain ⟨⟨mid, pc'⟩, moved, rfl⟩ := Option.map_eq_some_iff.mp went
  unfold readerStep at moved
  split at moved <;> grind -ring -linarith

end Gusset.Handle.State

namespace Gusset.System
open Foundation Wire Gusset.Ring
open Handle (has has_of_mem has_of_notMem has_insert)

def runs (t : Nat) : Option WorkUnit → Nat
  | some u => if u.ticket.val = t then 1 else 0
  | none => 0

namespace State

-- The tickets in the queue, lost, and given to `complete`.
def queued (s : State) : List Nat := s.queue.items.map fun u => u.ticket.val

def dropped (s : State) : List Nat := s.lost.map Subtype.val

def completing (s : State) : List Nat := s.rust.begun.map fun j => j.ticket.toNat

def returned (s : State) : List Nat := s.rust.returned.map fun p => p.ticket.toNat

end State

/-- Every accepted ticket is in one place, and what the reader consumed is what `next` returned. -/
structure Tickets (s : State) : Prop where
  placed : ∀ t, s.queued.count t + census (runs t) s.jobs + s.dropped.count t +
    s.completing.count t = has s.go.hist.accepted t
  consumed : ∀ t, t ∈ s.go.hist.consumed ↔ t ∈ s.returned
  issued : ∀ t ∈ s.go.hist.accepted, t < s.nextTicket
  pending : ∀ i t, s.reserved i = some t → t.val < s.nextTicket ∧ t.val ∉ s.go.hist.accepted ∧
    s.go.pcOf i = some .ffiSubmit
  apart : ∀ i k t, s.reserved i = some t → s.reserved k = some t → i = k
  counter : 0 < s.nextTicket ∧ s.nextTicket ≤ idCeiling

theorem opened_tickets (cfg : Config) : Tickets (.opened cfg) where
  placed := fun _ => rfl
  consumed := by
    intro t
    simp [State.opened, State.returned, Handle.State.opened, Handle.History.empty,
      Completion.State.opened]
  issued := by
    intro t member
    cases member
  pending := by
    intro i t held
    cases held
  apart := by
    intro i k t held
    cases held
  counter := ⟨Nat.one_pos, Nat.one_le_two_pow⟩

variable {cfg : Config} {s t : State}

namespace Tickets

/-- A move that leaves the tickets where they are, and the callers that hold an id. -/
theorem keep (books : Tickets s) (queue : t.queue.items = s.queue.items) (jobs : t.jobs = s.jobs)
    (lost : t.lost = s.lost) (begun : t.rust.begun = s.rust.begun)
    (returned : t.rust.returned = s.rust.returned)
    (accepted : t.go.hist.accepted = s.go.hist.accepted)
    (consumed : t.go.hist.consumed = s.go.hist.consumed) (next : t.nextTicket = s.nextTicket)
    (held : ∀ i id, t.reserved i = some id →
      s.reserved i = some id ∧ t.go.pcOf i = some .ffiSubmit) : Tickets t where
  placed := by
    intro k
    simp only [State.queued, State.dropped, State.completing, queue, jobs, lost, begun, accepted]
    exact books.placed k
  consumed := by
    intro k
    simp only [State.returned, returned, consumed]
    exact books.consumed k
  issued := by
    rw [accepted, next]
    exact books.issued
  pending := by
    intro i id has_id
    obtain ⟨before, here⟩ := held i id has_id
    obtain ⟨low, fresh, _⟩ := books.pending i id before
    rw [accepted, next]
    exact ⟨low, fresh, here⟩
  apart := by
    intro i k id first second
    exact books.apart i k id (held i id first).1 (held k id second).1
  counter := by
    rw [next]
    exact books.counter

/-- The counter moves on. -/
theorem next (books : Tickets s) (low : s.nextTicket < idCeiling) :
    Tickets { s with nextTicket := s.nextTicket + 1 } where
  placed := books.placed
  consumed := books.consumed
  issued := fun k member => Nat.lt_succ_of_lt (books.issued k member)
  pending := by
    intro i id held
    obtain ⟨below, fresh, here⟩ := books.pending i id held
    exact ⟨Nat.lt_succ_of_lt below, fresh, here⟩
  apart := books.apart
  counter := ⟨Nat.succ_pos _, low⟩

theorem update_cases {f : Nat → Option Id} {v : Option Id} {i k : Nat} {x : Id}
    (held : Function.update f i v k = some x) : k = i ∧ v = some x ∨ k ≠ i ∧ f k = some x := by
  by_cases same : k = i
  · subst same
    rw [Function.update_self] at held
    exact .inl ⟨rfl, held⟩
  · rw [Function.update_of_ne same] at held
    exact .inr ⟨same, held⟩

/-- A caller of `submit` takes the id. -/
theorem reserve (books : Tickets s) {i : Nat} {id : Id} (value : id.val = s.nextTicket)
    (here : s.go.pcOf i = some .ffiSubmit) :
    Tickets { s with
      nextTicket := s.nextTicket + 1, reserved := Function.update s.reserved i (some id) } := by
  have after := books.next (value ▸ id.property.2)
  have fresh : id.val ∉ s.go.hist.accepted := by
    intro member
    exact absurd value (Nat.ne_of_lt (books.issued _ member))
  have unused : ∀ k, s.reserved k ≠ some id := by
    intro k held
    exact absurd value (Nat.ne_of_lt (books.pending k id held).1)
  refine ⟨after.placed, after.consumed, after.issued, ?_, ?_, after.counter⟩
  · intro k other held
    rcases update_cases held with ⟨rfl, same⟩ | ⟨_, old⟩
    · cases same
      exact ⟨value ▸ Nat.lt_succ_self _, fresh, here⟩
    · exact after.pending k other old
  · intro k l other first second
    rcases update_cases first with ⟨rfl, same⟩ | ⟨_, old⟩
    · cases same
      rcases update_cases second with ⟨rfl, _⟩ | ⟨_, old⟩
      · rfl
      · exact absurd old (unused l)
    · rcases update_cases second with ⟨rfl, same⟩ | ⟨_, other_old⟩
      · cases same
        exact absurd old (unused k)
      · exact books.apart k l other old other_old

/-- Once a caller of `submit` has its answer, the others still hold their ids. -/
theorem answered {i k : Nat} {id : Id}
    (held : Function.update s.reserved i none k = some id) : k ≠ i ∧ s.reserved k = some id := by
  rcases update_cases held with ⟨_, none⟩ | kept
  · cases none
  · exact kept

/-- `try_send` queues the unit. -/
theorem accept (books : Tickets s) {i : Nat} {u : WorkUnit} {go : Handle.State}
    (held : s.reserved i = some u.ticket)
    (went : s.go.step cfg.handle (.thread i (.ticket u.ticket.val)) = some go) :
    Tickets { s with
      go := go, reserved := Function.update s.reserved i none
      queue := { s.queue with items := s.queue.items ++ [u] } } := by
  obtain ⟨fresh, hist, others⟩ := Handle.State.ticket_step went
  obtain ⟨low, _, _⟩ := books.pending i _ held
  refine ⟨?_, ?_, ?_, ?_, ?_, books.counter⟩
  · intro k
    have total := books.placed k
    simp only [State.queued, List.map_append, List.count_append, List.map_cons, List.map_nil,
      List.count_singleton, hist, Handle.History.accept, has_insert]
    simp only [State.queued, State.dropped, State.completing] at total ⊢
    by_cases same : u.ticket.val = k
    · subst same
      rw [has_of_notMem fresh] at total
      simp only [beq_self_eq_true, if_true]
      omega
    · simp only [beq_iff_eq, same, if_false]
      exact total
  · intro k
    rw [hist]
    exact books.consumed k
  · intro k member
    rw [hist] at member
    rcases Finset.mem_insert.mp member with rfl | old
    · exact low
    · exact books.issued k old
  · intro k id other
    obtain ⟨apart, before⟩ := answered other
    obtain ⟨below, unaccepted, here⟩ := books.pending k id before
    refine ⟨below, ?_, (others k apart).trans here⟩
    rw [hist]
    intro member
    rcases Finset.mem_insert.mp member with same | old
    · rw [Subtype.ext same] at before
      exact apart (books.apart k i _ before held)
    · exact unaccepted old
  · intro k l id first second
    exact books.apart k l id (answered first).2 (answered second).2

/-- A worker takes the oldest unit. -/
theorem pop (books : Tickets s) {i : Nat} {u : WorkUnit} {rest : List WorkUnit}
    (here : s.jobs[i]? = some none) (first : s.queue.items = u :: rest) :
    Tickets { s with queue := { s.queue with items := rest }, jobs := s.jobs.set i (some u) } where
  placed := by
    intro k
    have total := books.placed k
    have moved := census_set (runs k) here (some u)
    simp only [State.queued, first, List.map_cons, List.count_cons] at total
    simp only [runs] at moved
    simp only [State.queued, State.dropped, State.completing] at total ⊢
    simp only [beq_iff_eq] at total
    omega
  consumed := books.consumed
  issued := books.issued
  pending := books.pending
  apart := books.apart
  counter := books.counter

/-- The worker's unit goes to `complete`, or is lost. -/
theorem finish (books : Tickets s) {i : Nat} {u : WorkUnit} (here : s.jobs[i]? = some (some u))
    {rust : Completion.State} {lost : List Id}
    (returned : rust.returned = s.rust.returned)
    (one : rust.begun.map (fun j => j.ticket.toNat) = s.completing ++ [u.ticket.val] ∧
        lost = s.lost ∨ rust.begun = s.rust.begun ∧ lost = s.lost ++ [u.ticket]) :
    Tickets { s with rust := rust, jobs := s.jobs.set i none, lost := lost } where
  placed := by
    intro k
    have total := books.placed k
    have moved := census_set (runs k) here none
    simp only [runs] at moved
    simp only [State.queued, State.dropped, State.completing] at total one ⊢
    rcases one with ⟨begun, rfl⟩ | ⟨begun, rfl⟩
    · rw [begun]
      simp only [List.count_append, List.count_singleton, beq_iff_eq]
      omega
    · rw [begun]
      simp only [List.map_append, List.map_cons, List.map_nil, List.count_append,
        List.count_singleton, beq_iff_eq]
      omega
  consumed := by
    intro k
    simp only [State.returned, returned]
    exact books.consumed k
  issued := books.issued
  pending := books.pending
  apart := books.apart
  counter := books.counter

/-- `next` returns a completion and the reader has it. -/
theorem consume (books : Tickets s) {rust : Completion.State} {p : Popped} {go : Handle.State}
    (begun : rust.begun = s.rust.begun) (returned : rust.returned = s.rust.returned ++ [p])
    (went : s.go.step cfg.handle (.reader (.consume p.ticket.toNat p.data)) = some go) :
    Tickets { s with go := go, rust := rust } := by
  obtain ⟨_, hist, threads⟩ := Handle.State.consume_step went
  refine ⟨?_, ?_, ?_, ?_, books.apart, books.counter⟩
  · intro k
    simp only [State.completing, begun, hist]
    exact books.placed k
  · intro k
    rw [hist]
    simp only [State.returned, returned, List.map_append, List.mem_append, List.map_cons,
      List.map_nil, List.mem_singleton, Handle.History.consume, Finset.mem_insert]
    rw [books.consumed k, State.returned, Or.comm]
  · rw [hist]
    exact books.issued
  · intro i id held
    obtain ⟨low, fresh, here⟩ := books.pending i id held
    rw [hist]
    refine ⟨low, fresh, ?_⟩
    rw [← here]
    simp only [Handle.State.pcOf, threads]

end Tickets

/-- A step of the Go side alone, or with a refusal or a take on the Rust side. -/
theorem Tickets.alone (books : Tickets s) {a : Handle.Act} {go : Handle.State}
    {rust : Completion.State} {reserved : Nat → Option Id}
    (went : s.go.step cfg.handle a = some go) (ticket : ∀ i k, a ≠ .thread i (.ticket k))
    (consume : ∀ k d, a ≠ .reader (.consume k d)) (begun : rust.begun = s.rust.begun)
    (returned : rust.returned = s.rust.returned)
    (held : ∀ i id, reserved i = some id →
      s.reserved i = some id ∧ ∀ e, a ≠ .thread i (.refuse e)) :
    Tickets { s with go := go, rust := rust, reserved := reserved } := by
  have alone := Handle.State.step_alone ticket consume went
  refine books.keep rfl rfl rfl begun returned alone.accepted alone.consumed rfl ?_
  intro i id has_id
  obtain ⟨before, kept⟩ := held i id has_id
  exact ⟨before, alone.waits i (books.pending i id before).2.2 kept⟩

theorem Move.tickets (move : Move cfg s t) (books : Tickets s) : Tickets t := by
  -- A step on the Rust side alone that begins and returns nothing.
  have inner : ∀ {rust : Completion.State} {jobs : List (Option WorkUnit)},
      rust.returned = s.rust.returned → rust.begun = s.rust.begun →
      (∀ k, census (runs k) jobs = census (runs k) s.jobs) →
      Tickets { s with rust := rust, jobs := jobs } := by
    intro rust jobs returned begun same
    refine ⟨?_, ?_, books.issued, books.pending, books.apart, books.counter⟩
    · intro k
      simp only [State.completing, begun, same]
      exact books.placed k
    · intro k
      simp only [State.returned, returned]
      exact books.consumed k
  cases move with
  | go a go alone went =>
    refine books.alone went ?_ ?_ rfl rfl ?_
    · rintro i k rfl
      cases alone
    · rintro k d rfl
      cases alone
    · intro i id held
      refine ⟨held, ?_⟩
      rintro e rfl
      rw [goAlone, held] at alone
      cases alone
  | reserve i id value free here => exact books.reserve value here
  | elsewhere low => exact books.next low
  | accept i u go held went => exact books.accept held went
  | refuse i id e go held went =>
    refine books.alone went (by simp) (by simp) rfl rfl ?_
    intro k other held
    obtain ⟨apart, before⟩ := Tickets.answered held
    refine ⟨before, ?_⟩
    rintro e' same
    cases same
    exact apart rfl
  | close => exact books.keep rfl rfl rfl rfl rfl rfl rfl rfl fun i id held =>
      ⟨held, (books.pending i id held).2.2⟩
  | pop i u rest here first => exact books.pop here first
  | complete i u result rust here went =>
    obtain ⟨returned, none | ⟨_, _, same, begun⟩⟩ := Completion.step_aside went (by simp)
    · simp only [Completion.State.step] at went
      split at went <;> cases went
      simp at none
    · cases same
      refine books.finish here returned (.inl ⟨?_, rfl⟩)
      rw [begun, List.map_append]
      simp [State.completing, WorkUnit.job, Id.word_toNat]
  | abandon i u here => exact books.finish here rfl (.inr ⟨rfl, rfl⟩)
  | spawn rust went =>
    obtain ⟨returned, begun | ⟨_, _, same, _⟩⟩ := Completion.step_aside went (by simp)
    · exact inner returned begun fun k => by simp [runs]
    · cases same
  | worker i weak rust went =>
    obtain ⟨returned, begun | ⟨_, _, same, _⟩⟩ := Completion.step_aside went (by simp)
    · exact inner returned begun fun k => rfl
    · cases same
  | scan n spent rust went none =>
    exact inner none (Completion.read_returns went).1 fun k => rfl
  | consume n spent rust p go went returned consumed =>
    exact books.consume (Completion.read_returns went).1 returned consumed
  | take id answer go rust here answered went =>
    obtain ⟨returned, begun | ⟨_, _, same, _⟩⟩ := Completion.step_aside went (by simp)
    · refine books.alone answered (by simp) ?_ begun returned fun i id held => ⟨held, by simp⟩
      rintro k d same
      cases same
      simp [Handle.State.step, here, Handle.State.readerStep] at answered
    · cases same

namespace State

theorem reaches_tickets (reach : Reaches cfg s) : Tickets s := by
  apply reach.invariant
  · rintro _ rfl
    exact opened_tickets cfg
  · rintro s t books ⟨a, went⟩
    exact (step_moves went).tickets books

/-- The Go side runs as a handle does. -/
theorem reaches_go (reach : Reaches cfg s) :
    Handle.State.Reaches cfg.handle Handle.anyTicket s.go := by
  apply reach.simulate State.go
  · rintro _ rfl
    rfl
  · rintro s t _ ⟨a, went⟩
    cases step_moves went with
    | go a go alone moved => exact .single ⟨a, moved, fun _ _ => trivial⟩
    | accept i u go held moved => exact .single ⟨_, moved, fun _ _ => trivial⟩
    | refuse i id e go held moved => exact .single ⟨_, moved, fun _ _ => trivial⟩
    | consume n spent rust p go moved returned consumed =>
      exact .single ⟨_, consumed, fun _ _ => trivial⟩
    | take id answer go rust here answered moved =>
      exact .single ⟨_, answered, fun _ _ => trivial⟩
    | _ => exact .refl

/-- The Rust side and the reader's `next` run as the completions of a handle do. -/
theorem reaches_rust (reach : Reaches cfg s) : Completion.State.Reaches cfg.completion s.rust := by
  apply reach.simulate State.rust
  · rintro _ rfl
    rfl
  · rintro s t _ ⟨a, went⟩
    cases step_moves went with
    | complete i u result rust here moved => exact .single ⟨_, moved⟩
    | spawn rust moved => exact .single ⟨_, moved⟩
    | worker i weak rust moved => exact .single ⟨_, moved⟩
    | scan n spent rust moved none => exact .single ⟨_, moved⟩
    | consume n spent rust p go moved returned consumed => exact .single ⟨_, moved⟩
    | take id answer go rust here answered moved => exact .single ⟨_, moved⟩
    | _ => exact .refl

theorem reaches_cap (reach : Reaches cfg s) : s.queue.cap = cfg.poolSize * 2 := by
  apply reach.invariant
  · rintro _ rfl
    have least := cfg.least
    simp only [opened, JobQueue.new]
    omega
  · rintro s t cap ⟨a, went⟩
    cases step_moves went <;> exact cap

end State

end Gusset.System
