import Gusset.System.Program

/-! What one step of the whole can do to either side. -/
namespace Gusset.Handle.State
open Foundation

variable {cfg : Config} {s s' : State}

/-- What every step leaves alone that is no answer of `ffi.Submit` and no return of `next`, but for
where the moving goroutine stands. -/
@[grind]
structure Aside (s s' : State) : Prop where
  accepted : s'.hist.accepted = s.hist.accepted
  consumed : s'.hist.consumed = s.hist.consumed
  threads : s'.threads = s.threads

@[grind →]
theorem receiveSem_aside {mid : State} (went : s.receiveSem = some mid) : Aside s mid := by
  unfold receiveSem at went
  split at went <;> cases went
  exact ⟨rfl, rfl, rfl⟩

theorem submitStep_aside {ctx : Bool} {pc pc' : Pc} {c : Choice} (other : ∀ t, c ≠ .ticket t)
    (went : submitStep cfg s ctx pc c = some (s', pc')) : Aside s s' := by
  unfold submitStep at went
  split at went <;> grind -ring -linarith
    [Option.map_eq_some_iff, giveBack, History.giveBack, History.ret]

theorem waitStep_aside {ctx : Bool} {pc pc' : Pc} {c : Choice}
    (went : waitStep cfg s ctx pc c = some (s', pc')) : Aside s s' := by
  unfold waitStep at went
  split at went <;> grind -ring -linarith [Option.map_eq_some_iff, settle, giveBack, History.giveBack,
    History.hand, History.spend]

theorem cgoStep_aside {pc pc' : Pc} {c : Choice} (went : cgoStep s pc c = some (s', pc')) :
    Aside s s' := by
  unfold cgoStep at went
  split at went <;> grind -ring -linarith

theorem closeCallStep_aside {pc pc' : Pc} {c : Choice}
    (went : closeCallStep s pc c = some (s', pc')) : Aside s s' := by
  unfold closeCallStep at went
  split at went <;> grind -ring -linarith

theorem threadStep_aside {ctx : Bool} {pc pc' : Pc} {c : Choice} (other : ∀ t, c ≠ .ticket t)
    (went : threadStep cfg s ctx pc c = some (s', pc')) : Aside s s' := by
  simp only [threadStep, Option.or_eq_some_iff] at went
  rcases went with submit | ⟨_, wait | ⟨_, cgo | ⟨_, close⟩⟩⟩
  · exact submitStep_aside other submit
  · exact waitStep_aside wait
  · exact cgoStep_aside cgo
  · exact closeCallStep_aside close

theorem readerStep_aside {pc pc' : ReaderPc} {c : ReadChoice} (other : ∀ t d, c ≠ .consume t d)
    (went : readerStep s pc c = some (s', pc')) : Aside s s' := by
  unfold readerStep at went
  split at went <;> grind -ring -linarith
    [Option.map_eq_some_iff, giveBack, History.giveBack, History.route,
    History.deliver, History.hand, History.dropAll]

theorem closeStep_aside {pc pc' : ClosePc} {c : CloseChoice}
    (went : closeStep s pc c = some (s', pc')) : Aside s s' := by
  unfold closeStep at went
  split at went <;> grind -ring -linarith
    [Option.map_eq_some_iff, giveBack, History.giveBack, History.dropAll]

-- Where caller `i` stands.
def pcOf (s : State) (i : Nat) : Option Pc := (s.threads[i]?).map Thread.pc

/-- A step of the Go side alone: no ticket is accepted, none is consumed, and a caller that waits
for the answer of `ffi.Submit` goes on waiting, unless the step refuses it. -/
structure Alone (s s' : State) (a : Act) : Prop where
  accepted : s'.hist.accepted = s.hist.accepted
  consumed : s'.hist.consumed = s.hist.consumed
  waits : ∀ i, s.pcOf i = some .ffiSubmit → (∀ e, a ≠ .thread i (.refuse e)) →
    s'.pcOf i = some .ffiSubmit

theorem step_alone {a : Act} (ticket : ∀ i t, a ≠ .thread i (.ticket t))
    (consume : ∀ t d, a ≠ .reader (.consume t d)) (went : s.step cfg a = some s') :
    Alone s s' a := by
  cases a with
  | call c =>
    cases went
    refine ⟨rfl, rfl, ?_⟩
    intro i here _
    obtain ⟨th, place, pc⟩ := Option.map_eq_some_iff.mp here
    have bound := (List.getElem?_eq_some_iff.mp place).1
    simp only [pcOf, List.getElem?_append_left bound, place, Option.map_some, pc]
  | expire k =>
    obtain ⟨th, place, rfl⟩ := Option.map_eq_some_iff.mp went
    refine ⟨rfl, rfl, ?_⟩
    intro i here _
    have same := map_set_same Thread.pc place (b := { th with ctx := true }) rfl
    rw [← here]
    simp only [pcOf, ← List.getElem?_map, same]
  | thread k c =>
    obtain ⟨th, place, taken⟩ := Option.bind_eq_some_iff.mp went
    obtain ⟨⟨mid, pc'⟩, moved, rfl⟩ := Option.map_eq_some_iff.mp taken
    have aside := threadStep_aside (fun t same => ticket k t (same ▸ rfl)) moved
    refine ⟨aside.accepted, aside.consumed, ?_⟩
    intro i here kept
    simp only [pcOf, aside.threads]
    by_cases same : k = i
    · subst same
      rw [pcOf, place, Option.map_some, Option.some.injEq] at here
      rw [here] at moved
      cases c with
      | ticket t => exact absurd rfl (ticket k t)
      | refuse e => exact absurd rfl (kept e)
      | _ => cases moved
    · rw [List.getElem?_set_ne same]
      exact here
  | reader c =>
    obtain ⟨⟨mid, pc'⟩, moved, rfl⟩ := Option.map_eq_some_iff.mp went
    have aside := readerStep_aside (fun t d same => consume t d (same ▸ rfl)) moved
    refine ⟨aside.accepted, aside.consumed, ?_⟩
    intro i here _
    simp only [pcOf, aside.threads]
    exact here
  | closer c =>
    obtain ⟨⟨mid, pc'⟩, moved, rfl⟩ := Option.map_eq_some_iff.mp went
    have aside := closeStep_aside moved
    refine ⟨aside.accepted, aside.consumed, ?_⟩
    intro i here _
    simp only [pcOf, aside.threads]
    exact here

end Gusset.Handle.State

namespace Gusset.Completion

variable {cfg : Config} {s t : State}

/-- Workers complete and publish; only the reader returns. -/
theorem step_aside {a : Act} (went : s.step cfg a = some t) (other : ∀ n spent, a ≠ .reader n spent) :
    t.returned = s.returned ∧ (t.begun = s.begun ∨ ∃ i j, a = .complete i j ∧ t.begun = s.begun ++ [j]) := by
  cases a with
  | spawn =>
    cases went
    exact ⟨rfl, .inl rfl⟩
  | complete i j =>
    simp only [State.step] at went
    split at went <;> cases went
    exact ⟨rfl, .inr ⟨i, j, rfl, rfl⟩⟩
  | worker i weak =>
    have move := workerStep_moves went
    cases move <;> exact ⟨rfl, .inl rfl⟩
  | reader n spent => exact absurd rfl (other n spent)
  | take k =>
    simp only [State.step] at went
    split at went <;> cases went <;> exact ⟨rfl, .inl rfl⟩

/-- A step of the reader returns nothing, or one completion. -/
theorem read_returns {n : Nat} {spent : Bool} (went : s.step cfg (.reader n spent) = some t) :
    t.begun = s.begun ∧ (t.returned = s.returned ∨ ∃ p, t.returned = s.returned ++ [p]) := by
  have move : ReaderMove cfg s t := by
    simp only [State.step] at went
    split at went
    · rename_i c ring
      exact readerStep_moves ring went
    · exact pipeReaderStep_moves went
  refine ⟨move.frame.begun, ?_⟩
  cases move with
  | pop c k k' m head p here ring moved => exact .inr ⟨p, rfl⟩
  | record p size seen pc here found => exact .inr ⟨p, rfl⟩
  | _ => exact .inl rfl

end Gusset.Completion

namespace Gusset.System
open Foundation Wire Gusset.Ring

/-- What one step of the whole can do. -/
inductive Move (cfg : Config) (s : State) : State → Prop
  | go (a : Handle.Act) (go : Handle.State) (alone : goAlone s.reserved a = true)
      (went : s.go.step cfg.handle a = some go) : Move cfg s { s with go := go }
  | reserve (i : Nat) (t : Id) (value : t.val = s.nextTicket) (free : s.reserved i = none)
      (here : s.go.pcOf i = some .ffiSubmit) :
    Move cfg s { s with
      nextTicket := s.nextTicket + 1, reserved := Function.update s.reserved i (some t) }
  | elsewhere (low : s.nextTicket < idCeiling) :
    Move cfg s { s with nextTicket := s.nextTicket + 1 }
  | accept (i : Nat) (u : WorkUnit) (go : Handle.State) (held : s.reserved i = some u.ticket)
      (went : s.go.step cfg.handle (.thread i (.ticket u.ticket.val)) = some go) :
    Move cfg s { s with
      go := go, reserved := Function.update s.reserved i none
      queue := { s.queue with items := s.queue.items ++ [u] } }
  | refuse (i : Nat) (t : Id) (e : Handle.Err) (go : Handle.State) (held : s.reserved i = some t)
      (went : s.go.step cfg.handle (.thread i (.refuse e)) = some go) :
    Move cfg s { s with go := go, reserved := Function.update s.reserved i none }
  | close : Move cfg s { s with queue := { s.queue with closed := true } }
  | pop (i : Nat) (u : WorkUnit) (rest : List WorkUnit) (here : s.jobs[i]? = some none)
      (first : s.queue.items = u :: rest) :
    Move cfg s { s with queue := { s.queue with items := rest }, jobs := s.jobs.set i (some u) }
  | complete (i : Nat) (u : WorkUnit) (result : Completion.JobResult) (rust : Completion.State)
      (here : s.jobs[i]? = some (some u))
      (went : s.rust.step cfg.completion (.complete i (u.job result)) = some rust) :
    Move cfg s { s with rust := rust, jobs := s.jobs.set i none }
  | abandon (i : Nat) (u : WorkUnit) (here : s.jobs[i]? = some (some u)) :
    Move cfg s { s with jobs := s.jobs.set i none, lost := s.lost ++ [u.ticket] }
  | spawn (rust : Completion.State) (went : s.rust.step cfg.completion .spawn = some rust) :
    Move cfg s { s with rust := rust, jobs := s.jobs ++ [none] }
  | worker (i : Nat) (weak : Bool) (rust : Completion.State)
      (went : s.rust.step cfg.completion (.worker i weak) = some rust) :
    Move cfg s { s with rust := rust }
  | scan (n : Nat) (spent : Bool) (rust : Completion.State)
      (went : s.rust.step cfg.completion (.reader n spent) = some rust)
      (none : rust.returned = s.rust.returned) : Move cfg s { s with rust := rust }
  | consume (n : Nat) (spent : Bool) (rust : Completion.State) (p : Popped) (go : Handle.State)
      (went : s.rust.step cfg.completion (.reader n spent) = some rust)
      (returned : rust.returned = s.rust.returned ++ [p])
      (consumed : s.go.step cfg.handle (.reader (.consume p.ticket.toNat p.data)) = some go) :
    Move cfg s { s with go := go, rust := rust }
  | take (t : Nat) (answer : Handle.ReadChoice) (go : Handle.State) (rust : Completion.State)
      (here : s.go.reader = .take t)
      (answered : s.go.step cfg.handle (.reader answer) = some go)
      (went : s.rust.step cfg.completion (.take (.ofNat 64 t)) = some rust) :
    Move cfg s { s with go := go, rust := rust }

variable {cfg : Config} {s t : State}

theorem reserveId_some {r : Id × State} (went : s.reserveId = some r) :
    r.1.val = s.nextTicket ∧ r.2 = { s with nextTicket := s.nextTicket + 1 } := by
  unfold State.reserveId at went
  split at went <;> cases went
  exact ⟨rfl, rfl⟩

theorem push_ok {q q' : JobQueue} {u : WorkUnit} (went : q.push u = .ok q') :
    q' = { q with items := q.items ++ [u] } := by
  unfold JobQueue.push at went
  split at went
  · cases went
  · split at went <;> cases went
    rfl

theorem send_moves {i : Nat} {id : Id} {wantsInline poisoned : Bool}
    (held : s.reserved i = some id) (went : s.send cfg i id wantsInline poisoned = some t) :
    Move cfg s t := by
  simp only [State.send] at went
  split at went
  · rename_i q pushed
    obtain ⟨go, moved, rfl⟩ := Option.map_eq_some_iff.mp went
    rw [push_ok pushed]
    exact .accept i ⟨id, wantsInline⟩ go held moved
  · obtain ⟨go, moved, rfl⟩ := Option.map_eq_some_iff.mp went
    exact .refuse i id _ go held moved

theorem read_moves {n : Nat} {spent : Bool} (went : s.read cfg n spent = some t) :
    Move cfg s t := by
  obtain ⟨_, reads⟩ := Option.ite_none_right_eq_some.mp went
  obtain ⟨rust, moved, given⟩ := Option.bind_eq_some_iff.mp reads
  obtain ⟨_, same | ⟨p, more⟩⟩ := Completion.read_returns moved
  · rw [same, List.getElem?_eq_none (Nat.le_refl _)] at given
    cases given
    exact .scan n spent rust moved same
  · rw [more, List.getElem?_concat_length] at given
    obtain ⟨go, consumed, rfl⟩ := Option.map_eq_some_iff.mp given
    exact .consume n spent rust p go moved more consumed

theorem step_moves {a : Act} (went : s.step cfg a = some t) : Move cfg s t := by
  cases a with
  | go a =>
    obtain ⟨alone, taken⟩ := Option.ite_none_right_eq_some.mp went
    obtain ⟨go, moved, rfl⟩ := Option.map_eq_some_iff.mp taken
    exact .go a go alone moved
  | reserve i =>
    obtain ⟨⟨here, free⟩, moved⟩ := Option.ite_none_right_eq_some.mp went
    obtain ⟨r, issued, rfl⟩ := Option.map_eq_some_iff.mp moved
    obtain ⟨value, rest⟩ := reserveId_some issued
    rw [rest]
    exact .reserve i r.1 value free here
  | elsewhere =>
    obtain ⟨r, issued, rfl⟩ := Option.map_eq_some_iff.mp went
    obtain ⟨value, rest⟩ := reserveId_some issued
    rw [rest]
    exact .elsewhere (value ▸ r.1.property.2)
  | send i wantsInline poisoned =>
    obtain ⟨id, held, moved⟩ := Option.bind_eq_some_iff.mp went
    exact send_moves held moved
  | close =>
    obtain ⟨_, moved⟩ := Option.ite_none_right_eq_some.mp went
    cases moved
    exact .close
  | spawn =>
    cases went
    exact .spawn _ rfl
  | pop i =>
    obtain ⟨⟨_, here⟩, moved⟩ := Option.ite_none_right_eq_some.mp went
    obtain ⟨⟨u, q⟩, popped, rfl⟩ := Option.map_eq_some_iff.mp moved
    unfold JobQueue.pop at popped
    split at popped <;> cases popped
    rename_i first
    exact .pop i u _ here first
  | complete i result =>
    obtain ⟨job, here, runs⟩ := Option.bind_eq_some_iff.mp went
    obtain ⟨u, rfl, taken⟩ := Option.bind_eq_some_iff.mp runs
    obtain ⟨rust, moved, rfl⟩ := Option.map_eq_some_iff.mp taken
    exact .complete i u result rust here moved
  | abandon i =>
    obtain ⟨job, here, moved⟩ := Option.bind_eq_some_iff.mp went
    obtain ⟨u, rfl, rfl⟩ := Option.map_eq_some_iff.mp moved
    exact .abandon i u here
  | worker i weak =>
    obtain ⟨rust, moved, rfl⟩ := Option.map_eq_some_iff.mp went
    exact .worker i weak rust moved
  | read n spent => exact read_moves went
  | take answer =>
    simp only [State.step, State.take] at went
    split at went
    · rename_i id here
      obtain ⟨go, answered, taken⟩ := Option.bind_eq_some_iff.mp went
      obtain ⟨rust, moved, rfl⟩ := Option.map_eq_some_iff.mp taken
      exact .take id answer go rust here answered moved
    · cases went

end Gusset.System
