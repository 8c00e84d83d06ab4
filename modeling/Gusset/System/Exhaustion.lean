import Gusset.Ring.Progress
import Gusset.System.Bounds

/-! A handle that works through its tickets one by one, to the end of the ticket space. -/
namespace Gusset.Handle.State
open Foundation

/-- An open handle nobody waits on, with the reader in `next`. -/
def quiet (sem readers : Nat) (held : Finset Ticket) (threads : List Thread) (h : History)
    (m : GoMap Ticket CallResult) : State :=
  { opened with
    sh := { Shared.opened with sem := sem, semTickets := held, completed := m }
    hist := h
    threads := threads
    readers := readers }

variable {cfg : Config} {sem sem' readers readers' : Nat} {held held' : Finset Ticket}
  {l : List Thread} {h h' : History} {m : GoMap Ticket CallResult} {t : Ticket} {pc : Pc}
  {c : Choice}

theorem last_step (pc' : Pc)
    (moved : threadStep cfg (quiet sem readers held (l ++ [⟨false, pc⟩]) h m) false pc c =
      some (quiet sem' readers' held' (l ++ [⟨false, pc⟩]) h' m, pc')) :
    (quiet sem readers held (l ++ [⟨false, pc⟩]) h m).step cfg (.thread l.length c) =
      some (quiet sem' readers' held' (l ++ [⟨false, pc'⟩]) h' m) := by
  have here : (quiet sem readers held (l ++ [⟨false, pc⟩]) h m).threads[l.length]? =
      some ⟨false, pc⟩ := List.getElem?_concat_length
  simp only [step, here, Option.bind_some, moved, Option.map_some]
  simp [quiet]

/-- A call of Submit with a permit to spare comes to `ffi.Submit`. -/
theorem last_asks (room : sem < cfg.poolSize) (unbounded : cfg.maxUncollected = 0) :
    follow (step cfg) (quiet sem 0 held l h m)
      (.call (.submit (.bytes 0)) :: List.replicate 13 (.thread l.length .go)) =
      some (quiet (sem + 1) 1 held (l ++ [⟨false, .ffiSubmit⟩]) h m) := by
  obtain ⟨p, u⟩ := cfg
  subst unbounded
  have acquired : threadStep ⟨p, 0⟩ (quiet sem 0 held (l ++ [⟨false, .acquire⟩]) h m) false .acquire
      .go = some (quiet (sem + 1) 0 held (l ++ [⟨false, .acquire⟩]) h m, .ctxErr) := by
    change (if sem < p then _ else _ : Option _).or _ = _
    rw [if_pos room]
    rfl
  refine (follow_cons rfl).trans ?_
  refine (follow_cons (last_step (.exited1 (.bytes 0)) rfl)).trans ?_
  refine (follow_cons (last_step (.poisoned1 (.bytes 0)) rfl)).trans ?_
  refine (follow_cons (last_step (.input (.bytes 0)) rfl)).trans ?_
  refine (follow_cons (last_step .acquire rfl)).trans ?_
  refine (follow_cons (last_step .ctxErr acquired)).trans ?_
  refine (follow_cons (last_step .closed2 rfl)).trans ?_
  refine (follow_cons (last_step .exited2 rfl)).trans ?_
  refine (follow_cons (last_step .poisoned2 rfl)).trans ?_
  refine (follow_cons (last_step (.enterClosed .submit) rfl)).trans ?_
  refine (follow_cons (last_step (.tryRLock .submit) rfl)).trans ?_
  refine (follow_cons (last_step (.enterPtr .submit) rfl)).trans ?_
  refine (follow_cons (last_step (.inside .submit) rfl)).trans ?_
  refine (follow_cons (last_step .ffiSubmit rfl)).trans ?_
  rfl

/-- Rust answers with a fresh ticket. -/
theorem last_answered (fresh : t ∉ h.accepted) :
    (quiet sem 1 held (l ++ [⟨false, .ffiSubmit⟩]) h m).step cfg (.thread l.length (.ticket t)) =
      some (quiet sem 1 held (l ++ [⟨false, .insert t⟩]) (h.accept t) m) := by
  apply last_step
  simp [threadStep, submitStep, quiet, opened, fresh]

/-- The caller returns its ticket. -/
theorem last_returns (new : t ∉ m.keys) :
    follow (step cfg) (quiet sem 1 held (l ++ [⟨false, .insert t⟩]) h m)
      (List.replicate 3 (.thread l.length .go)) =
      some (quiet sem 0 (insert t held) (l ++ [⟨false, .done (.ticket t)⟩]) (h.ret t) m) := by
  have inserted : threadStep cfg (quiet sem 1 held (l ++ [⟨false, .insert t⟩]) h m) false
      (.insert t) .go =
      some (quiet sem 1 (insert t held) (l ++ [⟨false, .insert t⟩]) h m, .unlock (.issue t)) := by
    simp [threadStep, submitStep, quiet, opened, Shared.opened, Shared.insertLocked, new]
  refine (follow_cons (last_step (.unlock (.issue t)) inserted)).trans ?_
  refine (follow_cons (last_step (.issue t) rfl)).trans ?_
  refine (follow_cons (last_step (.done (.ticket t)) rfl)).trans ?_
  rfl

theorem quiet_consumes (accepted : t ∈ h.accepted) (new : t ∉ h.consumed) (data : Bytes) :
    (quiet sem 0 held l h m).step cfg (.reader (.consume t (some data))) =
      some { quiet sem 0 held l (h.consume t) m with reader := .deliver t ⟨data, none⟩ 0 } := by
  simp only [step, quiet, opened, readerStep, accepted, new, not_false_eq_true, and_self, if_true,
    Option.map_some]

/-- An inline completion nobody waits for is stored, and the permit of its ticket given back. -/
theorem quiet_delivers (cfg : Config) (sem : Nat) (l : List Thread) (h : History)
    (m : GoMap Ticket CallResult) (other : t ∉ held) (data : Bytes) :
    ∃ h', follow (step cfg)
      { quiet (sem + 1) 0 (insert t held) l h m with reader := .deliver t ⟨data, none⟩ 0 }
      [.reader .go, .reader .go] = some (quiet sem 0 held l h' (m.insert t ⟨data, none⟩)) := by
  refine ⟨(h.route t ⟨data, none⟩ 0 (.stored true)).giveBack t, ?_⟩
  simp [follow, step, readerStep, quiet, opened, Shared.opened, Shared.sendReady, Shared.roomFor,
    Shared.deliver, GoMap.lookup, ReaderPc.afterBin, receiveSem, Shared.noteTake, other, giveBack]

end Gusset.Handle.State

namespace Gusset.Completion
open Foundation Wire Gusset.Ring

variable {cfg : Config} {c : Capacity} {s t : State} {i : Nat} {j : Job}

/-- Steps of worker `i` alone. -/
def Works (cfg : Config) (i : Nat) : State → State → Prop :=
  Relation.ReflTransGen fun s t => s.step cfg (.worker i false) = some t

/-- What a producer does alone, its worker does. -/
theorem works_solo {a b : Ring.Solo} (ring : cfg.ring = some c)
    (run : Relation.ReflTransGen (Ring.Solo.Step cfg.endian c) a b)
    (mem : s.mem = a.mem) (log : s.log = a.log)
    (here : s.workers[i]? = some (State.published j a.producer)) :
    Works cfg i s { s with
      mem := b.mem, log := b.log, workers := s.workers.set i (State.published j b.producer) } := by
  have bound := (List.getElem?_eq_some_iff.mp here).1
  induction run with
  | refl =>
    obtain ⟨_, idle⟩ := List.getElem?_eq_some_iff.mp here
    rw [← mem, ← log, ← idle, List.set_getElem_self]
    exact .refl
  | @tail b d before move ih =>
    obtain ⟨_, claim, claims, moved⟩ := move
    have inside : State.published j b.producer = .publish j b.producer := by
      cases place : b.producer with
      | done published =>
        rw [place] at moved
        cases moved
      | _ => rfl
    refine Relation.ReflTransGen.tail ih ?_
    simp only [State.step, State.workerStep, List.getElem?_set_self bound, inside, ring,
      Option.bind_some, moved, Option.map_some, List.set_set, claims]

/-- A worker alone on a ring with room publishes its job's record, at the next position. -/
theorem works_completes (reach : State.Reaches cfg s) (ring : cfg.ring = some c)
    (room : s.log.length < s.popped.length + c.slots) (unannounced : s.waiting = false)
    (here : s.workers[i]? = some (.start j)) :
    ∃ m results, Works cfg i s { s with
      mem := m, results := results, log := s.log ++ [j.record cfg]
      workers := s.workers.set i .idle } := by
  have sound := Ring.State.reaches_sound (State.reaches_ring ring reach)
  have bound := (List.getElem?_eq_some_iff.mp here).1
  have began : s.step cfg (.worker i false) = some { s with
      results := s.insertResult j ((j.record cfg).data = none)
      workers := s.workers.set i (.publish j (.load (j.record cfg))) } := by
    simp only [State.step, State.workerStep, here, ring]
  have tail : s.mem.tail = .ofNat 64 s.log.length := sound.tail
  have free : s.mem.seq (s.log.length % c.slots) = .ofNat 64 s.log.length :=
    sound.free s.log.length (Nat.le_refl _) room
  obtain ⟨m, alone⟩ := Solo.publishes cfg.endian tail free (j.record cfg)
  have run := works_solo (s := { s with
      results := s.insertResult j ((j.record cfg).data = none)
      workers := s.workers.set i (.publish j (.load (j.record cfg))) }) ring alone rfl rfl
    (List.getElem?_set_self bound)
  simp only [List.set_set] at run
  refine ⟨m, s.insertResult j ((j.record cfg).data = none),
    .head began (Relation.ReflTransGen.tail run ?_)⟩
  have there : (s.workers.set i (State.published j (.done true)))[i]? = some .load :=
    List.getElem?_set_self bound
  simp only [State.step, State.workerStep, there, List.set_set, unannounced, Bool.false_eq_true,
    if_false]

/-- Steps of the reader that return nothing. -/
def Scans (cfg : Config) : State → State → Prop :=
  Relation.ReflTransGen fun s t => s.step cfg (.reader 0 false) = some t ∧ t.returned = s.returned

/-- `popRing`, once begun, returns. -/
theorem scans_pop (reach : State.Reaches cfg s) (ring : cfg.ring = some c) {k : Consumer}
    (here : s.reader.pc = .pop k) (busy : k ≠ .idle) :
    ∃ mid m head p, Scans cfg s mid ∧ mid.returned = s.returned ∧
      mid.step cfg (.reader 0 false) = some { s with
        mem := m, popped := s.popped ++ [p], returned := s.returned ++ [p]
        reader := { s.reader with head := head, stamped := true, pc := .next } } := by
  induction left : k.left using Nat.strong_induction_on generalizing s k with
  | _ n ih =>
    have fine : ∀ n, k ≠ .corrupt n := by
      rintro n rfl
      have sound := Ring.State.reaches_sound (State.reaches_ring ring reach)
      have consumer : s.ring.consumer = .corrupt n := by simp only [State.ring, here]; rfl
      obtain ⟨_, r, _, reads⟩ := sound.consumer (by rw [consumer]; exact Consumer.noConfusion)
      rw [consumer] at reads
      exact reads
    obtain ⟨m, head, k', out, moved, less, ended⟩ :=
      Consumer.step_left cfg.endian c s.mem s.reader.head busy fine
    rcases ended with ⟨_, p, rfl⟩ | ⟨on, rfl⟩
    · refine ⟨s, m, head, p, .refl, rfl, ?_⟩
      simp only [State.step, ring, State.readerStep, here, moved, Option.map_some,
        Option.toList_some, State.deliver]
    · have went : s.step cfg (.reader 0 false) = some { s with
          mem := m, reader := { s.reader with head := head, pc := .pop k' } } := by
        simp only [State.step, ring, State.readerStep, here, moved, Option.map_some,
          Option.toList_none, List.append_nil]
      obtain ⟨mid, m', head', p, scans, same, last⟩ := ih _ (left ▸ less) (reach.next ⟨_, went⟩) rfl on rfl
      exact ⟨mid, m', head', p, .head ⟨went, rfl⟩ scans, same, last⟩

/-- The reader returns the one record in the ring. -/
theorem scans_next (reach : State.Reaches cfg s) (ring : cfg.ring = some c)
    (here : s.reader.pc = .next) {r : Record} (one : s.log[s.popped.length]? = some r)
    (still : ∀ i, s.ring.storing i = 0) :
    ∃ mid m head, Scans cfg s mid ∧ mid.returned = s.returned ∧
      mid.step cfg (.reader 0 false) = some { s with
        mem := m, popped := s.popped ++ [.of r], returned := s.returned ++ [.of r]
        reader := { s.reader with head := head, stamped := true, pc := .next } } := by
  have sound := Ring.State.reaches_sound (State.reaches_ring ring reach)
  have below := (List.getElem?_eq_some_iff.mp one).1
  have done : s.ring.Published cfg.endian c s.popped.length := by
    rcases sound.claimed _ (Nat.le_refl _) below with done | pending
    · exact done
    · have storing := pending.2
      rw [still] at storing
      cases storing
  have ready : ringReady c s.mem s.reader.head = true := by
    have seq := done.1
    have head := sound.head
    simp only [Ring.State.slotSeq, State.ring] at seq head
    simp only [ringReady, head, c.index_ofNat, ofNat_succ, seq, decide_true]
  have went : s.step cfg (.reader 0 false) = some (s.goto (.pop .word)) := by
    simp only [State.step, ring, State.readerStep, here, ready, if_true]
  have moved := reach.next ⟨_, went⟩
  obtain ⟨mid, m, head, p, scans, same, last⟩ := scans_pop moved ring rfl Consumer.noConfusion
  have run : State.Reaches cfg mid := by
    obtain ⟨a, start, before⟩ := moved
    exact ⟨a, start, before.trans (Relation.ReflTransGen.mono (fun _ _ went => ⟨_, went.1⟩) _ _ scans)⟩
  have popped := congrArg (·[s.popped.length]?) (State.reaches_popped (run.next ⟨_, last⟩))
  have value : p = .of r := by
    simpa [State.goto, List.getElem?_take, one] using popped
  rw [value] at last
  exact ⟨mid, m, head, .head ⟨went, rfl⟩ scans, same, last⟩

end Gusset.Completion

namespace Gusset.System
open Foundation Wire Gusset.Ring

variable {cfg : Config} {s t : State}

def Runs (cfg : Config) : State → State → Prop :=
  Relation.ReflTransGen fun s t => ∃ a, s.step cfg a = some t

theorem Runs.reaches (run : Runs cfg s t) (reach : State.Reaches cfg s) : State.Reaches cfg t := by
  obtain ⟨a, start, before⟩ := reach
  exact ⟨a, start, before.trans run⟩

/-- The Go side moves alone. -/
theorem runs_go {go : Handle.State} {acts : List Handle.Act}
    (alone : ∀ a ∈ acts, goAlone s.reserved a = true)
    (run : follow (Handle.State.step cfg.handle) s.go acts = some go) :
    Runs cfg s { s with go := go } := by
  induction acts generalizing s with
  | nil =>
    cases run
    exact .refl
  | cons a rest ih =>
    obtain ⟨mid, went, later⟩ := Option.bind_eq_some_iff.mp run
    have first : s.step cfg (.go a) = some { s with go := mid } := by
      simp only [State.step, alone a List.mem_cons_self, if_true, went, Option.map_some]
    exact .head ⟨_, first⟩ (ih (s := { s with go := mid })
      (fun a member => alone a (List.mem_cons_of_mem _ member)) later)

theorem runs_works {i : Nat} {rust : Completion.State}
    (run : Completion.Works cfg.completion i s.rust rust) : Runs cfg s { s with rust := rust } := by
  refine Relation.ReflTransGen.lift (fun rust => { s with rust := rust }) ?_ _ _ run
  intro a b went
  refine ⟨.worker i false, ?_⟩
  simp only [State.step, went, Option.map_some]

theorem runs_scans {rust : Completion.State} (waits : s.go.reader = .next)
    (run : Completion.Scans cfg.completion s.rust rust) : Runs cfg s { s with rust := rust } := by
  refine Relation.ReflTransGen.lift (fun rust => { s with rust := rust }) ?_ _ _ run
  intro a b ⟨went, same⟩
  refine ⟨.read 0 false, ?_⟩
  simp only [State.step, State.read, waits, if_true, went, Option.bind_some, same,
    List.getElem?_eq_none (Nat.le_refl _)]

theorem step_consumes {n : Nat} {spent : Bool} {p : Popped} {go : Handle.State}
    {rust : Completion.State} (waits : s.go.reader = .next)
    (went : s.rust.step cfg.completion (.reader n spent) = some rust)
    (more : rust.returned = s.rust.returned ++ [p])
    (consumed : s.go.step cfg.handle (.reader (.consume p.ticket.toNat p.data)) = some go) :
    s.step cfg (.read n spent) = some { s with go := go, rust := rust } := by
  simp only [State.step, State.read, waits, if_true, went, Option.bind_some, more,
    List.getElem?_concat_length, consumed, Option.map_some]

/-- The id the counter stands at was never used on this handle. -/
theorem next_unused (reach : State.Reaches cfg s) :
    s.nextTicket ∉ s.go.hist.accepted ∧ s.nextTicket ∉ s.go.hist.consumed ∧
      s.nextTicket ∉ s.completing := by
  have books := State.reaches_tickets reach
  have fresh : s.nextTicket ∉ s.go.hist.accepted := by
    intro member
    exact Nat.lt_irrefl _ (books.issued _ member)
  have unbegun : s.nextTicket ∉ s.completing := by
    intro member
    have here := List.count_pos_iff.mpr member
    exact fresh (State.mem_accepted books (by omega))
  refine ⟨fresh, ?_, unbegun⟩
  intro consumed
  exact unbegun (State.returned_completing reach ((books.consumed _).mp consumed))

/-- A handle with two workers, this much in its queue and these ids reserved. -/
def pair (cfg : Config) (go : Handle.State) (rust : Completion.State) (next : Nat)
    (reserved : Nat → Option Id) (items : List WorkUnit) (job : Option WorkUnit) : State where
  go := go
  rust := rust
  nextTicket := next
  reserved := reserved
  queue := ⟨items, false, max (cfg.poolSize * 2) 1⟩
  jobs := [none, job]
  lost := []

variable {sem next : Nat} {held : Finset Nat} {l : List Handle.Thread} {h : Handle.History}
  {m : GoMap Nat Handle.CallResult} {rust : Completion.State} {id : Id}

theorem update_none (i : Nat) (x : Option Id) :
    Function.update (Function.update (fun _ => none) i x) i none = fun _ => none := by
  rw [Function.update_idem]
  exact Function.update_eq_self i fun _ => none

/-- A submission with a permit to spare is accepted and returned. -/
theorem runs_submits (room : sem < cfg.poolSize) (unbounded : cfg.maxUncollected = 0)
    (fresh : id.val ∉ h.accepted) (new : id.val ∉ m.keys) :
    ∃ l', Runs cfg (pair cfg (.quiet sem 0 held l h m) rust id.val (fun _ => none) [] none)
      (pair cfg (.quiet (sem + 1) 0 (insert id.val held) l' ((h.accept id.val).ret id.val) m) rust
        (id.val + 1) (fun _ => none) [⟨id, true⟩] none) := by
  have asks : Runs cfg (pair cfg (.quiet sem 0 held l h m) rust id.val (fun _ => none) [] none)
      (pair cfg (.quiet (sem + 1) 1 held (l ++ [⟨false, .ffiSubmit⟩]) h m) rust id.val
        (fun _ => none) [] none) := by
    refine runs_go ?_ (Handle.State.last_asks room unbounded)
    simp [goAlone]
  have reserved : (pair cfg (.quiet (sem + 1) 1 held (l ++ [⟨false, .ffiSubmit⟩]) h m) rust
      id.val (fun _ => none) [] none).step cfg (.reserve l.length) =
      some (pair cfg (.quiet (sem + 1) 1 held (l ++ [⟨false, .ffiSubmit⟩]) h m) rust (id.val + 1)
        (Function.update (fun _ => none) l.length (some id)) [] none) := by
    simp [State.step, State.reserveId, pair, Handle.State.quiet, id.property.1, id.property.2]
  have queued : (pair cfg (.quiet (sem + 1) 1 held (l ++ [⟨false, .ffiSubmit⟩]) h m) rust
      (id.val + 1) (Function.update (fun _ => none) l.length (some id)) [] none).step cfg
        (.send l.length true false) =
      some (pair cfg (.quiet (sem + 1) 1 held (l ++ [⟨false, .insert id.val⟩]) (h.accept id.val) m)
        rust (id.val + 1) (fun _ => none) [⟨id, true⟩] none) := by
    simp only [State.step, pair, Function.update_self, Option.bind_some, State.send, JobQueue.push,
      Bool.false_eq_true, if_false, List.length_nil, Nat.le_zero_eq, Nat.max_eq_zero_iff,
      Nat.one_ne_zero, and_false, Handle.State.last_answered fresh, Option.map_some, update_none,
      List.nil_append]
  have returned : Runs cfg
      (pair cfg (.quiet (sem + 1) 1 held (l ++ [⟨false, .insert id.val⟩]) (h.accept id.val) m)
        rust (id.val + 1) (fun _ => none) [⟨id, true⟩] none)
      (pair cfg (.quiet (sem + 1) 0 (insert id.val held) (l ++ [⟨false, .done (.ticket id.val)⟩])
        ((h.accept id.val).ret id.val) m) rust (id.val + 1) (fun _ => none) [⟨id, true⟩] none) := by
    refine runs_go ?_ (Handle.State.last_returns new)
    simp [goAlone]
  exact ⟨_, asks.trans (.head ⟨_, reserved⟩ (.head ⟨_, queued⟩ returned))⟩

/-- The second worker takes the unit and passes an empty result on through the ring. -/
theorem runs_completes {c : Capacity} {go : Handle.State} {first : Completion.Worker}
    (ring : cfg.ring = some c) (reach : State.Reaches cfg
      (pair cfg go rust next (fun _ => none) [⟨id, true⟩] none))
    (workers : rust.workers = [first, .idle]) (unannounced : rust.waiting = false)
    (new : ∀ j ∈ rust.begun, j.ticket ≠ id.word) (empty : rust.log.length = rust.popped.length) :
    ∃ mem results, Runs cfg (pair cfg go rust next (fun _ => none) [⟨id, true⟩] none)
      (pair cfg go { rust with
        mem := mem, results := results, workers := [first, .idle]
        begun := rust.begun ++ [WorkUnit.job ⟨id, true⟩ (.ok [])]
        log := rust.log ++ [(WorkUnit.job ⟨id, true⟩ (.ok [])).record cfg.completion] }
        next (fun _ => none) [] none) := by
  have popped : (pair cfg go rust next (fun _ => none) [⟨id, true⟩] none).step cfg (.pop 1) =
      some (pair cfg go rust next (fun _ => none) [] (some ⟨id, true⟩)) := by
    simp [State.step, pair, workers, JobQueue.pop]
  have begins : (pair cfg go rust next (fun _ => none) [] (some ⟨id, true⟩)).step cfg
      (.complete 1 (.ok [])) = some (pair cfg go { rust with
        workers := [first, .start (WorkUnit.job ⟨id, true⟩ (.ok []))]
        begun := rust.begun ++ [WorkUnit.job ⟨id, true⟩ (.ok [])] } next (fun _ => none) [] none) := by
    simpa [State.step, pair, workers, Completion.State.step, WorkUnit.job] using new
  have run : Runs cfg (pair cfg go rust next (fun _ => none) [⟨id, true⟩] none) _ :=
    .head ⟨_, popped⟩ (.single ⟨_, begins⟩)
  have slots := c.slots_pos
  obtain ⟨mem, results, works⟩ := Completion.works_completes (i := 1)
    (j := WorkUnit.job ⟨id, true⟩ (.ok [])) (State.reaches_rust (run.reaches reach)) ring
    (by simp only [pair]; omega) unannounced rfl
  exact ⟨mem, results, run.trans (runs_works works)⟩

/-- The reader takes the record off the ring and stores its result, and the permit is back. -/
theorem runs_delivers {c : Capacity} {r : Record} (ring : cfg.ring = some c)
    (reach : State.Reaches cfg
      (pair cfg (.quiet (sem + 1) 0 (insert id.val held) l h m) rust next (fun _ => none) [] none))
    (here : rust.reader.pc = .next) (one : rust.log[rust.popped.length]? = some r)
    (still : ∀ i, rust.ring.storing i = 0) (ticket : r.ticket = id.word) (inline : r.data = some [])
    (accepted : id.val ∈ h.accepted) (unread : id.val ∉ h.consumed) (other : id.val ∉ held) :
    ∃ mem reader h', Runs cfg
      (pair cfg (.quiet (sem + 1) 0 (insert id.val held) l h m) rust next (fun _ => none) [] none)
      (pair cfg (.quiet sem 0 held l h' (m.insert id.val ⟨[], none⟩)) { rust with
        mem := mem, popped := rust.popped ++ [.of r], returned := rust.returned ++ [.of r]
        reader := reader } next (fun _ => none) [] none) ∧ reader.pc = .next := by
  obtain ⟨mid, mem, head, scans, same, last⟩ :=
    Completion.scans_next (State.reaches_rust reach) ring here one still
  have scanned : Runs cfg
      (pair cfg (.quiet (sem + 1) 0 (insert id.val held) l h m) rust next (fun _ => none) [] none)
      (pair cfg (.quiet (sem + 1) 0 (insert id.val held) l h m) mid next (fun _ => none) [] none) :=
    runs_scans rfl scans
  have consumed : (pair cfg (.quiet (sem + 1) 0 (insert id.val held) l h m) mid next
      (fun _ => none) [] none).step cfg (.read 0 false) =
      some (pair cfg { Handle.State.quiet (sem + 1) 0 (insert id.val held) l (h.consume id.val) m with
          reader := .deliver id.val ⟨[], none⟩ 0 } { rust with
        mem := mem, popped := rust.popped ++ [.of r], returned := rust.returned ++ [.of r]
        reader := { rust.reader with head := head, stamped := true, pc := .next } } next
        (fun _ => none) [] none) := by
    refine step_consumes rfl last (congrArg (· ++ [Popped.of r]) same.symm) ?_
    simp only [Popped.of, ticket, Id.word_toNat, inline]
    exact Handle.State.quiet_consumes accepted unread []
  obtain ⟨h', delivers⟩ :=
    Handle.State.quiet_delivers cfg.handle sem l (h.consume id.val) m other []
  refine ⟨mem, { rust.reader with head := head, stamped := true, pc := .next }, h',
    scanned.trans (.head ⟨_, consumed⟩ (runs_go ?_ delivers)), rfl⟩
  simp [goAlone]

/-- The first ticket's worker stands still where `first` says, and the next `n` tickets have gone
through the ring. -/
structure Rolls (cfg : Config) (first : Completion.Worker) (n : Nat) (l : List Handle.Thread)
    (h : Handle.History) (m : GoMap Nat Handle.CallResult) (rust : Completion.State) : Prop where
  reach : State.Reaches cfg (pair cfg (.quiet 1 0 {1} l h m) rust (n + 2) (fun _ => none) [] none)
  workers : rust.workers = [first, .idle]
  unannounced : rust.waiting = false
  reader : rust.reader.pc = .next
  log : rust.log.length = n
  popped : rust.popped.length = n
  stored : ∀ t ∈ m.keys, t < n + 2

/-- One more ticket goes through. -/
theorem Rolls.one_more {c : Capacity} {first : Completion.Worker} {n : Nat}
    (rolls : Rolls cfg first n l h m rust) (room : 1 < cfg.poolSize)
    (unbounded : cfg.maxUncollected = 0) (ring : cfg.ring = some c)
    (aside : ∀ i, first.producer.storing i = 0) (low : n + 2 < idCeiling) :
    ∃ l' h' m' rust', Rolls cfg first (n + 1) l' h' m' rust' := by
  obtain ⟨fresh, unread, unbegun⟩ := next_unused rolls.reach
  have new : n + 2 ∉ m.keys := fun member => Nat.lt_irrefl _ (rolls.stored _ member)
  have id : { id : Id // id.val = n + 2 } := ⟨⟨n + 2, Nat.succ_pos _, low⟩, rfl⟩
  obtain ⟨id, value⟩ := id
  have reach := rolls.reach
  rw [← value] at fresh unread unbegun new reach
  obtain ⟨l', submits⟩ := runs_submits room unbounded fresh new
  have submitted := submits.reaches reach
  have unused : ∀ j ∈ rust.begun, j.ticket ≠ id.word := by
    intro j member same
    have equal : j.ticket.toNat = id.val := by rw [same, Id.word_toNat]
    exact unbegun (List.mem_map.mpr ⟨j, member, equal⟩)
  obtain ⟨mem, results, completes⟩ := runs_completes ring submitted rolls.workers
    rolls.unannounced unused (rolls.log.trans rolls.popped.symm)
  have completed := completes.reaches submitted
  have data : ((WorkUnit.job ⟨id, true⟩ (.ok [])).record cfg.completion).data = some [] := by
    simp [Completion.Job.record, WorkUnit.job, Config.completion, ring]
  have at_end : (rust.log ++ [(WorkUnit.job ⟨id, true⟩ (.ok [])).record cfg.completion])[
      rust.popped.length]? = some ((WorkUnit.job ⟨id, true⟩ (.ok [])).record cfg.completion) := by
    rw [rolls.popped, ← rolls.log]
    exact List.getElem?_concat_length
  obtain ⟨mem', reader, h', delivers, waits⟩ := runs_delivers ring completed rolls.reader at_end
    (by
      intro i
      simp only [Completion.State.ring, Ring.State.storing, List.map_cons, List.map_nil,
        census_cons, census_nil, aside]
      rfl)
    (Completion.Job.record_ticket cfg.completion _) data (Finset.mem_insert_self _ _) unread
    (by simp [value])
  have done := delivers.reaches completed
  rw [value] at done
  refine ⟨l', h', _, _, done, rfl, rolls.unannounced, waits, ?_, ?_, ?_⟩
  · simp [rolls.log]
  · simp [rolls.popped]
  · intro t member
    rcases Finset.mem_insert.mp member with rfl | old
    · exact Nat.lt_succ_self _
    · exact Nat.lt_succ_of_lt (rolls.stored t old)

theorem Rolls.many {c : Capacity} {first : Completion.Worker} (rolls : Rolls cfg first 0 l h m rust)
    (room : 1 < cfg.poolSize) (unbounded : cfg.maxUncollected = 0) (ring : cfg.ring = some c)
    (aside : ∀ i, first.producer.storing i = 0) {n : Nat} (low : n + 1 < idCeiling) :
    ∃ l' h' m' rust', Rolls cfg first n l' h' m' rust' := by
  induction n with
  | zero => exact ⟨l, h, m, rust, rolls⟩
  | succ n ih =>
    obtain ⟨l', h', m', rust', before⟩ := ih (Nat.lt_of_succ_lt low)
    exact before.one_more room unbounded ring aside low

/-- Three permits and a ring, which has four slots. -/
def Config.three : Config where
  poolSize := 3
  least := by decide
  most := by decide
  maxUncollected := 0
  endian := .little
  canGrow := true
  grow := fun n => n ≤ 65536
  inlineOk := true
  sized := by decide
  pipeBytes := 65536
  attached := true

theorem Config.three_ring : ∃ c, Config.three.ring = some c ∧ c.slots = 4 :=
  ⟨_, rfl, rfl⟩

def firstId : Id := ⟨1, by decide, by decide⟩

def firstJob : Completion.Job := WorkUnit.job ⟨firstId, true⟩ (.ok [])

/-- The first ticket's worker has read the tail. -/
def stalled : Completion.Worker :=
  .publish firstJob (.look (firstJob.record Config.three.completion) 0 0)

def twoWorkers : Completion.State :=
  { Completion.State.opened Config.three.completion with workers := [.idle, .idle] }

theorem three_rolls : ∃ l h m rust, Rolls .three stalled 0 l h m rust := by
  have spawned : Runs .three (.opened .three)
      (pair .three (.quiet 0 0 ∅ [] .empty ⟨∅, fun _ => ⟨[], none⟩⟩) twoWorkers firstId.val
        (fun _ => none) [] none) :=
    .head ⟨.spawn, rfl⟩ (.single ⟨.spawn, rfl⟩)
  have submits : ∃ l, Runs .three
      (pair .three (.quiet 0 0 ∅ [] .empty ⟨∅, fun _ => ⟨[], none⟩⟩) twoWorkers firstId.val
        (fun _ => none) [] none)
      (pair .three (.quiet 1 0 {1} l ((Handle.History.empty.accept 1).ret 1)
        ⟨∅, fun _ => ⟨[], none⟩⟩) twoWorkers 2 (fun _ => none) [⟨firstId, true⟩] none) :=
    runs_submits (by decide) rfl (by decide) (by decide)
  obtain ⟨l, submits⟩ := submits
  have works : Runs .three
      (pair .three (.quiet 1 0 {1} l ((Handle.History.empty.accept 1).ret 1)
        ⟨∅, fun _ => ⟨[], none⟩⟩) twoWorkers 2 (fun _ => none) [⟨firstId, true⟩] none)
      (pair .three (.quiet 1 0 {1} l ((Handle.History.empty.accept 1).ret 1)
        ⟨∅, fun _ => ⟨[], none⟩⟩) { twoWorkers with
          workers := [stalled, .idle], begun := [firstJob] } 2 (fun _ => none) [] none) :=
    .head ⟨.pop 0, rfl⟩ (.head ⟨.complete 0 (.ok []), rfl⟩
      (.head ⟨.worker 0 false, rfl⟩ (.single ⟨.worker 0 false, rfl⟩)))
  have reach := works.reaches (submits.reaches (spawned.reaches (.start rfl)))
  exact ⟨l, _, _, _, reach, rfl, rfl, rfl, rfl, rfl, by simp⟩

/-- After `2 ^ 63 - 3` more tickets the slot of position 0 is free for position `2 ^ 63`. -/
theorem stalled_slot {c : Capacity} (ring : Config.three.ring = some c) (slots : c.slots = 4)
    {l : List Handle.Thread} {h : Handle.History} {m : GoMap Nat Handle.CallResult}
    {rust : Completion.State} (rolls : Rolls .three stalled (2 ^ 63 - 3) l h m rust) :
    rust.mem.seq (c.index 0) = .ofNat 64 (2 ^ 63) := by
  have sound := Ring.State.reaches_sound
    (Completion.State.reaches_ring ring (State.reaches_rust rolls.reach))
  obtain ⟨i, low, high, even, value⟩ := sound.slot 0
  have popped : rust.popped.length = 2 ^ 63 - 3 := rolls.popped
  have log : rust.log.length = 2 ^ 63 - 3 := rolls.log
  simp only [Completion.State.ring, pair, popped, log, slots] at low high even value
  have position : i = 2 ^ 63 := by omega
  have index : c.index 0 = 0 := by
    have first := c.index_ofNat 0
    rwa [Nat.zero_mod] at first
  rcases value with old | ⟨below, _⟩
  · rw [position] at old
    simpa only [Ring.State.slotSeq, Nat.zero_mod, index] using old
  · omega

/-- Without its conditions the bounds can be reached. A pipe that cannot be grown can be too short
for the inline records the code lets into it. And a worker that stops after reading the tail, while
`2 ^ 63 - 3` further tickets go through, takes an empty ring for a full one. -/
theorem bounds_reached :
    (¬ ∀ (cfg : Config) (s : State), State.Reaches cfg s → s.go.sh.drainExited = false →
      cfg.attached = false → grantedBytes cfg.poolSize cfg.canGrow cfg.grow ≤ cfg.pipeBytes →
      ∀ (i : Nat) (j : Completion.Job), s.rust.workers[i]? = some (.write j) →
        s.rust.pipe.length + (j.record cfg.completion).size ≤ cfg.pipeBytes) ∧
    ¬ ∀ (cfg : Config) (s : State), State.Reaches cfg s → s.go.sh.drainExited = false →
      cfg.attached = true → ∀ (i : Nat) weak (j : Completion.Job) r pos seen t,
        s.rust.workers[i]? = some (.publish j (.look r pos seen)) →
        s.rust.step cfg.completion (.worker i weak) = some t → t.workers[i]? ≠ some (.full j) := by
  refine ⟨State.short_pipe_fills, ?_⟩
  intro lands
  obtain ⟨c, ring, slots⟩ := Config.three_ring
  obtain ⟨_, _, _, _, start⟩ := three_rolls
  have runs : ∃ l h m rust, Rolls .three stalled (2 ^ 63 - 3) l h m rust :=
    start.many (by decide) rfl ring (fun _ => rfl) (by decide)
  obtain ⟨l, h, m, rust, rolls⟩ := runs
  have seq := stalled_slot ring slots rolls
  have behind : (BitVec.ofNat 64 (2 ^ 63) - 0 : Word).toInt < 0 := by decide
  have went : rust.step Config.three.completion (.worker 0 false) =
      some { rust with workers := [.full firstJob, .idle] } := by
    simp only [Completion.State.step, Completion.State.workerStep, rolls.workers, stalled,
      List.getElem?_cons_zero, Config.completion, ring, Option.bind_some, Producer.step, seq,
      if_neg (Int.ne_of_lt behind), if_pos behind, Option.map_some, Option.toList_none,
      List.append_nil, List.set_cons_zero, Completion.State.published]
  exact lands .three _ rolls.reach rfl rfl 0 false firstJob _ 0 0 _
    (by simp only [pair, rolls.workers]; rfl) went rfl

end Gusset.System
