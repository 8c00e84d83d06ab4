import Gusset.Completion.Accounts

/-! The ring inside a running handle: what workers and reader do to it is a run of the ring. -/
namespace Gusset.Completion
open Foundation Wire Gusset.Ring

def Worker.producer : Worker → Producer
  | .publish _ p => p
  | _ => .idle

def ReaderPc.consumer : ReaderPc → Consumer
  | .pop k => k
  | _ => .idle

def State.ring (s : State) : Ring.State where
  mem := s.mem
  head := s.reader.head
  producers := s.workers.map Worker.producer
  consumer := s.reader.pc.consumer
  log := s.log
  popped := s.popped

variable {cfg : Config} {c : Capacity} {s t : State} {i : Nat}

theorem Turn.consumer {p q : ReaderPc} (turn : Turn cfg s p q) :
    q.consumer = p.consumer ∨ (p = .next ∧ q = .pop .word ∧
      ∃ c, cfg.ring = some c ∧ ringReady c s.mem s.reader.head = true) := by
  cases turn with
  | ready c ring yes => exact .inr ⟨rfl, rfl, c, ring, yes⟩
  | wait none =>
    left
    unfold State.waitRing
    split <;> rfl
  | _ => exact .inl rfl

theorem Fill.consumer {p q : ReaderPc} {n : Nat} (fill : Fill s p n q) :
    q.consumer = p.consumer := by
  cases fill with
  | missed before n same =>
    unfold State.waitRing
    split <;> rfl
  | _ => rfl

/-- Only the store that frees the slot returns a record. -/
theorem Consumer.step_returns {e : Endian} {m m' : Memory} {head head' : Word} {k k' : Consumer}
    {p : Popped} (went : k.step e c m head = some (m', head', k', some p)) : k' = .idle := by
  cases k with
  | free w data =>
    cases went
    rfl
  | payload w n got =>
    simp only [Ring.Consumer.step] at went
    split at went <;> cases went
  | _ => cases went

theorem Writes.producer {w v : Worker} {r : Record} (writes : Writes cfg w r v) :
    v.producer = w.producer := by
  cases writes <;> rfl

theorem published_producer (j : Job) (q : Producer) :
    (State.published j q).producer = q ∨
      (∃ b, q = .done b) ∧ (State.published j q).producer = .idle := by
  cases q with
  | done b => cases b <;> exact .inr ⟨⟨_, rfl⟩, rfl⟩
  | _ => exact .inl rfl

theorem WorkerMove.ring (move : WorkerMove cfg s i t) (attached : cfg.ring = some c)
    (few : s.log.length < 2 ^ 63) :
    Relation.ReflTransGen (Ring.State.Steps cfg.endian c) s.ring t.ring := by
  -- A worker outside `try_publish` before and after.
  have aside : ∀ {w v : Worker}, s.workers[i]? = some w → v.producer = w.producer →
      (s.workers.set i v).map Worker.producer = s.workers.map Worker.producer :=
    fun here same => map_set_same Worker.producer here same
  cases move with
  | direct j here alone =>
    rw [attached] at alone
    cases alone
  | begin c' j here ring =>
    have idle : s.ring.producers[i]? = some .idle := by
      simp only [State.ring, List.getElem?_map, here]
      rfl
    refine .single ⟨.begin i (j.record cfg), trivial, ?_⟩
    simp only [Ring.State.step, idle]
    simp only [State.ring, List.map_set]
    rfl
  | stall => exact .refl
  | write w r after here writes room =>
    simp only [State.ring, aside here writes.producer]
    exact .refl
  | publish c' j p weak m q claim here ring moved =>
    cases attached.symm.trans ring
    have place : s.ring.producers[i]? = some p := by
      simp only [State.ring, List.getElem?_map, here]
      rfl
    have bound : i < s.ring.producers.length := (List.getElem?_eq_some_iff.mp place).1
    have fresh : s.ring.Fresh (.producer i weak) := by
      intro p' found
      cases place.symm.trans found
      cases p with
      | swap r pos seen => exact Nat.lt_of_lt_of_le few (by omega)
      | _ => trivial
    have went : s.ring.step cfg.endian c (.producer i weak) = some { s.ring with
        mem := m, producers := s.ring.producers.set i q, log := s.log ++ claim.toList } := by
      simp only [Ring.State.step, Ring.State.producerStep, place, Option.bind_some]
      exact congrArg (Option.map _) moved
    rcases published_producer j q with same | ⟨⟨b, rfl⟩, gone⟩
    · refine .single ⟨_, fresh, went.trans ?_⟩
      simp only [State.ring, List.map_set, same]
    · refine .tail (.single ⟨_, fresh, went⟩) ⟨.leave i, trivial, ?_⟩
      simp only [Ring.State.step, List.getElem?_set_self bound, List.set_set]
      simp only [State.ring, List.map_set, gone]
  | load here =>
    have same := aside here (v := if s.waiting then .swap else .idle) (by split <;> rfl)
    simp only [State.ring, same]
    exact .refl
  | swap here =>
    have same := aside here (v := if s.waiting then .token else .idle) (by split <;> rfl)
    simp only [State.ring, same]
    exact .refl
  | full j here =>
    simp only [State.ring, aside here (v := .spill j) rfl]
    exact .refl
  | note here =>
    simp only [State.ring, aside here (v := .idle) rfl]
    exact .refl

theorem ReaderMove.ring (move : ReaderMove cfg s t) (attached : cfg.ring = some c) :
    Relation.ReflTransGen (Ring.State.Steps cfg.endian c) s.ring t.ring := by
  -- A step outside `popRing`, as the ring sees it.
  have aside : ∀ {u : State}, u.ring = { s.ring with consumer := u.reader.pc.consumer } →
      u.reader.pc.consumer = s.reader.pc.consumer →
      Relation.ReflTransGen (Ring.State.Steps cfg.endian c) s.ring u.ring := by
    intro u rest same
    rw [rest, same]
    exact .refl
  cases move with
  | turn pc turn =>
    rcases turn.consumer with same | ⟨before, rfl, c', ring, ready⟩
    · exact aside rfl same
    · cases attached.symm.trans ring
      have idle : s.ring.consumer = .idle := by
        simp only [State.ring, before]
        rfl
      refine .single ⟨.check, trivial, ?_⟩
      simp only [Ring.State.step, if_pos idle]
      simp only [State.ring, ready, if_true]
      rfl
  | read c' k k' m head here ring moved =>
    cases attached.symm.trans ring
    refine .single ⟨.consumer, trivial, ?_⟩
    have reads : s.ring.consumer.step cfg.endian c s.ring.mem s.ring.head =
        some (m, head, k', none) := by
      simp only [State.ring, here]
      exact moved
    simp only [Ring.State.step, Ring.State.consumerStep, reads, Option.map_some,
      Option.toList_none, List.append_nil]
    rfl
  | pop c' k k' m head p here ring moved =>
    cases attached.symm.trans ring
    cases Consumer.step_returns moved
    refine .single ⟨.consumer, trivial, ?_⟩
    have frees : s.ring.consumer.step cfg.endian c s.ring.mem s.ring.head =
        some (m, head, .idle, some p) := by
      simp only [State.ring, here]
      exact moved
    simp only [Ring.State.step, Ring.State.consumerStep, frees, Option.map_some,
      Option.toList_some]
    rfl
  | token size here found => exact aside rfl (by rw [here]; rfl)
  | record p size seen pc here found =>
    have same : pc.consumer = s.reader.pc.consumer := by
      rcases here with ⟨before, rfl, _⟩ | ⟨failed, before, rfl⟩ <;> rw [before] <;> rfl
    exact aside rfl same
  | fill n pc fits some_bytes fill => exact aside rfl fill.consumer
  | announce here => exact aside rfl (by rw [here]; rfl)
  | retract failed here =>
    have same : (if failed then ReaderPc.failed else .next).consumer = s.reader.pc.consumer := by
      rw [here]
      split <;> rfl
    exact aside rfl same

theorem Move.ring (move : Move cfg s t) (attached : cfg.ring = some c)
    (few : s.log.length < 2 ^ 63) :
    Relation.ReflTransGen (Ring.State.Steps cfg.endian c) s.ring t.ring := by
  cases move with
  | spawn =>
    refine .single ⟨.spawn, trivial, ?_⟩
    simp only [Ring.State.step, State.ring, List.map_append]
    rfl
  | complete i j here new =>
    have same := map_set_same Worker.producer here (b := .start j) rfl
    simp only [State.ring, same]
    exact .refl
  | worker i move => exact move.ring attached few
  | reader move => exact move.ring attached
  | take k r found => exact .refl
  | missing => exact .refl

/-- The runs of a handle that is open and whose pipe works. -/
abbrev State.Reaches (cfg : Config) : State → Prop :=
  Reachable (· = .opened cfg) fun s t => ∃ a, s.step cfg a = some t

theorem State.follow_reaches {acts : List Act} (reach : State.Reaches cfg s)
    (run : follow (State.step cfg) s acts = some t) : State.Reaches cfg t :=
  reach.follow (fun _ a _ went => ⟨a, went⟩) run

theorem State.reaches_accounts (reach : State.Reaches cfg s) : Accounts cfg s := by
  apply reach.invariant
  · rintro _ rfl
    exact opened_accounts cfg
  · rintro s t books ⟨a, went⟩
    exact (step_moves went).accounts books

theorem State.reaches_ring (attached : cfg.ring = some c) (reach : State.Reaches cfg s) :
    Ring.State.Reaches cfg.endian c s.ring := by
  apply reach.simulate
  · rintro _ rfl
    simp only [State.ring, State.opened, attached]
    rfl
  · rintro s t before ⟨a, went⟩
    exact (step_moves went).ring attached (reaches_accounts before).few

/-- A handle with the least ring. -/
def Config.small : Config := ⟨.little, some .least, true, 4096⟩

def Job.failing (t : Nat) (issued : 0 < t) (low : t < 2 ^ 63) : Job :=
  ⟨.ofNat 64 t, .err "", false, by rw [BitVec.toNat_ofNat]; omega, by
    intro zero
    have value : t % 2 ^ 64 = 0 := by simpa using congrArg BitVec.toNat zero
    omega⟩

theorem Job.one_low : 1 < 2 ^ 63 := by decide

theorem Job.two_low : 2 < 2 ^ 63 := by decide

def Act.workers (i n : Nat) : List Act := List.replicate n (.worker i false)

-- Each read gets what there is, and a spin ends at its first look at the clock.
def Act.readers (n : Nat) : List Act := List.replicate n (.reader bufBytes true)

end Gusset.Completion
