import Gusset.Ring.Runs

/-! What the reader alone, or one producer alone, gets done. -/
namespace Gusset.Ring
open Foundation Wire

namespace State

/-- A step of the reader alone. -/
def Reader (e : Endian) (c : Capacity) (s t : State) : Prop :=
  s.step e c .check = some t ∨ s.step e c .consumer = some t

end State

-- Accesses left until `popRing` returns.
def Consumer.left : Consumer → Nat
  | .idle | .corrupt _ => 0
  | .word => 11
  | .length _ => 10
  | .payload _ n got => 2 + (padded n / 8 - got.length)
  | .free _ _ => 1

/-- `popRing` always goes on, and returns exactly with the store that frees the slot. -/
theorem Consumer.step_left (e : Endian) (c : Capacity) (m : Memory) (head : Word) {k : Consumer}
    (busy : k ≠ .idle) (fine : ∀ n, k ≠ .corrupt n) :
    ∃ m' head' k' out, k.step e c m head = some (m', head', k', out) ∧ k'.left < k.left ∧
      ((k' = .idle ∧ ∃ v, out = some v) ∨ (k' ≠ .idle ∧ out = none)) := by
  cases k with
  | idle => exact absurd rfl busy
  | corrupt n => exact absurd rfl (fine n)
  | word =>
    refine ⟨_, _, _, _, rfl, ?_, .inr ⟨?_, rfl⟩⟩
    · split <;> simp [left]
    · split <;> exact Consumer.noConfusion
  | length w =>
    refine ⟨_, _, _, _, rfl, ?_, .inr ⟨?_, rfl⟩⟩
    · split
      · simp [left]
      · rename_i short
        have most := padded_mono (Nat.le_of_not_gt short)
        have top : padded inlineResultMax = 48 := rfl
        simp only [left, List.length_nil]
        omega
    · split <;> exact Consumer.noConfusion
  | payload w n got =>
    by_cases more : got.length < padded n / 8
    · refine ⟨_, _, _, _, if_pos more, ?_, .inr ⟨Consumer.noConfusion, rfl⟩⟩
      simp only [left, List.length_append, List.length_singleton]
      omega
    · refine ⟨_, _, _, _, if_neg more, ?_, .inr ⟨Consumer.noConfusion, rfl⟩⟩
      simp only [left]
      omega
  | free w data => exact ⟨_, _, _, _, rfl, by simp [left], .inl ⟨rfl, _, rfl⟩⟩

namespace State

variable {e : Endian} {c : Capacity} {s t : State}

/-- `popRing` returns, whatever the producers do meanwhile: it waits for nothing. -/
theorem Sound.finish (sound : s.Sound e c) (busy : s.consumer ≠ .idle) :
    ∃ t, Relation.ReflTransGen (Reader e c) s t ∧ t.Sound e c ∧ t.consumer = .idle ∧
      t.log = s.log ∧ t.producers = s.producers ∧ t.popped.length = s.popped.length + 1 := by
  induction left : s.consumer.left using Nat.strong_induction_on generalizing s with
  | _ n ih =>
    have fine : ∀ n, s.consumer ≠ .corrupt n := by
      intro n bad
      obtain ⟨_, r, _, reads⟩ := sound.consumer busy
      rw [bad] at reads
      exact reads
    obtain ⟨m, head, k, out, moved, less, ended⟩ :=
      Consumer.step_left e c s.mem s.head busy fine
    have went : s.step e c .consumer = some { s with
        mem := m, head := head, consumer := k, popped := s.popped ++ out.toList } := by
      simp only [State.step, State.consumerStep, moved, Option.map_some]
    have kept := sound.step (a := .consumer) trivial went
    rcases ended with ⟨idle, v, rfl⟩ | ⟨on, rfl⟩
    · refine ⟨_, .single (.inr went), kept, idle, rfl, rfl, ?_⟩
      rw [Option.toList_some, List.length_append, List.length_singleton]
    · obtain ⟨t, run, rest⟩ := ih _ (left ▸ less) kept on rfl
      refine ⟨t, .head (.inr went) run, ?_⟩
      simpa only [Option.toList_none, List.append_nil] using rest

/-- With no producer in the middle of a record, the reader alone empties the ring. -/
theorem Sound.drain (sound : s.Sound e c) (still : ∀ i, s.storing i = 0) :
    ∃ t, Relation.ReflTransGen (Reader e c) s t ∧ t.popped = s.log.map Popped.of ∧
      t.consumer = .idle ∧ t.log = s.log ∧ t.producers = s.producers := by
  induction left : s.log.length - s.popped.length using Nat.strong_induction_on generalizing s with
  | _ n ih =>
    -- A call of `popRing` that has begun takes one record off, and the rest is shorter.
    have pass : ∀ u : State, u.Sound e c → u.consumer ≠ .idle → u.log = s.log →
        u.popped = s.popped → u.producers = s.producers →
        ∃ t, Relation.ReflTransGen (Reader e c) u t ∧ t.popped = s.log.map Popped.of ∧
          t.consumer = .idle ∧ t.log = s.log ∧ t.producers = s.producers := by
      intro u kept busy log popped producers
      obtain ⟨_, r, found, _⟩ := kept.consumer busy
      have below := (List.getElem?_eq_some_iff.mp found).1
      obtain ⟨v, run, after, _, log', producers', more⟩ := kept.finish busy
      rw [log, popped] at below
      rw [popped] at more
      rw [log] at log'
      rw [producers] at producers'
      obtain ⟨t, later, rest⟩ := ih (v.log.length - v.popped.length) (by
        rw [log']
        omega) after (by
        intro i
        rw [State.storing, producers']
        exact still i) rfl
      rw [log', producers'] at rest
      exact ⟨t, run.trans later, rest⟩
    by_cases idle : s.consumer = .idle
    · rcases Nat.lt_or_ge s.popped.length s.log.length with below | past
      · have done : s.Published e c s.popped.length := by
          rcases sound.claimed _ (Nat.le_refl _) below with done | pending
          · exact done
          · have one := pending.2
            rw [still] at one
            cases one
        have ready : ringReady c s.mem s.head = true := by
          have seq := done.1
          simp only [slotSeq] at seq
          simp only [ringReady, sound.head, c.index_ofNat, ofNat_succ, seq, decide_true]
        have went : s.step e c .check = some { s with consumer := .word } := by
          simp only [State.step, if_pos idle, ready, if_true]
        have kept := sound.step (a := .check) trivial went
        obtain ⟨t, run, all⟩ := pass _ kept Consumer.noConfusion rfl rfl rfl
        exact ⟨t, run.head (.inl went), all⟩
      · refine ⟨s, .refl, ?_, idle, rfl, rfl⟩
        have whole := sound.popped
        rwa [List.take_of_length_le past] at whole
    · exact pass s sound idle rfl rfl rfl

theorem Reader.steps (went : Reader e c s t) : Steps e c s t := by
  rcases went with checked | took
  · exact ⟨.check, trivial, checked⟩
  · exact ⟨.consumer, trivial, took⟩

variable {i : Nat}

theorem fresh_at {p : Producer} {weak : Bool} (here : s.producers[i]? = some p)
    (fresh : p.Fresh s.log.length) : s.Fresh (.producer i weak) := by
  intro q found
  cases here.symm.trans found
  exact fresh

end State

/-- A producer alone: the ring's memory, the records claimed so far, and where it stands. -/
structure Solo where
  mem : Memory
  log : List Record
  producer : Producer

/-- One access of a producer alone. -/
def Solo.Step (e : Endian) (c : Capacity) (a b : Solo) : Prop :=
  a.producer.Fresh a.log.length ∧ ∃ claim, b.log = a.log ++ claim.toList ∧
    a.producer.step e c a.mem a.log.length false = some (b.mem, b.producer, claim)

/-- A producer that has claimed its position publishes it. -/
theorem Solo.stores (e : Endian) (c : Capacity) (m : Memory) (log : List Record) (r : Record)
    (pos : Word) (seen k : Nat) :
    ∃ m', Relation.ReflTransGen (Solo.Step e c) ⟨m, log, .store r pos seen k⟩
      ⟨m', log, .done true⟩ := by
  induction left : (r.words e).length - k generalizing m k with
  | zero =>
    have last : (r.words e)[k]? = none := List.getElem?_eq_none_iff.mpr (by omega)
    refine ⟨m.setSeq (c.index pos) (pos + 1), .single ⟨trivial, none, ?_, ?_⟩⟩
    · exact (List.append_nil log).symm
    · simp only [Producer.step, last]
  | succ n ih =>
    have below : k < (r.words e).length := by omega
    have word := List.getElem?_eq_getElem below
    obtain ⟨m', run⟩ := ih (m.setWord (c.index pos) k (r.words e)[k]) (k + 1) (by omega)
    refine ⟨m', .head ⟨trivial, none, ?_, ?_⟩ run⟩
    · exact (List.append_nil log).symm
    · simp only [Producer.step, word]

/-- A producer alone on a ring with room publishes its record, at the next position. -/
theorem Solo.publishes (e : Endian) {c : Capacity} {m : Memory} {log : List Record}
    (tail : m.tail = .ofNat 64 log.length)
    (free : m.seq (log.length % c.slots) = .ofNat 64 log.length) (r : Record) :
    ∃ m', Relation.ReflTransGen (Solo.Step e c) ⟨m, log, .load r⟩ ⟨m', log ++ [r], .done true⟩ := by
  have same : log = log ++ (none : Option Record).toList := (List.append_nil log).symm
  have loaded : Solo.Step e c ⟨m, log, .load r⟩
      ⟨m, log, .look r (.ofNat 64 log.length) log.length⟩ := by
    refine ⟨trivial, none, same, ?_⟩
    simp only [Producer.step, tail]
  have looked : Solo.Step e c ⟨m, log, .look r (.ofNat 64 log.length) log.length⟩
      ⟨m, log, .swap r (.ofNat 64 log.length) log.length⟩ := by
    refine ⟨trivial, none, same, ?_⟩
    simp only [Producer.step, c.index_ofNat, free, BitVec.sub_self, BitVec.toInt_zero, if_true]
  have swapped : Solo.Step e c ⟨m, log, .swap r (.ofNat 64 log.length) log.length⟩
      ⟨{ m with tail := .ofNat 64 log.length + 1 }, log ++ [r],
        .store r (.ofNat 64 log.length) log.length 0⟩ := by
    refine ⟨Nat.lt_add_of_pos_right (by decide), some r, rfl, ?_⟩
    simp only [Producer.step, tail, and_self, if_true]
  obtain ⟨m', run⟩ := Solo.stores e c { m with tail := .ofNat 64 log.length + 1 } (log ++ [r]) r
    (.ofNat 64 log.length) log.length 0
  exact ⟨m', .head loaded (.head looked (.head swapped run))⟩

namespace State

variable {e : Endian} {c : Capacity} {s t : State} {i : Nat}

/-- What a producer does alone, it does in any ring at that point. -/
theorem steps_solo {a b : Solo} (run : Relation.ReflTransGen (Solo.Step e c) a b)
    (mem : s.mem = a.mem) (log : s.log = a.log) (here : s.producers[i]? = some a.producer) :
    Relation.ReflTransGen (Steps e c) s
      { s with mem := b.mem, log := b.log, producers := s.producers.set i b.producer } := by
  have bound := (List.getElem?_eq_some_iff.mp here).1
  induction run with
  | refl =>
    obtain ⟨_, idle⟩ := List.getElem?_eq_some_iff.mp here
    rw [← mem, ← log, ← idle, List.set_getElem_self]
  | tail before move ih =>
    obtain ⟨fresh, claim, claims, moved⟩ := move
    refine ih.tail ⟨.producer i false, fresh_at (List.getElem?_set_self bound) fresh, ?_⟩
    simp only [State.step, State.producerStep, List.getElem?_set_self bound, Option.bind_some,
      moved, Option.map_some, List.set_set, claims]

/-- A producer publishes its record on a ring with room. -/
theorem Sound.publishes (sound : s.Sound e c) (here : s.producers[i]? = some .idle)
    (room : s.log.length < s.popped.length + c.slots) (r : Record) :
    ∃ t, Relation.ReflTransGen (Steps e c) s t ∧ t.producers = s.producers ∧
      t.log = s.log ++ [r] ∧ t.popped = s.popped ∧ t.consumer = s.consumer := by
  have bound := (List.getElem?_eq_some_iff.mp here).1
  have began : Steps e c s { s with producers := s.producers.set i (.load r) } :=
    ⟨.begin i r, trivial, by simp only [State.step, here]⟩
  obtain ⟨m, alone⟩ := Solo.publishes e sound.tail
    (sound.free s.log.length (Nat.le_refl _) room) r
  have run := steps_solo (s := { s with producers := s.producers.set i (.load r) }) alone rfl rfl
    (List.getElem?_set_self bound)
  simp only [List.set_set] at run
  refine ⟨{ s with mem := m, log := s.log ++ [r] }, .head began (run.tail ⟨.leave i, trivial, ?_⟩),
    rfl, rfl, rfl, rfl⟩
  obtain ⟨_, idle⟩ := List.getElem?_eq_some_iff.mp here
  simp only [State.step, List.getElem?_set_self bound, List.set_set]
  rw [← idle, List.set_getElem_self]

/-- Records go through an empty ring one by one, as often as one likes, past every other call. -/
theorem Sound.passes (sound : s.Sound e c) (here : s.producers[i]? = some .idle)
    (idle : s.consumer = .idle) (empty : s.log.length = s.popped.length)
    (still : ∀ i, s.storing i = 0) (r : Record) (n : Nat) :
    ∃ t, Relation.ReflTransGen (Steps e c) s t ∧ t.producers = s.producers ∧ t.consumer = .idle ∧
      t.log.length = s.log.length + n ∧ t.popped.length = s.popped.length + n := by
  induction n with
  | zero => exact ⟨s, .refl, rfl, idle, rfl, rfl⟩
  | succ n ih =>
    obtain ⟨u, run, producers, waits, log, popped⟩ := ih
    have kept := steps_sound sound run
    have slots := c.slots_pos
    obtain ⟨v, wrote, producers', log', popped', _⟩ := kept.publishes (producers ▸ here)
      (by omega) r
    obtain ⟨t, drained, all, free, log'', producers''⟩ := (steps_sound kept wrote).drain (by
      intro i
      rw [State.storing, producers', producers]
      exact still i)
    refine ⟨t, (run.trans wrote).trans
      (Relation.ReflTransGen.mono (fun _ _ => Reader.steps) _ _ drained), ?_, free, ?_, ?_⟩
    · rw [producers'', producers', producers]
    · rw [log'', log', List.length_append, List.length_singleton]
      omega
    · rw [all, List.length_map, log', List.length_append, List.length_singleton]
      omega

end State

end Gusset.Ring
