import Gusset.Ring.Progress

/-! The ring as a bounded queue of many producers and one reader. -/
namespace Gusset.Ring
open Foundation Wire

namespace State

variable {e : Endian} {c : Capacity} {s t : State}

/-- A position is claimed by the call whose record it is, and by nobody else. -/
theorem step_claims {a : Act} (went : s.step e c a = some t) :
    t.log = s.log ∨ ∃ (i : Nat) (r : Record) (pos : Word) (seen : Nat),
      s.producers[i]? = some (.swap r pos seen) ∧ t.producers[i]? = some (.store r pos seen 0) ∧
      t.log = s.log ++ [r] := by
  cases a with
  | producer i weak =>
    simp only [step, producerStep, Option.bind_eq_some_iff, Option.map_eq_some_iff] at went
    obtain ⟨p, here, ⟨m, q, out⟩, moved, rfl⟩ := went
    cases out with
    | none => exact .inl (List.append_nil _)
    | some r =>
      obtain ⟨pos, seen, rfl, rfl⟩ := Producer.step_claims moved
      exact .inr ⟨i, r, pos, seen, here, by rw [getElem?_set_of_some here, if_pos rfl], rfl⟩
  | spawn =>
    cases went
    exact .inl rfl
  | begin i r | leave i =>
    simp only [step] at went
    split at went
    · cases went
      exact .inl rfl
    · cases went
  | check =>
    simp only [step] at went
    split at went
    · cases went
      exact .inl rfl
    · cases went
  | consumer =>
    simp only [step, consumerStep, Option.map_eq_some_iff] at went
    obtain ⟨_, _, rfl⟩ := went
    exact .inl rfl

/-- A bounded queue of many producers and one reader, over runs in which no compare-exchange works
on a tail read `2 ^ 64` claims ago: the reader returns the records whole and in the order of their
positions, each once, and all of them once no producer is in the middle of one; each call that
claimed a position writes its own record there, alone and before the position is popped, and no
published slot is overwritten; a call whose tail is recent enough is refused only by a full ring;
and a call that answers true is one that claimed a position, for its own record, and has written all
of it. -/
theorem bounded_queue (reach : Reaches e c s) :
    s.popped = (s.log.take s.popped.length).map Popped.of ∧
    s.popped.length ≤ s.log.length ∧ s.log.length ≤ s.popped.length + c.slots ∧
    (∀ (i : Nat) r pos seen k, s.producers[i]? = some (.store r pos seen k) →
      s.log[seen]? = some r ∧ s.popped.length ≤ seen ∧
      ∀ (j : Nat) r' pos' k', s.producers[j]? = some (.store r' pos' seen k') → j = i) ∧
    (∀ i r, s.popped.length ≤ i → s.log[i]? = some r →
      s.mem.seq (i % c.slots) = .ofNat 64 (i + 1) →
      ∀ k w, (r.words e)[k]? = some w → s.mem.words (i % c.slots) k = w) ∧
    ((∀ p ∈ s.producers, ∀ r pos seen k, p ≠ .store r pos seen k) →
      ∃ t, Relation.ReflTransGen (Reader e c) s t ∧ t.popped = s.log.map Popped.of) ∧
    (∀ i weak r pos seen t, s.producers[i]? = some (.look r pos seen) →
      s.log.length + c.slots ≤ seen + 2 ^ 63 → s.step e c (.producer i weak) = some t →
      t.producers[i]? = some (.done false) → s.log.length = s.popped.length + c.slots) ∧
    (∀ a t, s.step e c a = some t →
      t.log = s.log ∨ ∃ (i : Nat) (r : Record) (pos : Word) (seen : Nat),
        s.producers[i]? = some (.swap r pos seen) ∧ t.producers[i]? = some (.store r pos seen 0) ∧
        t.log = s.log ++ [r]) ∧
    ∀ (i : Nat) weak t, s.step e c (.producer i weak) = some t →
      t.producers[i]? = some (.done true) → ∃ (r : Record) (pos : Word) (seen k : Nat),
        s.producers[i]? = some (.store r pos seen k) ∧ s.log[seen]? = some r ∧
        (r.words e)[k]? = none := by
  have sound := reaches_sound reach
  refine ⟨sound.popped, sound.front, sound.room, ?_, ?_, ?_, ?_, fun a t went => step_claims went, ?_⟩
  · intro i r pos seen k here
    obtain ⟨_, after, logged, _⟩ := sound.producers _ (List.mem_of_getElem? here)
    exact ⟨logged, after, fun j r' pos' k' there => sound.writer_unique there here⟩
  · intro i r low found seq k w word
    have below := (List.getElem?_eq_some_iff.mp found).1
    have fits := c.fits
    rcases sound.claimed i low below with done | pending
    · exact done.2.2 r found (k + 1) k w (Nat.lt_succ_self k) word
    · have equal := ofNat_inj (pending.1.symm.trans seq) (by omega) (by omega)
      omega
  · intro still
    have quiet : ∀ i, s.storing i = 0 := by
      intro i
      apply census_eq_zero
      intro p member
      by_contra writes
      obtain ⟨r, pos, k, rfl⟩ := Producer.storing_pos (Nat.pos_of_ne_zero writes)
      exact still _ member r pos i k rfl
    obtain ⟨t, run, all, _⟩ := sound.drain quiet
    exact ⟨t, run, all⟩
  · intro i weak r pos seen t here recent went refused
    obtain ⟨rfl, known⟩ := sound.producers _ (List.mem_of_getElem? here)
    simp only [State.step, State.producerStep, here, Option.bind_some, Option.map_eq_some_iff]
      at went
    obtain ⟨out, moved, rfl⟩ := went
    have bound := (List.getElem?_eq_some_iff.mp here).1
    simp only [List.getElem?_set_self bound] at refused
    simp only [Producer.step, c.index_ofNat] at moved
    split at moved
    · cases moved
      cases refused
    · split at moved
      · rename_i behind
        exact sound.look_full known recent behind
      · cases moved
        cases refused
  · intro i weak t went published
    simp only [step, producerStep, Option.bind_eq_some_iff, Option.map_eq_some_iff] at went
    obtain ⟨p, here, ⟨m, q, out⟩, moved, rfl⟩ := went
    rw [getElem?_set_of_some here, if_pos rfl] at published
    cases published
    obtain ⟨r, pos, seen, k, rfl, whole⟩ := Producer.step_published moved
    obtain ⟨_, _, logged, _⟩ := sound.producers _ (List.mem_of_getElem? here)
    exact ⟨r, pos, seen, k, here, logged, whole⟩

instance (s : State) : (a : Act) → Decidable (s.Fresh a)
  | .producer i _ => inferInstanceAs (Decidable (∀ p ∈ s.producers[i]?, p.Fresh s.log.length))
  | .spawn | .begin _ _ | .leave _ | .check | .consumer => isTrue trivial

/-- A run given by its actions. -/
def follows (e : Endian) (c : Capacity) (s : State) (acts : List Act) : Option State :=
  follow (fun s a => if s.Fresh a then s.step e c a else none) s acts

theorem follows_reaches {e : Endian} {c : Capacity} {s t : State} {acts : List Act}
    (reach : Reaches e c s) (run : follows e c s acts = some t) : Reaches e c t := by
  apply reach.follow _ run
  intro s a t went
  obtain ⟨fresh, moved⟩ := Option.ite_none_right_eq_some.mp went
  exact ⟨a, fresh, moved⟩

def bare (t : Nat) (low : t < 2 ^ 63) : Record :=
  ⟨.ofNat 64 t, none, by rw [BitVec.toNat_ofNat]; omega, Record.short_none⟩

-- One whole `try_publish` by producer 0 on a ring with room.
def publishActs (r : Record) : List Act :=
  .begin 0 r :: List.replicate 5 (Act.producer 0 false) ++ ([.leave 0] : List Act)

def filled : Option State :=
  follows .little .least .new (([.spawn] : List Act) ++ publishActs (bare 1 (by decide)) ++
    publishActs (bare 2 (by decide)) ++
    ([.begin 0 (bare 3 (by decide)), .producer 0 false] : List Act))

theorem filled_runs : filled.isSome = true := by decide

/-- Two records fill the least ring, and the third is refused. -/
theorem bounded_queue_filled :
    (filled.get filled_runs).log.length = (filled.get filled_runs).popped.length + 2 := by
  have reach : Reaches .little .least (filled.get filled_runs) :=
    follows_reaches (.start rfl) (Option.some_get _).symm
  have refuses := (bounded_queue reach).2.2.2.2.2.2.1
  exact refuses 0 false (bare 3 (by decide)) 2 2 _ (by decide) (by decide) rfl (by decide)

/-- The producer that has only read the tail, beside an idle one. -/
def stalled : Option State :=
  follows .little .least .new [.spawn, .spawn, .begin 0 (bare 1 (by decide)), .producer 0 false]

theorem stalled_runs : stalled.isSome = true := by decide

/-- A call that stops after reading the tail, while `2 ^ 63 - 1` records pass, takes the empty ring
for a full one. -/
theorem stale_tail_refused :
    ¬ ∀ (s : State) (i : Nat) (weak : Bool) (r : Record) (pos : Word) (seen : Nat) (t : State),
      Reachable (· = .new) (fun s t => ∃ a, s.step .little .least a = some t) s →
      s.producers[i]? = some (.look r pos seen) →
      s.step .little .least (.producer i weak) = some t → t.producers[i]? = some (.done false) →
      s.log.length = s.popped.length + Capacity.least.slots := by
  intro refuses
  have reach : Reaches .little .least (stalled.get stalled_runs) :=
    follows_reaches (.start rfl) (Option.some_get _).symm
  have sound := reaches_sound reach
  obtain ⟨t, run, producers, _, log, popped⟩ := sound.passes (i := 1) (by decide) (by decide)
    (by decide) (fun i => rfl) (bare 2 (by decide)) (2 ^ 63 - 1)
  have kept := steps_sound sound run
  have logged : t.log.length = 2 ^ 63 - 1 := by
    rw [log]
    rfl
  have emptied : t.popped.length = 2 ^ 63 - 1 := by
    rw [popped]
    rfl
  have here : t.producers[0]? = some (.look (bare 1 (by decide)) 0 0) := by
    rw [producers]
    decide
  have slots : Capacity.least.slots = 2 := rfl
  obtain ⟨i, low, high, even, value⟩ := kept.slot 0
  rw [slots] at high even
  have position : i = 2 ^ 63 := by omega
  have seq : t.mem.seq (Capacity.least.index 0) = .ofNat 64 (2 ^ 63) := by
    rcases value with old | ⟨below, _⟩
    · rw [position] at old
      exact old
    · omega
  obtain ⟨start, rfl, before⟩ := reach
  have reached : Reachable (· = .new) (fun s t => ∃ a, s.step .little .least a = some t) t :=
    ⟨.new, rfl, Relation.ReflTransGen.mono (fun _ _ ⟨a, _, went⟩ => ⟨a, went⟩) _ _ (before.trans run)⟩
  have went : t.step .little .least (.producer 0 false) =
      some { t with producers := t.producers.set 0 (.done false) } := by
    have behind : (BitVec.ofNat 64 (2 ^ 63) - 0 : Word).toInt < 0 := by decide
    simp only [State.step, State.producerStep, here, Option.bind_some, Producer.step, seq,
      if_neg (Int.ne_of_lt behind), if_pos behind, Option.map_some, Option.toList_none,
      List.append_nil]
  have full := refuses t 0 false _ 0 0 _ reached here went
    (List.getElem?_set_self (List.getElem?_eq_some_iff.mp here).1)
  omega

end State

end Gusset.Ring
