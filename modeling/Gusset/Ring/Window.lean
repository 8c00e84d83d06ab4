import Gusset.Foundation.Census
import Gusset.Foundation.Modular
import Gusset.Ring.Memory

/-! The window of live positions. Positions `[popped, popped + slots)` own one slot each; those
below the tail are being written or published, the others are free. -/
namespace Gusset.Ring
open Foundation Wire

theorem Capacity.index_ofNat (c : Capacity) (i : Nat) : c.index (.ofNat 64 i) = i % c.slots := by
  obtain ⟨k, hk⟩ := c.pow
  have fits := c.fits
  have two := c.two
  have below : k ≤ 64 := by
    by_contra above
    have big := Nat.pow_le_pow_right (n := 2) (by decide) (Nat.le_of_lt (Nat.lt_of_not_ge above))
    omega
  have turns : c.slots ∣ 2 ^ 64 := hk ▸ Nat.pow_dvd_pow 2 below
  unfold index mask
  rw [BitVec.toNat_and, BitVec.toNat_ofNat, BitVec.toNat_ofNat,
    Nat.mod_eq_of_lt (show c.slots - 1 < 2 ^ 64 by omega), hk, Nat.and_two_pow_sub_one_eq_mod,
    ← hk, Nat.mod_mod_of_dvd _ turns]

theorem Capacity.slots_pos (c : Capacity) : 0 < c.slots := by
  have two := c.two
  omega

/-- The result `popRing` should return for a record. -/
def Popped.of (r : Record) : Popped := ⟨r.ticket, r.data⟩

/-- The slot of position `i` has the first `k` words of a record. -/
def Memory.Holds (e : Endian) (c : Capacity) (m : Memory) (i k : Nat) (r : Record) : Prop :=
  ∀ j w, j < k → (r.words e)[j]? = some w → m.words (i % c.slots) j = w

namespace Producer

-- Writing position `i`.
def storing (i : Nat) : Producer → Nat
  | .store _ _ seen _ => if seen = i then 1 else 0
  | _ => 0

/-- What a producer may rely on when `popped` positions are free again. -/
def Sound (e : Endian) (c : Capacity) (m : Memory) (log : List Record) (popped : Nat) :
    Producer → Prop
  | .look _ pos seen => pos = .ofNat 64 seen ∧ seen ≤ log.length
  | .swap _ pos seen => pos = .ofNat 64 seen ∧ seen ≤ log.length ∧ seen < popped + c.slots
  | .store r pos seen k =>
    pos = .ofNat 64 seen ∧ popped ≤ seen ∧ log[seen]? = some r ∧ m.Holds e c seen k r
  | _ => True

end Producer

/-- What `popRing` has read so far, of the record at the head. -/
def Consumer.Reads (e : Endian) (r : Record) : Consumer → Prop
  | .idle => True
  | .word => True
  | .length w => ∃ d, r.data = some d ∧ w = r.ticket ||| inlineRecordFlag
  | .payload w n got => ∃ d, r.data = some d ∧ w = r.ticket ||| inlineRecordFlag ∧ n = d.length ∧
      got.length ≤ padded n / 8 ∧ got = ((r.words e).drop 2).take got.length
  | .free w data => w = r.ticket ∧ data = r.data
  | .corrupt _ => False

namespace State

variable (e : Endian) (c : Capacity) (s : State)

def slotSeq (i : Nat) : Word := s.mem.seq (i % c.slots)

def storing (i : Nat) : Nat := census (Producer.storing i) s.producers

/-- Position `i` is published: its record is in its slot, whole. -/
def Published (i : Nat) : Prop :=
  s.slotSeq c i = .ofNat 64 (i + 1) ∧ s.storing i = 0 ∧
    ∀ r, s.log[i]? = some r → ∀ k, s.mem.Holds e c i k r

def Pending (i : Nat) : Prop := s.slotSeq c i = .ofNat 64 i ∧ s.storing i = 1

structure Sound : Prop where
  tail : s.mem.tail = .ofNat 64 s.log.length
  head : s.head = .ofNat 64 s.popped.length
  front : s.popped.length ≤ s.log.length
  room : s.log.length ≤ s.popped.length + c.slots
  free : ∀ i, s.log.length ≤ i → i < s.popped.length + c.slots →
    s.slotSeq c i = .ofNat 64 i
  claimed : ∀ i, s.popped.length ≤ i → i < s.log.length → s.Published e c i ∨ s.Pending c i
  producers : ∀ p ∈ s.producers, p.Sound e c s.mem s.log s.popped.length
  consumer : s.consumer ≠ .idle → s.Published e c s.popped.length ∧
    ∃ r, s.log[s.popped.length]? = some r ∧ s.consumer.Reads e r
  popped : s.popped = (s.log.take s.popped.length).map Popped.of

end State

variable {e : Endian} {c : Capacity} {s : State}

theorem State.storing_unclaimed (sound : s.Sound e c) {i : Nat} (past : s.log.length ≤ i) :
    s.storing i = 0 := by
  apply census_eq_zero
  intro p hp
  have good := sound.producers p hp
  cases p with
  | store r pos seen k =>
    obtain ⟨_, _, logged, _⟩ := good
    have bound := (List.getElem?_eq_some_iff.mp logged).1
    have other : seen ≠ i := by omega
    simp [Producer.storing, other]
  | _ => rfl

/-- One position of a window does not share its slot with another. -/
theorem Capacity.apart (c : Capacity) {low i j : Nat} (hi : low ≤ i) (hi' : i < low + c.slots)
    (hj : low ≤ j) (hj' : j < low + c.slots) (differ : i ≠ j) : i % c.slots ≠ j % c.slots :=
  fun same => differ (window_unique hi hi' hj hj' same)

namespace Producer

variable {m m' : Memory} {log log' : List Record} {popped : Nat} {p : Producer}

theorem storing_pos {i : Nat} (writes : 0 < p.storing i) : ∃ r pos k, p = .store r pos i k := by
  cases p with
  | store r pos seen k =>
    by_cases here : seen = i
    · exact ⟨r, pos, k, by rw [here]⟩
    · simp [storing, here] at writes
  | _ => simp [storing] at writes

theorem sound_grow {r : Record} (good : p.Sound e c m log popped) :
    p.Sound e c m (log ++ [r]) popped := by
  cases p with
  | look r pos seen =>
    refine ⟨good.1, ?_⟩
    have bound := good.2
    rw [List.length_append]
    omega
  | swap r pos seen =>
    refine ⟨good.1, ?_, good.2.2⟩
    have bound := good.2.1
    rw [List.length_append]
    omega
  | store r pos seen k =>
    obtain ⟨same, after, logged, holds⟩ := good
    have bound := (List.getElem?_eq_some_iff.mp logged).1
    exact ⟨same, after, by rw [List.getElem?_append_left bound, logged], holds⟩
  | _ => trivial

/-- A change of memory that keeps the words of the slots being written. -/
theorem sound_memory (good : p.Sound e c m log popped)
    (words : ∀ r pos seen k, p = .store r pos seen k →
      m'.words (seen % c.slots) = m.words (seen % c.slots)) :
    p.Sound e c m' log popped := by
  cases p with
  | store r pos seen k =>
    obtain ⟨same, after, logged, holds⟩ := good
    refine ⟨same, after, logged, ?_⟩
    intro j w below found
    rw [words r pos seen k rfl]
    exact holds j w below found
  | _ => exact good

end Producer

/-- Only the slot of a position, its writers and its record decide whether it is published. -/
theorem State.Published.carry {s' : State} {i : Nat} (done : s.Published e c i)
    (seq : s'.slotSeq c i = s.slotSeq c i) (writers : s'.storing i = s.storing i)
    (record : s'.log[i]? = s.log[i]?)
    (words : s'.mem.words (i % c.slots) = s.mem.words (i % c.slots)) : s'.Published e c i := by
  obtain ⟨now, free, holds⟩ := done
  refine ⟨seq.trans now, writers.trans free, ?_⟩
  intro r found k j w short word
  rw [words]
  exact holds r (record.symm.trans found) k j w short word

namespace State.Sound

/-- A position being written has one writer and is not published. -/
theorem writer (sound : s.Sound e c) {i : Nat} {r : Record} {pos : Word} {seen k : Nat}
    (here : s.producers[i]? = some (.store r pos seen k)) :
    s.Pending c seen ∧ s.popped.length ≤ seen ∧ seen < s.log.length := by
  obtain ⟨_, after, logged, _⟩ := sound.producers _ (List.mem_of_getElem? here)
  have bound := (List.getElem?_eq_some_iff.mp logged).1
  have counted := le_census (Producer.storing seen) here
  refine ⟨?_, after, bound⟩
  rcases sound.claimed seen after bound with published | pending
  · have none := published.2.1
    simp only [State.storing] at none
    simp only [Producer.storing, if_pos] at counted
    omega
  · exact pending

/-- Two producers never write one position. -/
theorem writer_unique (sound : s.Sound e c) {i j : Nat} {r r' : Record} {pos pos' : Word}
    {seen k k' : Nat} (hi : s.producers[i]? = some (.store r pos seen k))
    (hj : s.producers[j]? = some (.store r' pos' seen k')) : i = j := by
  have one := (sound.writer hi).1.2
  exact index_unique (Producer.storing seen) (Nat.le_of_eq one) hi hj (by simp [Producer.storing])
    (by simp [Producer.storing])

theorem regroup (sound : s.Sound e c) {ps : List Producer}
    (same : ∀ i, census (Producer.storing i) ps = s.storing i)
    (good : ∀ p ∈ ps, p.Sound e c s.mem s.log s.popped.length) :
    ({ s with producers := ps } : State).Sound e c := by
  have count : ∀ i, ({ s with producers := ps } : State).storing i = s.storing i := same
  exact {
    tail := sound.tail
    head := sound.head
    front := sound.front
    room := sound.room
    free := sound.free
    claimed := by
      intro i low high
      simp only [Published, Pending, count]
      exact sound.claimed i low high
    producers := good
    consumer := by
      intro busy
      simp only [Published, count]
      exact sound.consumer busy
    popped := sound.popped }

/-- A producer that moves without writing. -/
theorem move (sound : s.Sound e c) {i : Nat} {p q : Producer} (here : s.producers[i]? = some p)
    (before : ∀ n, p.storing n = 0) (after : ∀ n, q.storing n = 0)
    (good : q.Sound e c s.mem s.log s.popped.length) :
    ({ s with producers := s.producers.set i q } : State).Sound e c := by
  apply sound.regroup
  · intro n
    exact census_set_same _ here (by rw [before, after])
  · intro p' hp'
    rcases mem_set_cases hp' with rfl | ⟨j, _, hj⟩
    · exact good
    · exact sound.producers p' (List.mem_of_getElem? hj)

theorem spawn (sound : s.Sound e c) :
    ({ s with producers := s.producers ++ [.idle] } : State).Sound e c := by
  apply sound.regroup
  · intro n
    rw [census_concat]
    rfl
  · intro p hp
    rcases List.mem_append.mp hp with old | new
    · exact sound.producers p old
    · rw [List.mem_singleton.mp new]
      trivial

/-- The next free position is claimed by a successful compare-exchange. -/
theorem claim (sound : s.Sound e c) {i : Nat} {r : Record}
    (here : s.producers[i]? = some (.swap r (.ofNat 64 s.log.length) s.log.length)) :
    ({ s with
      mem := { s.mem with tail := .ofNat 64 s.log.length + 1 }
      producers := s.producers.set i (.store r (.ofNat 64 s.log.length) s.log.length 0)
      log := s.log ++ [r] } : State).Sound e c := by
  obtain ⟨_, _, room⟩ := sound.producers _ (List.mem_of_getElem? here)
  have front := sound.front
  have others : ∀ n, n < s.log.length →
      census (Producer.storing n) (s.producers.set i
        (.store r (.ofNat 64 s.log.length) s.log.length 0)) = s.storing n := by
    intro n below
    exact census_set_same _ here (by simp [Producer.storing, Nat.ne_of_gt below])
  exact {
    tail := by
      rw [ofNat_succ, List.length_append]
      rfl
    head := sound.head
    front := by
      rw [List.length_append]
      exact Nat.le_add_right_of_le front
    room := by
      rw [List.length_append]
      exact room
    free := by
      intro n past below
      rw [List.length_append] at past
      exact sound.free n (Nat.le_of_succ_le past) below
    claimed := by
      intro n low high
      rw [List.length_append] at high
      rcases Nat.lt_succ_iff_lt_or_eq.mp high with old | rfl
      · rcases sound.claimed n low old with done | pending
        · exact .inl (done.carry rfl (others n old) (List.getElem?_append_left old) rfl)
        · exact .inr ⟨pending.1, (others n old).trans pending.2⟩
      · right
        refine ⟨sound.free _ (Nat.le_refl _) room, ?_⟩
        have counted := census_set (Producer.storing s.log.length) here
          (.store r (.ofNat 64 s.log.length) s.log.length 0)
        have none := storing_unclaimed sound (Nat.le_refl s.log.length)
        simp only [State.storing, Producer.storing, if_pos] at counted none ⊢
        omega
    producers := by
      intro p hp
      rcases mem_set_cases hp with rfl | ⟨j, _, hj⟩
      · refine ⟨rfl, front, by simp, ?_⟩
        intro j w below
        omega
      · exact Producer.sound_grow (sound.producers p (List.mem_of_getElem? hj))
    consumer := by
      intro busy
      obtain ⟨done, r', found, reads⟩ := sound.consumer busy
      have below := (List.getElem?_eq_some_iff.mp found).1
      have same : (s.log ++ [r])[s.popped.length]? = _ := List.getElem?_append_left below
      exact ⟨done.carry rfl (others _ below) same rfl, r', same.trans found, reads⟩
    popped := by
      rw [List.take_append_of_le_length front]
      exact sound.popped }

/-- A position being written keeps apart from every other live position. -/
theorem apart (sound : s.Sound e c) {i : Nat} {r : Record} {pos : Word} {seen k n : Nat}
    (here : s.producers[i]? = some (.store r pos seen k)) (low : s.popped.length ≤ n)
    (high : n < s.popped.length + c.slots) (differ : n ≠ seen) : n % c.slots ≠ seen % c.slots := by
  obtain ⟨_, after, below⟩ := sound.writer here
  have room := sound.room
  exact c.apart low high after (Nat.lt_of_lt_of_le below room) differ

theorem differs (sound : s.Sound e c) {i : Nat} {r : Record} {pos : Word} {seen k n : Nat}
    (here : s.producers[i]? = some (.store r pos seen k)) (done : s.Published e c n) :
    n ≠ seen := by
  rintro rfl
  have one := (sound.writer here).1.2
  have none := done.2.1
  omega

/-- One word of a record is stored. -/
theorem write (sound : s.Sound e c) {i : Nat} {r : Record} {pos : Word} {seen k : Nat} {w : Word}
    (here : s.producers[i]? = some (.store r pos seen k)) (next : (r.words e)[k]? = some w) :
    ({ s with
      mem := s.mem.setWord (c.index pos) k w
      producers := s.producers.set i (.store r pos seen (k + 1)) } : State).Sound e c := by
  obtain ⟨_, after, below⟩ := sound.writer here
  obtain ⟨rfl, _, logged, holds⟩ := sound.producers _ (List.mem_of_getElem? here)
  have room := sound.room
  have count : ∀ n, census (Producer.storing n) (s.producers.set i
      (.store r (.ofNat 64 seen) seen (k + 1))) = s.storing n := by
    intro n
    exact census_set_same _ here rfl
  have elsewhere : ∀ n, s.popped.length ≤ n → n < s.log.length → n ≠ seen →
      (s.mem.setWord (c.index (.ofNat 64 seen)) k w).words (n % c.slots) =
        s.mem.words (n % c.slots) := by
    intro n low high differ
    simp only [Memory.setWord, c.index_ofNat]
    rw [Function.update_of_ne (sound.apart here low (by omega) differ)]
  exact {
    tail := sound.tail
    head := sound.head
    front := sound.front
    room := room
    free := sound.free
    claimed := by
      intro n low high
      rcases sound.claimed n low high with done | pending
      · exact .inl (done.carry rfl (count n) rfl (elsewhere n low high (sound.differs here done)))
      · exact .inr ⟨pending.1, (count n).trans pending.2⟩
    producers := by
      intro p hp
      rcases mem_set_cases hp with rfl | ⟨j, differ, hj⟩
      · refine ⟨rfl, after, logged, ?_⟩
        intro j w' short word
        simp only [Memory.setWord, c.index_ofNat, Function.update_self]
        by_cases last : j = k
        · subst last
          rw [next] at word
          rw [Function.update_self, Option.some.inj word]
        · rw [Function.update_of_ne last]
          exact holds j w' (by omega) word
      · apply Producer.sound_memory (sound.producers p (List.mem_of_getElem? hj))
        rintro r' pos' seen' k' rfl
        obtain ⟨_, after', below'⟩ := sound.writer hj
        apply elsewhere seen' after' below'
        rintro rfl
        exact differ (sound.writer_unique hj here)
    consumer := by
      intro busy
      obtain ⟨done, r', found, reads⟩ := sound.consumer busy
      have high := (List.getElem?_eq_some_iff.mp found).1
      have kept := elsewhere _ (Nat.le_refl _) high (sound.differs here done)
      exact ⟨done.carry rfl (count _) rfl kept, r', found, reads⟩
    popped := sound.popped }

/-- The last store of `try_publish`: the record is whole and its position published. -/
theorem publish (sound : s.Sound e c) {i : Nat} {r : Record} {pos : Word} {seen k : Nat}
    (here : s.producers[i]? = some (.store r pos seen k)) (last : (r.words e)[k]? = none) :
    ({ s with
      mem := s.mem.setSeq (c.index pos) (pos + 1)
      producers := s.producers.set i (.done true) } : State).Sound e c := by
  obtain ⟨⟨_, one⟩, after, below⟩ := sound.writer here
  obtain ⟨rfl, _, logged, holds⟩ := sound.producers _ (List.mem_of_getElem? here)
  have room := sound.room
  have count : ∀ n, n ≠ seen → census (Producer.storing n) (s.producers.set i (.done true)) =
      s.storing n := by
    intro n differ
    exact census_set_same _ here (by simp [Producer.storing, Ne.symm differ])
  have elsewhere : ∀ n, s.popped.length ≤ n → n < s.popped.length + c.slots → n ≠ seen →
      (s.mem.setSeq (c.index (.ofNat 64 seen)) (.ofNat 64 seen + 1)).seq (n % c.slots) =
        s.slotSeq c n := by
    intro n low high differ
    simp only [Memory.setSeq, c.index_ofNat]
    rw [Function.update_of_ne (sound.apart here low high differ)]
    rfl
  have fresh : ({ s with
      mem := s.mem.setSeq (c.index (.ofNat 64 seen)) (.ofNat 64 seen + 1)
      producers := s.producers.set i (.done true) } : State).Published e c seen := by
    refine ⟨?_, ?_, ?_⟩
    · simp only [slotSeq, Memory.setSeq, c.index_ofNat, Function.update_self, ofNat_succ]
    · have counted := census_set (Producer.storing seen) here (.done true)
      simp only [State.storing, Producer.storing, if_pos] at counted one ⊢
      omega
    · intro r' found k' j w _ word
      rw [logged] at found
      cases found
      apply holds j w _ word
      have bound := (List.getElem?_eq_some_iff.mp word).1
      have ended := List.getElem?_eq_none_iff.mp last
      omega
  exact {
    tail := sound.tail
    head := sound.head
    front := sound.front
    room := room
    free := by
      intro n past high
      have differ : n ≠ seen := Nat.ne_of_gt (Nat.lt_of_lt_of_le below past)
      exact (elsewhere n (Nat.le_trans sound.front past) high differ).trans (sound.free n past high)
    claimed := by
      intro n low high
      by_cases same : n = seen
      · exact .inl (same ▸ fresh)
      · have seq := elsewhere n low (Nat.lt_of_lt_of_le high room) same
        rcases sound.claimed n low high with done | pending
        · exact .inl (done.carry seq (count n same) rfl rfl)
        · exact .inr ⟨seq.trans pending.1, (count n same).trans pending.2⟩
    producers := by
      intro p hp
      rcases mem_set_cases hp with rfl | ⟨j, _, hj⟩
      · trivial
      · exact Producer.sound_memory (sound.producers p (List.mem_of_getElem? hj))
          fun _ _ _ _ _ => rfl
    consumer := by
      intro busy
      obtain ⟨done, r', found, reads⟩ := sound.consumer busy
      have high := (List.getElem?_eq_some_iff.mp found).1
      have differ := sound.differs here done
      have seq := elsewhere _ (Nat.le_refl _) (by omega) differ
      exact ⟨done.carry seq (count _ differ) rfl rfl, r', found, reads⟩
    popped := sound.popped }

/-- The reader reads on, with the record at the head in its slot. -/
theorem read (sound : s.Sound e c) {q : Consumer} {r : Record}
    (done : s.Published e c s.popped.length) (found : s.log[s.popped.length]? = some r)
    (reads : q.Reads e r) : ({ s with consumer := q } : State).Sound e c where
  tail := sound.tail
  head := sound.head
  front := sound.front
  room := sound.room
  free := sound.free
  claimed := sound.claimed
  producers := sound.producers
  consumer := fun _ => ⟨done, r, found, reads⟩
  popped := sound.popped

/-- The store that hands the slot at the head back to the producers. -/
theorem pop (sound : s.Sound e c) {r : Record} (done : s.Published e c s.popped.length)
    (found : s.log[s.popped.length]? = some r) :
    ({ s with
      mem := s.mem.setSeq (c.index s.head) (s.head + .ofNat 64 c.slots)
      head := s.head + 1
      consumer := .idle
      popped := s.popped ++ [Popped.of r] } : State).Sound e c := by
  have below := (List.getElem?_eq_some_iff.mp found).1
  have room := sound.room
  have slots := c.slots_pos
  have elsewhere : ∀ n, s.popped.length < n → n < s.popped.length + c.slots →
      (s.mem.setSeq (c.index s.head) (s.head + .ofNat 64 c.slots)).seq (n % c.slots) =
        s.slotSeq c n := by
    intro n low high
    simp only [Memory.setSeq, sound.head, c.index_ofNat]
    rw [Function.update_of_ne (c.apart (Nat.le_of_lt low) high (Nat.le_refl _) (by omega)
      (Nat.ne_of_gt low))]
    rfl
  exact {
    tail := sound.tail
    head := by
      rw [List.length_append, sound.head, ofNat_succ]
      rfl
    front := by
      rw [List.length_append]
      exact below
    room := by
      simp only [List.length_append, List.length_singleton]
      omega
    free := by
      intro n past high
      simp only [List.length_append, List.length_singleton] at high
      by_cases last : n = s.popped.length + c.slots
      · simp only [slotSeq, Memory.setSeq, sound.head, c.index_ofNat]
        rw [last, Nat.add_mod_right, Function.update_self, ← BitVec.ofNat_add]
      · have seq := elsewhere n (Nat.lt_of_lt_of_le below past) (by omega)
        exact seq.trans (sound.free n past (by omega))
    claimed := by
      intro n low high
      simp only [List.length_append, List.length_singleton] at low
      have seq := elsewhere n low (Nat.lt_of_lt_of_le high room)
      rcases sound.claimed n (Nat.le_of_lt low) high with old | pending
      · exact .inl (old.carry seq rfl rfl rfl)
      · exact .inr ⟨seq.trans pending.1, pending.2⟩
    producers := by
      intro p hp
      have good := sound.producers p hp
      rw [List.length_append]
      cases p with
      | swap r pos seen => exact ⟨good.1, good.2.1, Nat.lt_of_lt_of_le good.2.2 (by omega)⟩
      | store r pos seen k =>
        obtain ⟨i, hi⟩ := List.mem_iff_getElem?.mp hp
        have differ := sound.differs hi done
        obtain ⟨same, after, logged, holds⟩ := good
        exact ⟨same, Nat.lt_of_le_of_ne after differ, logged, holds⟩
      | _ => exact good
    consumer := fun busy => absurd rfl busy
    popped := by
      rw [List.length_append, List.length_singleton, List.take_add_one, found, Option.toList_some,
        List.map_append, ← sound.popped]
      rfl }

end State.Sound

end Gusset.Ring
