import Gusset.Foundation.Reach
import Gusset.Ring.Window

/-! Every run of producers and reader keeps the window of live positions. -/
namespace Gusset.Ring
open Foundation Wire

namespace Producer

-- The record of a call that has no position yet.
def waits : Producer → Option Record
  | .load r | .look r _ _ | .swap r _ _ => some r
  | _ => none

-- The record of a call that has claimed its position.
def writes : Producer → Option Record
  | .store r _ _ _ => some r
  | _ => none

theorem waits_of_writes {p : Producer} {r : Record} (writing : p.writes = some r) :
    p.waits = none := by
  cases p with
  | store r pos seen k => rfl
  | _ => cases writing

/-- A call keeps its record: it waits, claims a position for it, writes it there, and returns. -/
inductive Advance : Producer → Producer → Option Record → Prop
  | wait {p q : Producer} {r : Record} (before : p.waits = some r) (after : q.waits = some r) :
    Advance p q none
  | refuse {p : Producer} {r : Record} (before : p.waits = some r) : Advance p (.done false) none
  | claim {p q : Producer} {r : Record} (before : p.waits = some r) (after : q.writes = some r) :
    Advance p q (some r)
  | write {p q : Producer} {r : Record} (before : p.writes = some r) (after : q.writes = some r) :
    Advance p q none
  | publish {p : Producer} {r : Record} (before : p.writes = some r) : Advance p (.done true) none

/-- Where an access of `try_publish` takes a call, and the record whose position it claims. -/
inductive Moves (e : Endian) : Producer → Producer → Option Record → Prop
  | read {r : Record} {pos : Word} {seen : Nat} : Moves e (.load r) (.look r pos seen) none
  | aim {r : Record} {pos : Word} {seen : Nat} :
    Moves e (.look r pos seen) (.swap r pos seen) none
  | refuse {r : Record} {pos : Word} {seen : Nat} : Moves e (.look r pos seen) (.done false) none
  | again {r : Record} {pos : Word} {seen : Nat} : Moves e (.look r pos seen) (.load r) none
  | claim {r : Record} {pos : Word} {seen : Nat} :
    Moves e (.swap r pos seen) (.store r pos seen 0) (some r)
  | lose {r : Record} {pos pos' : Word} {seen seen' : Nat} :
    Moves e (.swap r pos seen) (.look r pos' seen') none
  | write {r : Record} {pos : Word} {seen k : Nat} :
    Moves e (.store r pos seen k) (.store r pos seen (k + 1)) none
  | publish {r : Record} {pos : Word} {seen k : Nat} (whole : (r.words e)[k]? = none) :
    Moves e (.store r pos seen k) (.done true) none

section step
variable {e : Endian} {c : Capacity} {m m' : Memory} {claims : Nat} {weak : Bool} {p q : Producer}

theorem step_moves {out : Option Record} (went : p.step e c m claims weak = some (m', q, out)) :
    Moves e p q out := by
  cases p with
  | idle => cases went
  | done published => cases went
  | load r =>
    cases went
    exact .read
  | look r pos seen =>
    simp only [step] at went
    split at went
    · cases went
      exact .aim
    · split at went
      · cases went
        exact .refuse
      · cases went
        exact .again
  | swap r pos seen =>
    simp only [step] at went
    split at went
    · cases went
      exact .claim
    · cases went
      exact .lose
  | store r pos seen k =>
    simp only [step] at went
    split at went
    · cases went
      exact .write
    · rename_i whole
      cases went
      exact .publish whole

theorem step_advance {out : Option Record} (went : p.step e c m claims weak = some (m', q, out)) :
    Advance p q out := by
  cases step_moves went with
  | read | aim | again | lose => exact .wait rfl rfl
  | refuse => exact .refuse rfl
  | claim => exact .claim rfl rfl
  | write => exact .write rfl rfl
  | publish whole => exact .publish rfl

theorem step_claims {r : Record} (went : p.step e c m claims weak = some (m', q, some r)) :
    ∃ pos seen, p = .swap r pos seen ∧ q = .store r pos seen 0 := by
  cases step_moves went with
  | claim => exact ⟨_, _, rfl, rfl⟩

/-- A call that answers true has written all the words of its record. -/
theorem step_published {out : Option Record}
    (went : p.step e c m claims weak = some (m', .done true, out)) :
    ∃ r pos seen k, p = .store r pos seen k ∧ (r.words e)[k]? = none := by
  cases step_moves went with
  | publish whole => exact ⟨_, _, _, _, rfl, whole⟩

end step

end Producer

/-- No compare-exchange runs on a tail read `2 ^ 64` or more claims ago. -/
def Producer.Fresh (claims : Nat) : Producer → Prop
  | .swap _ _ seen => claims < seen + 2 ^ 64
  | _ => True

instance (claims : Nat) : (p : Producer) → Decidable (p.Fresh claims)
  | .swap _ _ seen => inferInstanceAs (Decidable (claims < seen + 2 ^ 64))
  | .idle | .load _ | .look _ _ _ | .store _ _ _ _ | .done _ => isTrue trivial

namespace State

def Fresh (s : State) : Act → Prop
  | .producer i _ => ∀ p ∈ s.producers[i]?, p.Fresh s.log.length
  | _ => True

variable {e : Endian} {c : Capacity} {s t : State}

theorem new_sound (e : Endian) (c : Capacity) : State.new.Sound e c where
  tail := rfl
  head := rfl
  front := Nat.le_refl _
  room := Nat.zero_le _
  free := by
    intro i _ high
    have small : i < c.slots := by simpa [State.new] using high
    simp [slotSeq, State.new, Memory.new, Nat.mod_eq_of_lt small]
  claimed := by
    intro i _ high
    simp [State.new] at high
  producers := by
    intro p hp
    simp [State.new] at hp
  consumer := fun busy => absurd rfl busy
  popped := rfl

namespace Sound

/-- The sequence number of any slot: that of its position in the window, or one more if the
position is published. -/
theorem slot (sound : s.Sound e c) (seen : Nat) :
    ∃ i, s.popped.length ≤ i ∧ i < s.popped.length + c.slots ∧ i % c.slots = seen % c.slots ∧
      (s.slotSeq c seen = .ofNat 64 i ∨
        i < s.log.length ∧ s.slotSeq c seen = .ofNat 64 (i + 1)) := by
  obtain ⟨i, low, high, same⟩ := exists_window s.popped.length c.slots seen c.slots_pos
  have shared : s.slotSeq c seen = s.slotSeq c i := by
    simp only [slotSeq, same]
  refine ⟨i, low, high, same, ?_⟩
  rw [shared]
  rcases Nat.lt_or_ge i s.log.length with below | past
  · rcases sound.claimed i low below with published | pending
    · exact .inr ⟨below, published.1⟩
    · exact .inl pending.1
  · exact .inl (sound.free i past high)

/-- A slot that looks free to a producer is in the window: its position is not a turn ahead. -/
theorem look_free (sound : s.Sound e c) {seen : Nat} (known : seen ≤ s.log.length)
    (free : s.slotSeq c seen = .ofNat 64 seen) : seen < s.popped.length + c.slots := by
  have room := sound.room
  by_contra past
  have full : seen = s.popped.length + c.slots := by omega
  obtain ⟨i, low, high, same, value⟩ := sound.slot seen
  have here : i = s.popped.length := by
    rw [full, Nat.add_mod_right] at same
    exact window_unique low high (Nat.le_refl _) (by omega) same
  have two := c.two
  have fits := c.fits
  rcases value with old | ⟨_, old⟩
  · have equal := ofNat_inj (old.symm.trans free) (by omega) (by omega)
    omega
  · have equal := ofNat_inj (old.symm.trans free) (by omega) (by omega)
    omega

/-- A slot that looks taken to a producer whose tail is recent: the ring is full. -/
theorem look_full (sound : s.Sound e c) {seen : Nat} (known : seen ≤ s.log.length)
    (recent : s.log.length + c.slots ≤ seen + 2 ^ 63)
    (behind : (s.slotSeq c seen - .ofNat 64 seen).toInt < 0) :
    s.log.length = s.popped.length + c.slots := by
  have front := sound.front
  have room := sound.room
  obtain ⟨i, low, high, same, value⟩ := sound.slot seen
  have before : i < seen := by
    by_contra after
    rcases value with old | ⟨below, old⟩
    · rw [old, toInt_ahead (by omega) (by omega)] at behind
      omega
    · rw [old, toInt_ahead (by omega) (by omega)] at behind
      omega
  obtain ⟨k, turn⟩ := same_slot same (Nat.le_of_lt before)
  have whole : c.slots ≤ c.slots * k := Nat.le_mul_of_pos_right _ (by
    rcases Nat.eq_zero_or_pos k with rfl | positive
    · omega
    · exact positive)
  omega

theorem producerStep (sound : s.Sound e c) {i : Nat} {weak : Bool}
    (fresh : s.Fresh (.producer i weak)) (went : s.producerStep e c i weak = some t) :
    t.Sound e c := by
  unfold State.producerStep at went
  simp only [Option.bind_eq_some_iff, Option.map_eq_some_iff] at went
  obtain ⟨p, here, out, moved, rfl⟩ := went
  have good := sound.producers p (List.mem_of_getElem? here)
  cases p with
  | idle => cases moved
  | done published => cases moved
  | load r =>
    cases moved
    simp only [Option.toList_none, List.append_nil]
    exact sound.move here (fun _ => rfl) (fun _ => rfl) ⟨sound.tail, Nat.le_refl _⟩
  | look r pos seen =>
    obtain ⟨rfl, known⟩ := good
    simp only [Producer.step, c.index_ofNat] at moved
    split at moved
    · rename_i zero
      cases moved
      simp only [Option.toList_none, List.append_nil]
      exact sound.move here (fun _ => rfl) (fun _ => rfl)
        ⟨rfl, known, sound.look_free known (toInt_eq_zero zero)⟩
    · split at moved
      · cases moved
        simp only [Option.toList_none, List.append_nil]
        exact sound.move here (fun _ => rfl) (fun _ => rfl) trivial
      · cases moved
        simp only [Option.toList_none, List.append_nil]
        exact sound.move here (fun _ => rfl) (fun _ => rfl) trivial
  | swap r pos seen =>
    have recent : s.log.length < seen + 2 ^ 64 := fresh _ here
    obtain ⟨rfl, known, room⟩ := good
    simp only [Producer.step] at moved
    split at moved
    · rename_i current
      have last : seen = s.log.length :=
        ofNat_inj (current.1.symm.trans sound.tail) known recent
      subst last
      cases moved
      exact sound.claim here
    · cases moved
      simp only [Option.toList_none, List.append_nil]
      exact sound.move here (fun _ => rfl) (fun _ => rfl) ⟨sound.tail, Nat.le_refl _⟩
  | store r pos seen k =>
    simp only [Producer.step] at moved
    split at moved
    · rename_i w next
      cases moved
      simp only [Option.toList_none, List.append_nil]
      exact sound.write here next
    · rename_i last
      cases moved
      simp only [Option.toList_none, List.append_nil]
      exact sound.publish here last

/-- A word of the record at the head, as the reader loads it. -/
theorem load (sound : s.Sound e c) {r : Record} (done : s.Published e c s.popped.length)
    (found : s.log[s.popped.length]? = some r) {k : Nat} {w : Word}
    (word : (r.words e)[k]? = some w) : s.mem.words (c.index s.head) k = w := by
  rw [sound.head, c.index_ofNat]
  exact done.2.2 r found (k + 1) k w (Nat.lt_succ_self k) word

theorem consumerStep (sound : s.Sound e c) (went : s.consumerStep e c = some t) : t.Sound e c := by
  unfold State.consumerStep at went
  simp only [Option.map_eq_some_iff] at went
  obtain ⟨out, moved, rfl⟩ := went
  cases place : s.consumer with
  | idle =>
    rw [place] at moved
    cases moved
  | corrupt n =>
    rw [place] at moved
    cases moved
  | word =>
    obtain ⟨done, r, found, _⟩ := sound.consumer (by rw [place]; exact Consumer.noConfusion)
    rw [place] at moved
    cases moved
    simp only [Option.toList_none, List.append_nil]
    apply sound.read done found
    cases data : r.data with
    | none =>
      have first := sound.load done found (k := 0) (by rw [r.words_bare e data]; rfl)
      rw [first, if_pos (and_flag r.low)]
      exact ⟨rfl, data.symm⟩
    | some d =>
      obtain ⟨body, words, _, _⟩ := r.words_inline e data
      have first := sound.load done found (k := 0) (by rw [words]; rfl)
      rw [first, if_neg (or_flag _)]
      exact ⟨d, data, rfl⟩
  | length w =>
    obtain ⟨done, r, found, reads⟩ := sound.consumer (by rw [place]; exact Consumer.noConfusion)
    rw [place] at moved reads
    obtain ⟨d, data, flagged⟩ := reads
    obtain ⟨body, words, _, _⟩ := r.words_inline e data
    have short := r.short d data
    have second := sound.load done found (k := 1) (by rw [words]; rfl)
    have count : (BitVec.ofNat 64 d.length).toNat = d.length := by
      rw [BitVec.toNat_ofNat, Nat.mod_eq_of_lt]
      unfold inlineResultMax at short
      omega
    cases moved
    simp only [Option.toList_none, List.append_nil]
    apply sound.read done found
    rw [second, count, if_neg (by omega)]
    exact ⟨d, data, flagged, rfl, Nat.zero_le _, by simp⟩
  | payload w n got =>
    obtain ⟨done, r, found, reads⟩ := sound.consumer (by rw [place]; exact Consumer.noConfusion)
    rw [place] at moved reads
    obtain ⟨d, data, flagged, rfl, few, prior⟩ := reads
    obtain ⟨body, words, count, whole⟩ := r.words_inline e data
    have rest : (r.words e).drop 2 = body := by
      rw [words]
      rfl
    rw [rest] at prior
    simp only [Consumer.step] at moved
    split at moved
    · rename_i more
      have bound : got.length < body.length := by omega
      have next := sound.load done found (k := 2 + got.length) (w := body[got.length]) (by
        rw [words, Nat.add_comm]
        simp [bound])
      cases moved
      simp only [Option.toList_none, List.append_nil]
      apply sound.read done found
      refine ⟨d, data, flagged, rfl, ?_, ?_⟩
      · rw [List.length_append, List.length_singleton]
        omega
      · rw [next, rest, List.length_append, List.length_singleton, List.take_add_one, ← prior]
        simp [bound]
    · rename_i enough
      cases moved
      simp only [Option.toList_none, List.append_nil]
      apply sound.read done found
      have complete : got = body := by
        rw [prior, List.take_of_length_le (by omega)]
      refine ⟨?_, ?_⟩
      · rw [flagged, clear_flag r.low]
      · rw [complete, whole, data]
  | free w data =>
    obtain ⟨done, r, found, reads⟩ := sound.consumer (by rw [place]; exact Consumer.noConfusion)
    rw [place] at moved reads
    obtain ⟨rfl, rfl⟩ := reads
    cases moved
    exact sound.pop done found

/-- Every step keeps the window. -/
theorem step (sound : s.Sound e c) {a : Act} (fresh : s.Fresh a) (went : s.step e c a = some t) :
    t.Sound e c := by
  cases a with
  | spawn =>
    cases went
    exact sound.spawn
  | begin i r =>
    simp only [State.step] at went
    split at went
    · rename_i here
      cases went
      exact sound.move here (fun _ => rfl) (fun _ => rfl) trivial
    · cases went
  | producer i weak => exact sound.producerStep fresh went
  | leave i =>
    simp only [State.step] at went
    split at went
    · rename_i here
      cases went
      exact sound.move here (fun _ => rfl) (fun _ => rfl) trivial
    · cases went
  | check =>
    simp only [State.step] at went
    split at went
    · rename_i idle
      cases went
      split
      · rename_i ready
        simp only [ringReady, sound.head, c.index_ofNat, ofNat_succ, decide_eq_true_eq] at ready
        have two := c.two
        have fits := c.fits
        have front := sound.front
        rcases Nat.lt_or_ge s.popped.length s.log.length with below | past
        · rcases sound.claimed _ (Nat.le_refl _) below with done | pending
          · exact sound.read done (List.getElem?_eq_getElem below) trivial
          · have equal := ofNat_inj (pending.1.symm.trans ready) (by omega) (by omega)
            omega
        · have free := sound.free s.popped.length past (by omega)
          have equal := ofNat_inj (free.symm.trans ready) (by omega) (by omega)
          omega
      · rename_i unready
        rw [← idle]
        exact sound
    · cases went
  | consumer => exact sound.consumerStep went

end Sound

/-- A step of any number of producers and one reader. -/
def Steps (e : Endian) (c : Capacity) (s t : State) : Prop :=
  ∃ a, s.Fresh a ∧ s.step e c a = some t

abbrev Reaches (e : Endian) (c : Capacity) : State → Prop := Reachable (· = .new) (Steps e c)

theorem steps_sound (sound : s.Sound e c) (run : Relation.ReflTransGen (Steps e c) s t) :
    t.Sound e c := by
  induction run with
  | refl => exact sound
  | tail _ last ih =>
    obtain ⟨a, fresh, went⟩ := last
    exact ih.step fresh went

theorem reaches_sound (reach : Reaches e c s) : s.Sound e c := by
  obtain ⟨_, rfl, run⟩ := reach
  exact steps_sound (new_sound e c) run

end State

end Gusset.Ring
