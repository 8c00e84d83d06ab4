import Gusset.Foundation.Utf8

/-! The log ring of the FFI module: `append_line`, `evict_cut`, `gusset_drain_logs` and `drain_cut`
over the bytes behind its lock, and the eviction `evict_cut` replaces. -/
namespace Gusset.Logs
open Foundation Utf8

def logRingCapacity : Nat := 65536

/-- A `&str`: its bytes, which are UTF-8. -/
abbrev Str := { bytes : List UInt8 // Valid bytes }

-- `ring.get(excess - 1..)` and the first newline in it.
def newlineFrom (ring : List UInt8) (start : Nat) : Option Nat :=
  if start ≤ ring.length then (ring.drop start).findIdx? (· == newline) else none

def evictCut (ring : List UInt8) (needed : Nat) : Nat :=
  let excess := ring.length + needed - logRingCapacity
  if excess = 0 then 0
  else match newlineFrom ring (excess - 1) with
    | some found => excess + found
    | none => ring.length

/-- Eviction as it is specified: one line at a time, until there is room. -/
def evictLineByLine (ring : List UInt8) (needed : Nat) : List UInt8 :=
  if logRingCapacity < ring.length + needed then
    match found : ring.findIdx? (· == newline) with
    | some nl => evictLineByLine (ring.drop (nl + 1)) needed
    | none => []
  else ring
termination_by ring.length
decreasing_by
  have inside := (List.findIdx?_eq_some_iff_getElem.mp found).1
  rw [List.length_drop]
  omega

def isCharBoundary (bytes : List UInt8) (i : Nat) : Bool :=
  i == 0 || match bytes[i]? with
    | some b => !continues b
    | none => i == bytes.length

-- The loop of `append_line` that looks for the last boundary.
def lastBoundary (line : List UInt8) : Nat → Nat
  | 0 => 0
  | last + 1 => if isCharBoundary line (last + 1) then last + 1 else lastBoundary line last

/-- What `append_line` keeps of a line. -/
def payload (line : List UInt8) : List UInt8 :=
  if logRingCapacity - 1 < line.length then line.take (lastBoundary line (logRingCapacity - 1))
  else line

def appendLine (ring : List UInt8) (line : Str) : List UInt8 :=
  ring.drop (evictCut ring ((payload line.1).length + 1)) ++ payload line.1 ++ [newline]

-- `rposition`.
def lastNewline (bytes : List UInt8) : Option Nat :=
  (bytes.reverse.findIdx? (· == newline)).map fun i => bytes.length - 1 - i

-- The loop of `drain_cut` that backs up to a character.
def backUp (ring : List UInt8) : Nat → Nat
  | 0 => 0
  | cut + 1 =>
    match ring[cut + 1]? with
    | some b => if continues b then backUp ring cut else cut + 1
    | none => cut + 1

def drainCut (ring : List UInt8) (cap : Nat) : Nat :=
  let count := min ring.length cap
  if count = ring.length then count
  else match lastNewline (ring.take count) with
    | some nl => nl + 1
    | none => if backUp ring count = 0 then count else backUp ring count

/-- What `gusset_drain_logs` writes, and the ring it leaves. -/
def drainLogs (ring : List UInt8) (len : Nat) : List UInt8 × List UInt8 :=
  if len = 0 then ([], ring) else (ring.take (drainCut ring len), ring.drop (drainCut ring len))

/-! ### Eviction -/

variable {ring : List UInt8} {needed : Nat}

theorem newlineFrom_some {start found : Nat} (here : newlineFrom ring start = some found) :
    ring[start + found]? = some newline ∧ start + found < ring.length ∧
    ∀ i, start ≤ i → i < start + found → ring[i]? ≠ some newline := by
  unfold newlineFrom at here
  split at here
  · obtain ⟨inside, byte, before⟩ := List.findIdx?_eq_some_iff_getElem.mp here
    rw [List.length_drop] at inside
    refine ⟨?_, by omega, ?_⟩
    · rw [List.getElem_drop] at byte
      rw [List.getElem?_eq_getElem (by omega)]
      simpa using byte
    · intro i from_ below same
      have other := before (i - start) (by omega)
      rw [List.getElem_drop] at other
      simp only [show start + (i - start) = i by omega] at other
      rw [List.getElem?_eq_getElem (by omega)] at same
      simp [Option.some.inj same] at other
  · cases here

theorem newlineFrom_none {start : Nat} (absent : newlineFrom ring start = none) {i : Nat}
    (past : start ≤ i) : ring[i]? ≠ some newline := by
  intro here
  have inside : i < ring.length := by
    by_contra outside
    rw [List.getElem?_eq_none (by omega)] at here
    cases here
  unfold newlineFrom at absent
  rw [if_pos (by omega), List.findIdx?_eq_none_iff] at absent
  have other := absent newline (by
    apply List.mem_of_getElem? (i := i - start)
    rw [List.getElem?_drop, show start + (i - start) = i by omega]
    exact here)
  simp at other

/-- A place where lines end: the front, the end, or right behind a newline. -/
def LineEnd (ring : List UInt8) (i : Nat) : Prop :=
  i = 0 ∨ i = ring.length ∨ (0 < i ∧ ring[i - 1]? = some newline)

theorem evictCut_spec (ring : List UInt8) (needed : Nat) :
    evictCut ring needed ≤ ring.length ∧ LineEnd ring (evictCut ring needed) ∧
    (ring.length - evictCut ring needed + needed ≤ logRingCapacity ∨
      evictCut ring needed = ring.length) ∧
    ∀ i ≤ ring.length, LineEnd ring i → ring.length - i + needed ≤ logRingCapacity →
      evictCut ring needed ≤ i := by
  unfold evictCut
  simp only
  split
  · rename_i none
    exact ⟨Nat.zero_le _, .inl rfl, .inl (by omega), fun i _ _ _ => Nat.zero_le i⟩
  · rename_i excess
    split
    · rename_i found here
      obtain ⟨byte, inside, before⟩ := newlineFrom_some here
      refine ⟨by omega, .inr (.inr ⟨by omega, ?_⟩), .inl (by omega), ?_⟩
      · rwa [show ring.length + needed - logRingCapacity + found - 1 =
          ring.length + needed - logRingCapacity - 1 + found by omega]
      · intro i below ends room
        rcases ends with rfl | rfl | ⟨past, byte⟩
        · omega
        · omega
        · by_contra earlier
          exact before (i - 1) (by omega) (by omega) byte
    · rename_i absent
      refine ⟨Nat.le_refl _, .inr (.inl rfl), .inr rfl, ?_⟩
      intro i below ends room
      rcases ends with rfl | rfl | ⟨past, byte⟩
      · omega
      · exact Nat.le_refl _
      · exact absurd byte (newlineFrom_none absent (by omega))

/-- Past the first line, line ends are those of the rest. -/
theorem LineEnd.drop {nl i : Nat} (first : ring[nl]? = some newline) (inside : nl < ring.length)
    (past : nl + 1 ≤ i) : LineEnd (ring.drop (nl + 1)) (i - (nl + 1)) ↔ LineEnd ring i := by
  unfold LineEnd
  rw [List.length_drop, List.getElem?_drop]
  constructor
  · rintro (zero | last | ⟨later, byte⟩)
    · refine .inr (.inr ⟨by omega, ?_⟩)
      rwa [show i - 1 = nl by omega]
    · exact .inr (.inl (by omega))
    · refine .inr (.inr ⟨by omega, ?_⟩)
      rwa [show nl + 1 + (i - (nl + 1) - 1) = i - 1 by omega] at byte
  · rintro (zero | last | ⟨_, byte⟩)
    · omega
    · exact .inr (.inl (by omega))
    · by_cases here : i = nl + 1
      · exact .inl (by omega)
      · refine .inr (.inr ⟨by omega, ?_⟩)
        rwa [show nl + 1 + (i - (nl + 1) - 1) = i - 1 by omega]

theorem evictCut_line {nl : Nat} (halted : logRingCapacity < ring.length + needed)
    (found : ring.findIdx? (· == newline) = some nl) :
    evictCut ring needed = nl + 1 + evictCut (ring.drop (nl + 1)) needed := by
  obtain ⟨inside, byte, before⟩ := List.findIdx?_eq_some_iff_getElem.mp found
  have first : ring[nl]? = some newline := by
    rw [List.getElem?_eq_getElem inside]
    simpa using byte
  obtain ⟨most, ends, room, least⟩ := evictCut_spec ring needed
  obtain ⟨most', ends', room', least'⟩ := evictCut_spec (ring.drop (nl + 1)) needed
  rw [List.length_drop] at most' room' least'
  apply Nat.le_antisymm
  · rcases room' with fits | all
    · apply least _ (by omega)
      · apply (LineEnd.drop first inside (by omega)).mp
        rwa [Nat.add_sub_cancel_left]
      · omega
    · omega
  · rcases room with fits | all
    · have past : nl + 1 ≤ evictCut ring needed := by
        rcases ends with zero | last | ⟨positive, byte⟩
        · omega
        · omega
        · by_contra early
          have other := before (evictCut ring needed - 1) (by omega)
          rw [List.getElem?_eq_getElem (by omega)] at byte
          simp [Option.some.inj byte] at other
      have reached := least' (evictCut ring needed - (nl + 1)) (by omega)
        ((LineEnd.drop first inside past).mpr ends) (by omega)
      omega
    · omega

theorem evictCut_lines (ring : List UInt8) (needed : Nat) :
    ring.drop (evictCut ring needed) = evictLineByLine ring needed := by
  fun_induction evictLineByLine ring needed with
  | case1 ring halted nl found ih =>
    rw [← ih, evictCut_line halted found, List.drop_drop]
  | case2 ring halted absent =>
    obtain ⟨_, ends, room, _⟩ := evictCut_spec ring needed
    rcases ends with zero | last | ⟨_, byte⟩
    · rcases room with fits | all
      · omega
      · rw [all, List.drop_length]
    · rw [last, List.drop_length]
    · have other := List.findIdx?_eq_none_iff.mp absent newline (List.mem_of_getElem? byte)
      simp at other
  | case3 ring fits =>
    have none : evictCut ring needed = 0 := by
      apply Nat.le_zero.mp
      exact (evictCut_spec ring needed).2.2.2 0 (Nat.zero_le _) (.inl rfl) (by omega)
    rw [none, List.drop_zero]

/-- One cut evicts what evicting line by line does, and no more lines than it must. -/
theorem one_cut_evicts (ring : List UInt8) (needed : Nat) :
    ring.drop (evictCut ring needed) = evictLineByLine ring needed ∧
    evictCut ring needed ≤ ring.length ∧ LineEnd ring (evictCut ring needed) ∧
    (ring.length - evictCut ring needed + needed ≤ logRingCapacity ∨
      evictCut ring needed = ring.length) ∧
    ∀ i ≤ ring.length, LineEnd ring i → ring.length - i + needed ≤ logRingCapacity →
      evictCut ring needed ≤ i :=
  ⟨evictCut_lines ring needed, evictCut_spec ring needed⟩

/-! ### Appending -/

theorem isCharBoundary_boundary {line : List UInt8} {i : Nat} (valid : Valid line)
    (whole : isCharBoundary line i = true) : Boundary line i := by
  unfold isCharBoundary at whole
  rcases (Bool.or_eq_true _ _).mp whole with zero | other
  · obtain ⟨text, rfl⟩ := valid
    rw [beq_iff_eq.mp zero]
    exact boundary_zero text
  · intro b here
    rw [here] at other
    simpa using other

theorem lastBoundary_spec (line : List UInt8) (last : Nat) :
    lastBoundary line last ≤ last ∧ isCharBoundary line (lastBoundary line last) = true := by
  induction last with
  | zero => exact ⟨Nat.le_refl 0, rfl⟩
  | succ last ih =>
    unfold lastBoundary
    split
    · rename_i whole
      exact ⟨Nat.le_refl _, whole⟩
    · exact ⟨by omega, ih.2⟩

theorem length_payload (line : List UInt8) : (payload line).length ≤ logRingCapacity - 1 := by
  unfold payload
  split
  · rw [List.length_take]
    have below := (lastBoundary_spec line (logRingCapacity - 1)).1
    omega
  · omega

theorem boundary_isCharBoundary {bytes : List UInt8} {i : Nat} (inside : i ≤ bytes.length)
    (whole : Boundary bytes i) : isCharBoundary bytes i = true := by
  unfold isCharBoundary
  cases here : bytes[i]? with
  | some b => simp [whole b here]
  | none =>
    have past := List.getElem?_eq_none_iff.mp here
    simp [Nat.le_antisymm inside past]

theorem le_lastBoundary {line : List UInt8} {last i : Nat} (below : i ≤ last)
    (whole : isCharBoundary line i = true) : i ≤ lastBoundary line last := by
  induction last with
  | zero => exact below
  | succ last ih =>
    unfold lastBoundary
    split
    · exact below
    · rename_i split_
      have other : i ≠ last + 1 := by
        rintro rfl
        exact split_ whole
      exact ih (by omega)

/-- A line is kept whole, or cut behind the last character that leaves room for the newline. -/
theorem payload_longest (line : Str) :
    payload line.1 <+: line.1 ∧ Boundary line.1 (payload line.1).length ∧
    (payload line.1).length ≤ logRingCapacity - 1 ∧
    ∀ i ≤ line.1.length, i ≤ logRingCapacity - 1 → Boundary line.1 i →
      i ≤ (payload line.1).length := by
  have few := length_payload line.1
  unfold payload at few ⊢
  split
  · rename_i long
    obtain ⟨below, whole⟩ := lastBoundary_spec line.1 (logRingCapacity - 1)
    have length : (line.1.take (lastBoundary line.1 (logRingCapacity - 1))).length =
        lastBoundary line.1 (logRingCapacity - 1) := by
      rw [List.length_take]
      omega
    rw [length]
    refine ⟨List.take_prefix _ _, isCharBoundary_boundary line.2 whole, below, ?_⟩
    intro i inside room ends
    exact le_lastBoundary room (boundary_isCharBoundary inside ends)
  · rename_i fits
    exact ⟨List.prefix_refl _, boundary_length _, by omega, fun i inside _ _ => inside⟩

theorem valid_payload {line : List UInt8} (valid : Valid line) : Valid (payload line) := by
  unfold payload
  split
  · have whole := (lastBoundary_spec line (logRingCapacity - 1)).2
    exact (valid.cut (isCharBoundary_boundary valid whole)).1
  · exact valid

/-- A valid ring may be cut where lines end. -/
theorem LineEnd.valid {i : Nat} (ends : LineEnd ring i) (valid : Valid ring) :
    Valid (ring.take i) ∧ Valid (ring.drop i) := by
  rcases ends with rfl | rfl | ⟨positive, byte⟩
  · exact ⟨valid_nil, valid⟩
  · rw [List.take_length, List.drop_length]
    exact ⟨valid, valid_nil⟩
  · apply valid.cut
    have behind := valid.boundary_newline byte
    rwa [show i - 1 + 1 = i by omega] at behind

theorem length_appendLine (ring : List UInt8) (line : Str) :
    (appendLine ring line).length ≤ logRingCapacity := by
  have few := length_payload line.1
  have room := (evictCut_spec ring ((payload line.1).length + 1)).2.2.1
  have positive : 0 < logRingCapacity := by decide
  simp only [appendLine, List.length_append, List.length_drop, List.length_singleton]
  omega

theorem valid_appendLine (valid : Valid ring) (line : Str) : Valid (appendLine ring line) := by
  have ends := (evictCut_spec ring ((payload line.1).length + 1)).2.1
  exact ((ends.valid valid).2.append (valid_payload line.2)).append valid_newline

/-! ### Draining -/

theorem lastNewline_some {bytes : List UInt8} {nl : Nat} (found : lastNewline bytes = some nl) :
    nl < bytes.length ∧ bytes[nl]? = some newline := by
  unfold lastNewline at found
  obtain ⟨i, here, rfl⟩ := Option.map_eq_some_iff.mp found
  obtain ⟨inside, byte, _⟩ := List.findIdx?_eq_some_iff_getElem.mp here
  rw [List.length_reverse] at inside
  rw [List.getElem_reverse] at byte
  refine ⟨by omega, ?_⟩
  rw [List.getElem?_eq_getElem (by omega)]
  simpa using byte

theorem lastNewline_none {bytes : List UInt8} (absent : lastNewline bytes = none) :
    newline ∉ bytes := by
  intro member
  unfold lastNewline at absent
  have other := List.findIdx?_eq_none_iff.mp (Option.map_eq_none_iff.mp absent) newline
    (List.mem_reverse.mpr member)
  simp at other

theorem backUp_spec (ring : List UInt8) (count : Nat) :
    backUp ring count ≤ count ∧ (0 < backUp ring count → Boundary ring (backUp ring count)) ∧
    ∀ i, 0 < i → i ≤ count → Boundary ring i → i ≤ backUp ring count := by
  induction count with
  | zero => exact ⟨Nat.le_refl 0, fun none => absurd none (by simp [backUp]), by omega⟩
  | succ count ih =>
    unfold backUp
    split
    · rename_i b here
      split
      · rename_i tail
        refine ⟨by omega, ih.2.1, ?_⟩
        intro i positive below whole
        by_cases last : i = count + 1
        · rw [last] at whole
          rw [whole b here] at tail
          cases tail
        · exact ih.2.2 i positive (by omega) whole
      · rename_i lead
        refine ⟨Nat.le_refl _, ?_, fun i _ below _ => below⟩
        intro _ other same
        rw [here] at same
        rw [← Option.some.inj same]
        simpa using lead
    · rename_i past
      refine ⟨Nat.le_refl _, ?_, fun i _ below _ => below⟩
      intro _ other same
      rw [past] at same
      cases same

variable {cap : Nat}

/-- Where a drain ends: the end of the ring, a newline, or somewhere in a line longer than `cap`. -/
theorem drainCut_cases (ring : List UInt8) (cap : Nat) :
    (drainCut ring cap = ring.length ∧ ring.length ≤ cap) ∨
    (cap < ring.length ∧ drainCut ring cap ≤ cap ∧ 0 < drainCut ring cap ∧
      ring[drainCut ring cap - 1]? = some newline) ∨
    (cap < ring.length ∧ newline ∉ ring.take cap ∧
      drainCut ring cap = if backUp ring cap = 0 then cap else backUp ring cap) := by
  unfold drainCut
  simp only
  split
  · exact .inl ⟨by omega, by omega⟩
  · rename_i longer
    have count : min ring.length cap = cap := by omega
    rw [count]
    split
    · rename_i nl found
      obtain ⟨inside, byte⟩ := lastNewline_some found
      rw [List.length_take] at inside
      refine .inr (.inl ⟨by omega, by omega, by omega, ?_⟩)
      rw [List.getElem?_take_of_lt (by omega)] at byte
      exact byte
    · rename_i absent
      exact .inr (.inr ⟨by omega, lastNewline_none absent, rfl⟩)

theorem drainCut_bounds (positive : 0 < cap) (some_one : ring ≠ []) :
    0 < drainCut ring cap ∧ drainCut ring cap ≤ cap ∧ drainCut ring cap ≤ ring.length := by
  have length := List.length_pos_iff.mpr some_one
  have below := (backUp_spec ring cap).1
  rcases drainCut_cases ring cap with ⟨all, fits⟩ | ⟨longer, most, least, _⟩ | ⟨longer, _, cut⟩
  · omega
  · omega
  · rw [cut]
    split <;> omega

/-- A drain of at least four bytes splits no character. -/
theorem drainCut_boundary (valid : Valid ring) (wide : 4 ≤ cap) :
    Valid (ring.take (drainCut ring cap)) ∧ Valid (ring.drop (drainCut ring cap)) := by
  rcases drainCut_cases ring cap with ⟨all, _⟩ | ⟨_, _, least, byte⟩ | ⟨longer, _, cut⟩
  · exact LineEnd.valid (.inr (.inl all)) valid
  · exact LineEnd.valid (.inr (.inr ⟨least, byte⟩)) valid
  · obtain ⟨_, whole, last⟩ := backUp_spec ring cap
    have some_one : ring ≠ [] := by
      rintro rfl
      cases longer
    obtain ⟨i, positive, few, early⟩ := valid.boundary_early some_one
    have reached := last i positive (by omega) early
    rw [cut, if_neg (by omega)]
    exact valid.cut (whole (by omega))

end Gusset.Logs
