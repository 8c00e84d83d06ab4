import Gusset.Logs.Ring

/-! Any sequence of appends and drains: what the ring holds, and where every appended byte went. -/
namespace Gusset.Logs
open Foundation Utf8

inductive Op | append (line : Str) | drain (cap : Nat)

/-- Bytes that left the front of the ring. -/
inductive Removal | evicted (bytes : List UInt8) | drained (bytes : List UInt8)

def Removal.bytes : Removal → List UInt8
  | .evicted bytes | .drained bytes => bytes

/-- The ring, the lines appended as they were kept, and what left the ring, in order. -/
structure Account where
  ring : List UInt8
  appended : List UInt8
  removed : List Removal

def Account.empty : Account := ⟨[], [], []⟩

def Account.step (a : Account) : Op → Account
  | .append line =>
    ⟨appendLine a.ring line, a.appended ++ payload line.1 ++ [newline],
      a.removed ++ [.evicted (a.ring.take (evictCut a.ring ((payload line.1).length + 1)))]⟩
  | .drain cap =>
    ⟨(drainLogs a.ring cap).2, a.appended, a.removed ++ [.drained (drainLogs a.ring cap).1]⟩

def run (ops : List Op) : Account := ops.foldl Account.step .empty

theorem run_concat (ops : List Op) (op : Op) : run (ops ++ [op]) = (run ops).step op := by
  simp [run]

variable {ring : List UInt8} {cap : Nat}

theorem drainLogs_split (ring : List UInt8) (cap : Nat) :
    (drainLogs ring cap).1 ++ (drainLogs ring cap).2 = ring := by
  unfold drainLogs
  split
  · rfl
  · exact List.take_append_drop _ ring

theorem drainLogs_some (positive : 0 < cap) (some_one : ring ≠ []) :
    0 < (drainLogs ring cap).1.length ∧ (drainLogs ring cap).1.length ≤ cap := by
  obtain ⟨least, most, inside⟩ := drainCut_bounds positive some_one
  unfold drainLogs
  rw [if_neg (by omega), List.length_take]
  omega

theorem drainLogs_empty (positive : 0 < cap) (none : (drainLogs ring cap).1 = []) : ring = [] := by
  by_contra some_one
  have least := (drainLogs_some positive some_one).1
  rw [none] at least
  cases least

/-- A drain that finds a newline within `cap` bytes hands over whole lines. -/
theorem drainLogs_lines (within : newline ∈ ring.take cap) :
    (drainLogs ring cap).2 = [] ∨ (drainLogs ring cap).1.getLast? = some newline := by
  have positive : 0 < cap := by
    by_contra none
    rw [Nat.eq_zero_of_not_pos none] at within
    cases within
  unfold drainLogs
  rw [if_neg (by omega)]
  rcases drainCut_cases ring cap with ⟨all, _⟩ | ⟨longer, most, least, byte⟩ | ⟨_, absent, _⟩
  · exact .inl (by rw [all, List.drop_length])
  · refine .inr ?_
    rw [List.getLast?_eq_getElem?, List.length_take, Nat.min_eq_left (by omega),
      List.getElem?_take_of_lt (by omega)]
    exact byte
  · exact absurd within absent

theorem drop_getLast? {n : Nat} (closed : ring = [] ∨ ring.getLast? = some newline) :
    ring.drop n = [] ∨ (ring.drop n).getLast? = some newline := by
  by_cases all : ring.length ≤ n
  · exact .inl (List.drop_eq_nil_of_le all)
  · refine .inr ?_
    rcases closed with rfl | last
    · exact absurd (Nat.zero_le n) all
    · rw [List.getLast?_drop, if_neg all]
      exact last

theorem removed_concat (removed : List Removal) (last : Removal) :
    ((removed ++ [last]).map Removal.bytes).flatten =
      (removed.map Removal.bytes).flatten ++ last.bytes := by
  simp

-- Eviction takes from the front what the ring loses.
theorem evicted_whole {removed : List Removal} {appended : List UInt8}
    (whole : (removed.map Removal.bytes).flatten ++ ring = appended) (n : Nat)
    (line : List UInt8) :
    ((removed ++ [Removal.evicted (ring.take n)]).map Removal.bytes).flatten ++
      (ring.drop n ++ line ++ [newline]) = appended ++ line ++ [newline] := by
  rw [removed_concat, ← whole]
  simp only [Removal.bytes, List.append_assoc]
  rw [← List.append_assoc (ring.take n), List.take_append_drop]

structure Kept (a : Account) : Prop where
  bounded : a.ring.length ≤ logRingCapacity
  closed : a.ring = [] ∨ a.ring.getLast? = some newline
  whole : (a.removed.map Removal.bytes).flatten ++ a.ring = a.appended

theorem Kept.step {a : Account} (kept : Kept a) (op : Op) : Kept (a.step op) := by
  cases op with
  | append line =>
    constructor
    · simp only [Account.step]
      exact length_appendLine a.ring line
    · refine .inr ?_
      simp [Account.step, appendLine]
    · exact evicted_whole kept.whole _ _
  | drain cap =>
    have split := drainLogs_split a.ring cap
    constructor
    · have length := congrArg List.length split
      rw [List.length_append] at length
      have before := kept.bounded
      simp only [Account.step]
      omega
    · simp only [Account.step, drainLogs]
      split
      · exact kept.closed
      · exact drop_getLast? kept.closed
    · simp only [Account.step, removed_concat, Removal.bytes]
      rw [List.append_assoc, split]
      exact kept.whole

theorem run_kept (ops : List Op) : Kept (run ops) := by
  induction ops using List.reverseRecOn with
  | nil => exact ⟨Nat.zero_le _, .inl rfl, rfl⟩
  | append_singleton ops op ih =>
    rw [run_concat]
    exact ih.step op

/-- Drains of these capacities, one after another. -/
def drainEach (ring : List UInt8) : List Nat → List (List UInt8) × List UInt8
  | [] => ([], ring)
  | cap :: rest =>
    ((drainLogs ring cap).1 :: (drainEach (drainLogs ring cap).2 rest).1,
      (drainEach (drainLogs ring cap).2 rest).2)

theorem drainEach_split (caps : List Nat) (ring : List UInt8) :
    (drainEach ring caps).1.flatten ++ (drainEach ring caps).2 = ring := by
  induction caps generalizing ring with
  | nil => rfl
  | cons cap rest ih =>
    simp only [drainEach, List.flatten_cons, List.append_assoc, ih, drainLogs_split]

theorem drainEach_length {caps : List Nat} (positive : ∀ cap ∈ caps, 0 < cap) (ring : List UInt8) :
    (drainEach ring caps).2.length ≤ ring.length - caps.length := by
  induction caps generalizing ring with
  | nil => exact Nat.le_refl _
  | cons cap rest ih =>
    have later := ih (fun c member => positive c (List.mem_cons_of_mem _ member))
      (drainLogs ring cap).2
    have length := congrArg List.length (drainLogs_split ring cap)
    rw [List.length_append] at length
    simp only [drainEach, List.length_cons]
    by_cases none : ring = []
    · subst none
      simp only [List.length_nil] at length ⊢
      omega
    · have some_one := (drainLogs_some (positive cap List.mem_cons_self) none).1
      omega

structure Readable (a : Account) : Prop where
  ring : Valid a.ring
  chunks : ∀ chunk, .drained chunk ∈ a.removed → Valid chunk

theorem Readable.step {a : Account} (readable : Readable a) {op : Op}
    (wide : ∀ cap, op = .drain cap → 4 ≤ cap) : Readable (a.step op) := by
  cases op with
  | append line =>
    refine ⟨valid_appendLine readable.ring line, ?_⟩
    intro chunk member
    rcases List.mem_append.mp member with old | new
    · exact readable.chunks chunk old
    · cases List.mem_singleton.mp new
  | drain cap =>
    have few := wide cap rfl
    have cut := drainCut_boundary readable.ring few
    have some_cap : cap ≠ 0 := by omega
    constructor
    · simpa [Account.step, drainLogs, some_cap] using cut.2
    · intro chunk member
      rcases List.mem_append.mp member with old | new
      · exact readable.chunks chunk old
      · cases List.mem_singleton.mp new
        simpa [drainLogs, some_cap] using cut.1

theorem run_readable {ops : List Op} (wide : ∀ cap, .drain cap ∈ ops → 4 ≤ cap) :
    Readable (run ops) := by
  induction ops using List.reverseRecOn with
  | nil => exact ⟨valid_nil, nofun⟩
  | append_singleton ops op ih =>
    rw [run_concat]
    apply (ih fun cap member => wide cap (List.mem_append_left _ member)).step
    rintro cap rfl
    exact wide cap (List.mem_append_right _ (List.mem_singleton_self _))

/-- The ring after any appends and drains. A line is appended whole, or up to the last character
that leaves room for its newline. -/
theorem log_ring_whole (ops : List Op) :
    (run ops).ring.length ≤ logRingCapacity ∧
    ((run ops).ring = [] ∨ (run ops).ring.getLast? = some newline) ∧
    (∀ cap > 0, (run ops).ring ≠ [] → 0 < (drainLogs (run ops).ring cap).1.length ∧
      (drainLogs (run ops).ring cap).1.length ≤ cap) ∧
    (∀ cap, newline ∈ (run ops).ring.take cap → (drainLogs (run ops).ring cap).2 = [] ∨
      (drainLogs (run ops).ring cap).1.getLast? = some newline) ∧
    ((run ops).removed.map Removal.bytes).flatten ++ (run ops).ring = (run ops).appended ∧
    (∀ caps : List Nat, (∀ cap ∈ caps, 0 < cap) →
      ((run ops).ring.length ≤ caps.length → (drainEach (run ops).ring caps).2 = []) ∧
      ∀ cap > 0, (drainLogs (drainEach (run ops).ring caps).2 cap).1 = [] →
        (drainEach (run ops).ring caps).1.flatten = (run ops).ring) ∧
    ((∀ cap, .drain cap ∈ ops → 4 ≤ cap) →
      Valid (run ops).ring ∧ ∀ chunk, .drained chunk ∈ (run ops).removed → Valid chunk) ∧
    (∀ line : Str, (run (ops ++ [.append line])).appended =
      (run ops).appended ++ payload line.1 ++ [newline]) ∧
    ∀ line : Str, payload line.1 <+: line.1 ∧ Boundary line.1 (payload line.1).length ∧
      (payload line.1).length ≤ logRingCapacity - 1 ∧
      ∀ i ≤ line.1.length, i ≤ logRingCapacity - 1 → Boundary line.1 i →
        i ≤ (payload line.1).length := by
  obtain ⟨bounded, closed, whole⟩ := run_kept ops
  refine ⟨bounded, closed, fun cap => drainLogs_some, fun cap => drainLogs_lines, whole, ?_, ?_,
    fun line => by rw [run_concat]; rfl, payload_longest⟩
  · intro caps positive
    constructor
    · intro enough
      have left := drainEach_length positive (run ops).ring
      exact List.length_eq_zero_iff.mp (by omega)
    · intro cap some_cap none
      have empty := drainLogs_empty some_cap none
      have split := drainEach_split caps (run ops).ring
      rwa [empty, List.append_nil] at split
  · intro wide
    have readable := run_readable wide
    exact ⟨readable.ring, readable.chunks⟩

-- A two-byte character, of which a drain of four takes the whole line.
def accented : Str := ⟨[0xC3, 0xA9], ['é'], by decide⟩

theorem log_ring_whole_accented :
    (run [.append accented, .drain 4]).removed.length = 2 ∧
    Valid (run [.append accented, .drain 4]).ring := by
  refine ⟨rfl, ((log_ring_whole [.append accented, .drain 4]).2.2.2.2.2.2.1 ?_).1⟩
  intro cap member
  simp only [List.mem_cons, reduceCtorEq, false_or, Op.drain.injEq, List.not_mem_nil,
    or_false] at member
  omega

end Gusset.Logs
