import Gusset.Guard.Ages

/-! How long a panic location stays in the table: as long as it takes for the table to fill up
behind it, unless an overflow drops an entry that is not the oldest. -/
namespace Gusset.Guard
open Foundation

variable {g g' : State} {list : Table} {id t : ThreadId} {loc : PanicLocation}

/-- The record finds no entry of its thread and no room for a new one. -/
def overflows (g : State) : Act → Bool
  | .record id => (position g.locations id).isNone && decide (maxPanicLocations ≤ g.locations.length)
  | _ => false

/-- What an overflow would drop is the oldest entry: each of the others was added after the location
in front was recorded. -/
def oldestFirst (list : Table) (past : List Event) : Bool :=
  match keys list with
  | [] => true
  | first :: rest => rest.all fun id => decide (id ∈ newcomers (since first past))

/-- A location that its thread has recorded and not taken is in the table, or the table has since
been filled by others. -/
def Lasts (g : State) : Prop :=
  ∀ t, latest t g.past ≠ none →
    t ∈ keys g.locations ∨ maxPanicLocations ≤ (newcomers (since t g.past)).length

theorem evicted_or_kept {past : List Event} (order : oldestFirst list past = true)
    (apart : (keys list.tail ++ [id]).Nodup) (absent : id ∉ keys list) (member : t ∈ keys list)
    (full : maxPanicLocations ≤ list.length) :
    t ∈ keys list.tail ++ [id] ∨
      maxPanicLocations ≤ (newcomers (since t (.recorded id loc true :: past))).length := by
  cases list with
  | nil => cases member
  | cons first rest =>
    rcases List.mem_cons.mp member with rfl | member
    · right
      have differs : (Event.recorded id loc true).thread ≠ first.1 := by
        rintro rfl
        exact absent List.mem_cons_self
      have after : keys rest ++ [id] ⊆ newcomers (since first.1 (.recorded id loc true :: past)) := by
        intro u inside
        rcases List.mem_append.mp inside with old | new
        · have later := List.all_eq_true.mp order u old
          exact newcomers_grow differs u (of_decide_eq_true later)
        · rw [List.mem_singleton.mp new]
          exact newcomers_recorded differs
      have most := apart.length_le_of_subset after
      rw [List.length_append, List.length_singleton, keys, List.length_map] at most
      exact Nat.le_trans full most
    · exact .inl (List.mem_append_left _ member)

theorem Lasts.record (lasts : Lasts g) (sound : Sound g) (id : ThreadId) (loc : PanicLocation)
    (order : overflows g (.record id) = true → oldestFirst g.locations g.past = true) :
    Lasts (g.record id loc) := by
  intro t recorded
  have next := sound.record id loc
  rcases eq_or_ne id t with rfl | differs
  · left
    rcases recordLocation_cases g.locations id loc with
      ⟨pos, found, _, here, same⟩ | ⟨_, _, same⟩ | ⟨_, _, same⟩
    · simp only [State.record, same, keys_modify]
      exact mem_keys (List.mem_of_getElem? here)
    · simp [State.record, same, keys]
    · simp [State.record, same, keys]
  · have same : latest t (g.record id loc).past = latest t g.past := latest_other differs
    have before : latest t g.past ≠ none := same ▸ recorded
    rcases lasts t before with member | filled
    · rcases recordLocation_cases g.locations id loc with
        ⟨pos, found, _, here, same⟩ | ⟨absent, room, same⟩ | ⟨absent, full, same⟩
      · left
        simpa only [State.record, same, keys_modify] using member
      · left
        simp only [State.record, same, keys_append]
        exact List.mem_append_left _ member
      · have arrives := position_none.mpr absent
        have oldest := order (by simp [overflows, arrives, full])
        have apart : (keys g.locations.tail ++ [id]).Nodup := by
          have apart := next.apart
          simp only [State.record, same, keys_append] at apart
          exact apart
        simp only [State.record, same, keys_append, arrives, Option.isNone_none]
        exact evicted_or_kept oldest apart absent member full
    · exact .inr (Nat.le_trans filled (newcomers_length differs))

theorem Lasts.take (lasts : Lasts g) (id : ThreadId) : Lasts (g.take id) := by
  intro t recorded
  rcases eq_or_ne id t with rfl | differs
  · exact absurd (latest_own rfl) recorded
  · have same : latest t (g.take id).past = latest t g.past := latest_other differs
    rcases lasts t (same ▸ recorded) with member | filled
    · left
      rcases takePanicLocation_cases g.locations id with ⟨pos, found, _, here, took⟩ | ⟨_, took⟩
      · simp only [State.take, took]
        rcases List.mem_cons.mp ((keys_swapRemove here).symm.subset member) with own | member
        · exact absurd own.symm differs
        · exact member
      · simpa only [State.take, took] using member
    · exact .inr (Nat.le_trans filled (newcomers_length differs))

/-! ### Runs -/

theorem Reaches.sound (reach : Reaches g) : Sound g := by
  refine reach.invariant ?_ ?_
  · rintro _ rfl
    exact ⟨by decide, List.nodup_nil, fun t loc member => nomatch member⟩
  · rintro g g' sound ⟨a, went⟩
    exact sound.step went

/-- A step that overflows the table only where that drops the oldest entry. -/
def orderly (g : State) (a : Act) : Option State :=
  if overflows g a && !oldestFirst g.locations g.past then none else step g a

def OrderlySteps (g g' : State) : Prop := ∃ a, orderly g a = some g'

/-- What the threads can do if each overflow drops the oldest entry. -/
def ReachesOrderly (g : State) : Prop := Reachable (· = State.new) OrderlySteps g

theorem orderly_cases {a : Act} (went : orderly g a = some g') :
    step g a = some g' ∧ (overflows g a = true → oldestFirst g.locations g.past = true) := by
  unfold orderly at went
  split at went
  · cases went
  · rename_i kept
    refine ⟨went, fun halted => ?_⟩
    simpa [halted] using kept

theorem ReachesOrderly.reaches (reach : ReachesOrderly g) : Reaches g := by
  refine Reachable.mono (fun _ start => start) ?_ reach
  rintro g g' _ ⟨a, went⟩
  exact ⟨a, (orderly_cases went).1⟩

theorem ReachesOrderly.lasts (reach : ReachesOrderly g) : Lasts g := by
  refine reach.induction ?_ ?_
  · rintro _ rfl t recorded
    exact absurd rfl recorded
  · rintro g g' before lasts ⟨a, went⟩
    have before : Reaches g := ReachesOrderly.reaches before
    obtain ⟨went, order⟩ := orderly_cases went
    rcases step_cases went with ⟨list, past⟩ | ⟨id, loc, rfl, rfl⟩ | ⟨id, _, rfl⟩
    · unfold Lasts
      rw [list, past]
      exact lasts
    · exact lasts.record before.sound id loc order
    · exact lasts.take id

/-- The calling thread gets its own last location or nothing. -/
def TakesOwn (g : State) : Prop :=
  ∀ t, (takePanicLocation g.locations t).1 = none ∨
    (takePanicLocation g.locations t).1 = latest t g.past

/-- The calling thread gets its last location unless others have since filled the table. -/
def LosesOldest (g : State) : Prop :=
  ∀ t loc, latest t g.past = some loc →
    (takePanicLocation g.locations t).1 = some loc ∨
    maxPanicLocations ≤ (newcomers (since t g.past)).length

theorem Sound.takes_own (sound : Sound g) : TakesOwn g := by
  intro t
  cases given : (takePanicLocation g.locations t).1 with
  | none => exact .inl rfl
  | some loc => exact .inr (sound.held t loc (takePanicLocation_mem given)).symm

theorem Sound.loses_oldest (sound : Sound g) (lasts : Lasts g) : LosesOldest g := by
  intro t loc recorded
  rcases lasts t (by simp [recorded]) with member | filled
  · obtain ⟨given, took⟩ := takePanicLocation_some member
    have same := sound.held t given (takePanicLocation_mem took)
    rw [recorded] at same
    exact .inl (same ▸ took)
  · exact .inr filled

/-- The bound, one entry for a thread and the answers of `take_panic_location` in every run, and
what an overflow can cost in every run in which each drops the oldest entry. -/
theorem panic_locations_keep_newest {g : State} (reach : Reaches g) :
    g.locations.length ≤ maxPanicLocations ∧ (keys g.locations).Nodup ∧ TakesOwn g ∧
    (ReachesOrderly g → LosesOldest g) := by
  have sound := reach.sound
  refine ⟨sound.bounded, sound.apart, sound.takes_own, ?_⟩
  intro orderly
  exact sound.loses_oldest orderly.lasts

def panics (id : ThreadId) : List Act := [.panic id (some ("lib.rs", 7)), .record id]

/-- The first `n` threads have panicked, one after the other. -/
def stormed (n : Nat) : State where
  files := if n = 0 then [] else ["lib.rs"]
  locations := (List.range n).map fun id => (id, ⟨"lib.rs", 7⟩)
  hooks := []
  past := ((List.range n).map fun id => .recorded id ⟨"lib.rs", 7⟩ true).reverse

theorem stormed_panics {n : Nat} (room : n < maxPanicLocations) :
    follow orderly (stormed n) (panics n) = some (stormed (n + 1)) := by
  have absent : position (stormed n).locations n = none :=
    position_none.mpr (by simp [stormed, keys])
  have length : (stormed n).locations.length = n := by simp [stormed]
  have interned : internFileString (stormed n).files "lib.rs" = ("lib.rs", ["lib.rs"]) := by
    cases n with
    | zero => rfl
    | succ n => rfl
  have first : orderly (stormed n) (.panic n (some ("lib.rs", 7))) =
      some ((stormed n).intern n "lib.rs" 7) := rfl
  have found : position ((stormed n).intern n "lib.rs" 7).hooks n = some 0 := by
    simp [position, State.intern, List.findIdx?_cons]
  have second : orderly ((stormed n).intern n "lib.rs" 7) (.record n) =
      some (((stormed n).intern n "lib.rs" 7).record n ⟨"lib.rs", 7⟩) := by
    have stays : overflows ((stormed n).intern n "lib.rs" 7) (.record n) = false := by
      simp only [overflows, State.intern, length, Bool.and_eq_false_imp, decide_eq_false_iff_not]
      omega
    simp only [orderly, stays, Bool.false_and, Bool.false_eq_true, if_false, step, found,
      Option.bind_some]
    simp [State.intern, interned]
  have third : ((stormed n).intern n "lib.rs" 7).record n ⟨"lib.rs", 7⟩ = stormed (n + 1) := by
    have pushed : recordLocation (stormed n).locations n ⟨"lib.rs", 7⟩ =
        (stormed n).locations ++ [(n, ⟨"lib.rs", 7⟩)] := by
      rw [recordLocation, absent]
      simp only [length]
      rw [if_neg (by omega)]
    simp only [State.record, State.intern, interned, pushed, absent]
    simp [stormed, List.range_succ]
  rw [panics, follow_cons first, follow_cons second, third]
  rfl

theorem stormed_reached {n : Nat} (room : n ≤ maxPanicLocations) : ReachesOrderly (stormed n) := by
  induction n with
  | zero => exact .start rfl
  | succ n ih =>
    exact Reachable.follow (fun _ a _ went => ⟨a, went⟩) (ih (Nat.le_of_succ_le room))
      (stormed_panics room)

/-- With one panic more than there is room for, the first thread finds its location gone. -/
theorem panic_locations_keep_newest_storm :
    ∃ g, ReachesOrderly g ∧ g.locations.length = maxPanicLocations ∧
      latest 0 g.past = some ⟨"lib.rs", 7⟩ ∧ (takePanicLocation g.locations 0).1 = none ∧
      maxPanicLocations ≤ (newcomers (since 0 g.past)).length := by
  have run : (follow orderly (stormed 256) (panics 256)).map
      (fun g => (g.locations.length, latest 0 g.past, (takePanicLocation g.locations 0).1)) =
      some (256, some ⟨"lib.rs", 7⟩, none) := by decide +kernel
  obtain ⟨g, run, same⟩ := Option.map_eq_some_iff.mp run
  simp only [Prod.mk.injEq] at same
  obtain ⟨length, recorded, gone⟩ := same
  have reach : ReachesOrderly g :=
    Reachable.follow (fun _ a _ went => ⟨a, went⟩) (stormed_reached (Nat.le_refl _)) run
  refine ⟨g, reach, length, recorded, gone, ?_⟩
  obtain ⟨_, _, _, loses⟩ := panic_locations_keep_newest reach.reaches
  rcases loses reach 0 _ recorded with given | filled
  · rw [gone] at given
    cases given
  · exact filled

/-- 256 threads panic, the first takes its location, and two more threads panic: the entry of the
last of the 256 has moved to the front, and the second overflow drops it. -/
theorem take_moves_newest_to_front :
    ∃ g, Reaches g ∧ latest 255 g.past = some ⟨"lib.rs", 7⟩ ∧
      (takePanicLocation g.locations 255).1 = none ∧
      newcomers (since 255 g.past) = [257, 256] ∧ ¬ LosesOldest g := by
  have run : (follow step (stormed 256) (.take 0 :: (panics 256 ++ panics 257))).map
      (fun g => (latest 255 g.past, (takePanicLocation g.locations 255).1,
        newcomers (since 255 g.past))) =
      some (some ⟨"lib.rs", 7⟩, none, [257, 256]) := by decide +kernel
  obtain ⟨g, run, same⟩ := Option.map_eq_some_iff.mp run
  simp only [Prod.mk.injEq] at same
  obtain ⟨recorded, gone, after⟩ := same
  have reach : Reaches g :=
    Reachable.follow (fun _ a _ went => ⟨a, went⟩) (stormed_reached (Nat.le_refl _)).reaches run
  refine ⟨g, reach, recorded, gone, after, ?_⟩
  intro loses
  rcases loses 255 _ recorded with given | filled
  · rw [gone] at given
    cases given
  · rw [after] at filled
    exact absurd filled (by decide)

end Gusset.Guard
