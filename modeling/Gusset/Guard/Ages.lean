import Gusset.Guard.Table

/-! What the panic-location table holds in every run, and how long a location stays in it. -/
namespace Gusset.Guard
open Foundation

/-! ### The vector -/

section Vector
variable {α : Type u}

theorem swapRemove_concat (front : List α) (last : α) (pos : Nat) :
    swapRemove (front ++ [last]) pos = front.set pos last := by
  unfold swapRemove
  rw [List.getLast?_concat]
  simp only
  rcases Nat.lt_or_ge pos front.length with inside | past
  · rw [List.set_append_left _ _ inside, List.dropLast_concat]
  · rw [List.set_append_right _ _ past, List.set_eq_of_length_le past]
    cases pos - front.length with
    | zero => exact List.dropLast_concat
    | succ k => exact List.dropLast_concat

/-- The element that goes and the ones that stay are the list. -/
theorem swapRemove_perm {list : List α} {pos : Nat} {gone : α} (here : list[pos]? = some gone) :
    (gone :: swapRemove list pos).Perm list := by
  induction list using List.reverseRecOn with
  | nil => cases here
  | append_singleton front last _ =>
    rw [swapRemove_concat]
    rcases Nat.lt_trichotomy pos front.length with inside | same | past
    · rw [List.getElem?_append_left inside] at here
      obtain ⟨_, rfl⟩ := List.getElem?_eq_some_iff.mp here
      rw [List.set_eq_take_append_cons_drop, if_pos inside]
      have split : front.take pos ++ front[pos] :: front.drop (pos + 1) = front := by
        rw [List.getElem_cons_drop, List.take_append_drop]
      have out : (front[pos] :: (front.take pos ++ last :: front.drop (pos + 1))).Perm
          (last :: front[pos] :: (front.take pos ++ front.drop (pos + 1))) :=
        (List.perm_middle.cons _).trans (List.Perm.swap _ _ _)
      have back : (last :: front[pos] :: (front.take pos ++ front.drop (pos + 1))).Perm
          (last :: (front.take pos ++ front[pos] :: front.drop (pos + 1))) :=
        List.perm_middle.symm.cons _
      rw [split] at back
      exact (out.trans back).trans (List.perm_append_singleton last front).symm
    · rw [same, List.getElem?_concat_length] at here
      cases here
      rw [List.set_eq_of_length_le (Nat.le_of_eq same.symm)]
      exact (List.perm_append_singleton gone front).symm
    · rw [List.getElem?_eq_none (by rw [List.length_append, List.length_singleton]; omega)] at here
      cases here

end Vector

variable {list : Table} {id t : ThreadId} {loc : PanicLocation}

def keys (list : Table) : List ThreadId := list.map Prod.fst

@[simp] theorem keys_append (list more : Table) : keys (list ++ more) = keys list ++ keys more :=
  List.map_append

theorem keys_modify (list : Table) (pos : Nat) (loc : PanicLocation) :
    keys (list.modify pos fun entry => (entry.1, loc)) = keys list := by
  induction list generalizing pos with
  | nil => cases pos <;> rfl
  | cons entry rest ih =>
    cases pos with
    | zero => rfl
    | succ pos =>
      simp only [keys, List.modify_succ_cons, List.map_cons, List.cons.injEq, true_and]
      exact ih pos

theorem position_some {pos : Nat} (found : position list id = some pos) :
    ∃ loc, list[pos]? = some (id, loc) := by
  obtain ⟨inside, same, _⟩ := List.findIdx?_eq_some_iff_getElem.mp found
  refine ⟨list[pos].2, ?_⟩
  rw [List.getElem?_eq_getElem inside, ← LawfulBEq.eq_of_beq same]

theorem position_none : position list id = none ↔ id ∉ keys list := by
  unfold position keys
  rw [List.findIdx?_eq_none_iff, List.mem_map]
  constructor
  · rintro absent ⟨entry, member, rfl⟩
    simpa using absent entry member
  · intro absent entry member
    simp only [beq_eq_false_iff_ne]
    rintro rfl
    exact absent ⟨entry, member, rfl⟩

theorem mem_keys (member : (t, loc) ∈ list) : t ∈ keys list :=
  List.mem_map.mpr ⟨(t, loc), member, rfl⟩

theorem mem_modify {pos : Nat} {found : PanicLocation} (here : list[pos]? = some (id, found))
    (apart : (keys list).Nodup) {held : PanicLocation}
    (member : (t, held) ∈ list.modify pos fun entry => (entry.1, loc)) :
    (t = id ∧ held = loc) ∨ (t ≠ id ∧ (t, held) ∈ list) := by
  obtain ⟨i, at_i⟩ := List.mem_iff_getElem?.mp member
  rw [List.getElem?_modify] at at_i
  split at at_i
  · rename_i same
    subst same
    rw [here] at at_i
    cases at_i
    exact .inl ⟨rfl, rfl⟩
  · rename_i other
    have at_i : list[i]? = some (t, held) := by simpa using at_i
    refine .inr ⟨?_, List.mem_of_getElem? at_i⟩
    rintro rfl
    apply other
    have first : (keys list)[pos]? = some t := by simp [keys, here]
    have second : (keys list)[i]? = some t := by simp [keys, at_i]
    obtain ⟨inside, first⟩ := List.getElem?_eq_some_iff.mp first
    obtain ⟨inside', second⟩ := List.getElem?_eq_some_iff.mp second
    exact (List.Nodup.getElem_inj_iff apart).mp (first.trans second.symm)

/-! ### One call -/

theorem recordLocation_cases (list : Table) (id : ThreadId) (loc : PanicLocation) :
    (∃ pos found, position list id = some pos ∧ list[pos]? = some (id, found) ∧
      recordLocation list id loc = list.modify pos fun entry => (entry.1, loc)) ∨
    (id ∉ keys list ∧ list.length < maxPanicLocations ∧
      recordLocation list id loc = list ++ [(id, loc)]) ∨
    (id ∉ keys list ∧ maxPanicLocations ≤ list.length ∧
      recordLocation list id loc = list.tail ++ [(id, loc)]) := by
  unfold recordLocation
  split
  · rename_i pos found
    obtain ⟨old, here⟩ := position_some found
    exact .inl ⟨pos, old, found, here, rfl⟩
  · rename_i absent
    split
    · rename_i full
      exact .inr (.inr ⟨position_none.mp absent, full, by rw [List.eraseIdx_zero]⟩)
    · rename_i room
      exact .inr (.inl ⟨position_none.mp absent, by omega, rfl⟩)

theorem takePanicLocation_cases (list : Table) (id : ThreadId) :
    (∃ pos found, position list id = some pos ∧ list[pos]? = some (id, found) ∧
      takePanicLocation list id = (some found, swapRemove list pos)) ∨
    (id ∉ keys list ∧ takePanicLocation list id = (none, list)) := by
  unfold takePanicLocation
  split
  · rename_i pos found
    obtain ⟨old, here⟩ := position_some found
    exact .inl ⟨pos, old, found, here, by rw [here]; rfl⟩
  · rename_i absent
    exact .inr ⟨position_none.mp absent, rfl⟩

theorem takePanicLocation_mem (given : (takePanicLocation list t).1 = some loc) :
    (t, loc) ∈ list := by
  rcases takePanicLocation_cases list t with ⟨pos, found, _, here, took⟩ | ⟨_, took⟩
  · rw [took] at given
    cases given
    exact List.mem_of_getElem? here
  · rw [took] at given
    cases given

theorem takePanicLocation_some (member : t ∈ keys list) :
    ∃ loc, (takePanicLocation list t).1 = some loc := by
  rcases takePanicLocation_cases list t with ⟨pos, found, _, _, took⟩ | ⟨absent, _⟩
  · exact ⟨found, by rw [took]⟩
  · exact absurd member absent

/-- The keys that stay are the others. -/
theorem keys_swapRemove {pos : Nat} (here : list[pos]? = some (id, loc)) :
    (id :: keys (swapRemove list pos)).Perm (keys list) :=
  (swapRemove_perm here).map Prod.fst

/-! ### The past -/

/-- What was done since the thread last recorded or took. -/
def since (t : ThreadId) (past : List Event) : List Event :=
  past.takeWhile fun event => event.thread != t

/-- The threads that had an entry added. -/
def newcomers (past : List Event) : List ThreadId := past.filterMap Event.newcomer

/-- The location the thread recorded last, if it has not taken since. -/
def latest (t : ThreadId) (past : List Event) : Option PanicLocation :=
  (past.find? fun event => event.thread == t).bind Event.location

variable {event : Event} {past : List Event}

theorem latest_own (own : event.thread = t) : latest t (event :: past) = event.location := by
  simp [latest, own]

theorem latest_other (other : event.thread ≠ t) : latest t (event :: past) = latest t past := by
  simp [latest, other]

theorem since_other (other : event.thread ≠ t) :
    since t (event :: past) = event :: since t past := by
  simp [since, other]

theorem newcomers_cons (event : Event) (past : List Event) :
    newcomers (event :: past) = event.newcomer.toList ++ newcomers past := by
  unfold newcomers
  rw [List.filterMap_cons]
  cases event.newcomer <;> rfl

theorem newcomers_grow (other : event.thread ≠ t) :
    ∀ u ∈ newcomers (since t past), u ∈ newcomers (since t (event :: past)) := by
  intro u member
  rw [since_other other, newcomers_cons]
  exact List.mem_append_right _ member

theorem newcomers_length (other : event.thread ≠ t) :
    (newcomers (since t past)).length ≤ (newcomers (since t (event :: past))).length := by
  rw [since_other other, newcomers_cons, List.length_append]
  omega

theorem newcomers_recorded (other : id ≠ t) :
    id ∈ newcomers (since t (.recorded id loc true :: past)) := by
  have differs : (Event.recorded id loc true).thread ≠ t := other
  rw [since_other differs, newcomers_cons]
  exact List.mem_append_left _ (List.mem_singleton.mpr rfl)

/-! ### One step -/

variable {g g' : State}

theorem step_cases {a : Act} (went : step g a = some g') :
    (g'.locations = g.locations ∧ g'.past = g.past) ∨
    (∃ id loc, a = .record id ∧ g' = g.record id loc) ∨
    ∃ id, a = .take id ∧ g' = g.take id := by
  cases a with
  | panic id site =>
    simp only [step] at went
    split at went
    · cases went
      exact .inl ⟨rfl, rfl⟩
    · cases went
      exact .inl ⟨rfl, rfl⟩
    · cases went
  | record id =>
    obtain ⟨pos, _, went⟩ := Option.bind_eq_some_iff.mp went
    obtain ⟨entry, _, rfl⟩ := Option.map_eq_some_iff.mp went
    exact .inr (.inl ⟨id, entry.2, rfl, rfl⟩)
  | take id =>
    simp only [step] at went
    split at went
    · cases went
      exact .inr (.inr ⟨id, rfl, rfl⟩)
    · cases went

/-- What holds in every run: the bound, one entry for a thread, and no location but its last. -/
structure Sound (g : State) : Prop where
  bounded : g.locations.length ≤ maxPanicLocations
  apart : (keys g.locations).Nodup
  held : ∀ t loc, (t, loc) ∈ g.locations → latest t g.past = some loc

theorem Sound.kept (sound : Sound g) {event : Event} {held : PanicLocation}
    (member : (t, held) ∈ g.locations) (other : event.thread ≠ t) :
    latest t (event :: g.past) = some held :=
  (latest_other other).trans (sound.held t held member)

/-- A new entry behind some of the old ones. -/
theorem Sound.push (sound : Sound g) {rest : Table} (fewer : rest.Sublist g.locations)
    (room : rest.length < maxPanicLocations) (absent : id ∉ keys g.locations)
    (same : recordLocation g.locations id loc = rest ++ [(id, loc)]) :
    Sound (g.record id loc) := by
  have shorter : (keys rest).Sublist (keys g.locations) := fewer.map _
  have absent : id ∉ keys rest := fun member => absent (shorter.subset member)
  constructor <;> simp only [State.record, same]
  · rw [List.length_append, List.length_singleton]
    omega
  · rw [keys_append]
    exact List.nodup_append_comm.mp (List.nodup_cons.mpr ⟨absent, sound.apart.sublist shorter⟩)
  · intro t held member
    rcases List.mem_append.mp member with old | new
    · refine sound.kept (fewer.subset old) ?_
      rintro rfl
      exact absent (mem_keys old)
    · cases List.mem_singleton.mp new
      exact latest_own rfl

theorem Sound.record (sound : Sound g) (id : ThreadId) (loc : PanicLocation) :
    Sound (g.record id loc) := by
  rcases recordLocation_cases g.locations id loc with
    ⟨pos, found, _, here, same⟩ | ⟨absent, room, same⟩ | ⟨absent, full, same⟩
  · constructor <;> simp only [State.record, same]
    · rw [List.length_modify]
      exact sound.bounded
    · rw [keys_modify]
      exact sound.apart
    · intro t held member
      rcases mem_modify here sound.apart member with ⟨rfl, rfl⟩ | ⟨differs, member⟩
      · exact latest_own rfl
      · exact sound.kept member (Ne.symm differs)
  · exact sound.push (List.Sublist.refl _) room absent same
  · refine sound.push (List.tail_sublist _) ?_ absent same
    have bounded := sound.bounded
    have some_one : 0 < maxPanicLocations := by decide
    rw [List.length_tail]
    omega

theorem Sound.take (sound : Sound g) (id : ThreadId) : Sound (g.take id) := by
  rcases takePanicLocation_cases g.locations id with ⟨pos, found, _, here, took⟩ | ⟨absent, took⟩
  · have perm := swapRemove_perm here
    have apart := (keys_swapRemove here).nodup_iff.mpr sound.apart
    constructor <;> simp only [State.take, took]
    · have length := perm.length_eq
      have bounded := sound.bounded
      rw [List.length_cons] at length
      omega
    · exact apart.of_cons
    · intro t held member
      refine sound.kept (perm.subset (List.mem_cons_of_mem _ member)) ?_
      rintro rfl
      exact (List.nodup_cons.mp apart).1 (mem_keys member)
  · constructor <;> simp only [State.take, took]
    · exact sound.bounded
    · exact sound.apart
    · intro t held member
      refine sound.kept member ?_
      rintro rfl
      exact absent (mem_keys member)

theorem Sound.step {a : Act} (sound : Sound g) (went : step g a = some g') : Sound g' := by
  rcases step_cases went with ⟨list, past⟩ | ⟨id, loc, _, rfl⟩ | ⟨id, _, rfl⟩
  · exact ⟨list ▸ sound.bounded, list ▸ sound.apart, list ▸ past ▸ sound.held⟩
  · exact sound.record id loc
  · exact sound.take id

end Gusset.Guard
