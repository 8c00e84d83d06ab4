import Gusset.Descriptor.Ownership

/-! The references a call holds while it runs, `Drop` after the last of them, and the threads a
close waits for: what keeps a release of the write end from being stuck. -/
namespace Gusset.Descriptor
open Foundation

def Who.holds : Who → Nat
  | .caller | .joiner => 1
  | .dropper => 0

/-- The references a thread has to hold where it stands. -/
def Pc.needs : Pc → Nat
  | .locking | .attempting _ | .blocked | .sleeping | .waiting _ | .joiningJoiner _ | .sending
  | .dropping => 1
  | .swapping who | .signalling who | .draining who | .sorting who _ | .upgrading who _
  | .joining who _ | .releasing who | .swappingFd who | .closingFd who _ => who.holds
  | .spawningJoiner who _ => who.holds + 1
  | _ => 0

/-- In `Drop`. -/
def Pc.drops : Pc → Bool
  | .swapping who | .signalling who | .draining who | .sorting who _ | .upgrading who _
  | .spawningJoiner who _ | .joining who _ | .releasing who | .swappingFd who
  | .closingFd who _ => who == .dropper
  | _ => false

/-- The worker threads a close still has to join. -/
def Pc.awaits : Pc → List Nat
  | .upgrading _ rest | .spawningJoiner _ rest | .joining _ rest => rest
  | _ => []

def Pc.sorts : Pc → List Nat
  | .sorting _ handles => handles
  | _ => []

structure Waits (s : State) : Prop where
  needs : ∀ (i : Nat) (th : Thread), s.threads[i]? = some th → th.pc.needs ≤ th.arcs
  last : ∀ (i : Nat) (th : Thread), s.threads[i]? = some th → th.pc.drops = true → s.strong = 0
  known : ∀ w ∈ s.handle.workers, w < s.threads.length
  sorts : ∀ (i : Nat) (th : Thread), s.threads[i]? = some th →
    ∀ w ∈ th.pc.sorts, w < s.threads.length
  awaits : ∀ (i : Nat) (th : Thread), s.threads[i]? = some th →
    ∀ w ∈ th.pc.awaits, w < s.threads.length ∧ w ≠ i

variable {cfg : Config} {s t : State} {i : Nat} {th : Thread} {c : Choice} {m : Move} {e : Effect}

/-- What a step does to the references and the lists, of one thread. -/
structure Passes (s : State) (i : Nat) (th : Thread) (e : Effect) : Prop where
  needs : e.thread.pc.needs ≤ e.thread.arcs
  drops : e.thread.pc.drops = true → th.pc.drops = true ∨
    s.strong = 1 ∧ 0 < th.arcs ∧ e.thread.arcs = th.arcs - 1 ∧ e.started = []
  none : s.strong = 0 → th.pc.opening = 0 → e.thread.arcs = 0 ∧ ∀ x ∈ e.started, x.arcs = 0
  workers : ∀ w ∈ e.handle.workers, w ∈ s.handle.workers ∨ w = s.threads.length ∧ e.started ≠ []
  sorts : ∀ w ∈ e.thread.pc.sorts, w ∈ s.handle.workers
  awaits : ∀ w ∈ e.thread.pc.awaits, w ∈ th.pc.awaits ∨ w ∈ th.pc.sorts ∧ w ≠ i
  started : ∀ x ∈ e.started, x = worker ∨
    x.arcs = 1 ∧ ∃ rest, x.pc = .joining .joiner rest ∧ rest = th.pc.awaits

section Step

variable (needs : th.pc.needs ≤ th.arcs) (held : th.arcs ≤ s.strong)

include needs held

/-- A step that starts nobody and takes no reference. -/
theorem Passes.goes {h : Handle} {pc pc' : Pc} {sent : Bool} {late : Nat} (here : th.pc = pc)
    (workers : h.workers = s.handle.workers) (less : pc'.needs ≤ pc.needs)
    (drops : pc'.drops = true → pc.drops = true) (sorts : pc'.sorts = [])
    (awaits : ∀ w ∈ pc'.awaits, w ∈ pc.awaits) :
    Passes s i th ⟨h, { th with pc := pc', sent := sent, late := late }, []⟩ := by
  subst here
  refine ⟨Nat.le_trans less needs, fun yes => .inl (drops yes), ?_, ?_, ?_, ?_, ?_⟩
  · intro zero _
    exact ⟨by dsimp only; omega, List.forall_mem_nil _⟩
  · intro w member
    exact .inl (workers ▸ member)
  · intro w member
    change w ∈ pc'.sorts at member
    rw [sorts] at member
    cases member
  · intro w member
    exact .inl (awaits w member)
  · exact List.forall_mem_nil _

omit needs in
theorem Passes.drop (one : 0 < th.arcs) (workers : e.handle.workers = s.handle.workers)
    (thread : e.thread = th.letGo s.strong) (started : e.started = []) : Passes s i th e := by
  have place := letGo_cases th s.strong
  refine ⟨?_, ?_, ?_, ?_, ?_, ?_, ?_⟩
  · rw [thread]
    rcases place with place | place <;> rw [place] <;> exact Nat.zero_le _
  · intro yes
    rw [thread] at yes ⊢
    unfold Thread.letGo at yes
    split at yes
    · rename_i only
      exact .inr ⟨only, one, rfl, started⟩
    · cases yes
  · intro zero
    omega
  · intro w member
    exact .inl (workers ▸ member)
  · rw [thread]
    rcases place with place | place <;> rw [place] <;> exact List.forall_mem_nil _
  · rw [thread]
    rcases place with place | place <;> rw [place] <;> exact List.forall_mem_nil _
  · rw [started]
    exact List.forall_mem_nil _

theorem write_passes (went : writeStep s th th.pc c = some e) : Passes s i th e := by
  unfold writeStep at went
  split at went
  · rename_i here
    split at went
    · cases went
    · cases went
      exact .goes needs held here rfl (Nat.le_refl _) nofun rfl (List.forall_mem_nil _)
  · rename_i here
    cases went
    exact .goes needs held here rfl (Nat.zero_le _) nofun rfl (List.forall_mem_nil _)
  · rename_i here
    cases went
    exact .goes needs held here rfl (Nat.zero_le _) nofun rfl (List.forall_mem_nil _)
  · rename_i here
    cases went
    exact .goes needs held here rfl (Nat.zero_le _) nofun rfl (List.forall_mem_nil _)
  · rename_i here
    cases went
    exact .goes needs held here rfl (Nat.le_refl _) nofun rfl (List.forall_mem_nil _)
  · rename_i here
    cases went
    split
    · exact .goes needs held here rfl (Nat.zero_le _) nofun rfl (List.forall_mem_nil _)
    · exact .goes needs held here rfl (Nat.le_refl _) nofun rfl (List.forall_mem_nil _)
  · rename_i here
    cases went
    exact .goes needs held here rfl (Nat.le_refl _) nofun rfl (List.forall_mem_nil _)
  · cases went

theorem close_passes (last : th.pc.drops = true → s.strong = 0)
    (went : closeStep s i th th.pc c = some e) : Passes s i th e := by
  unfold closeStep at went
  split at went
  · rename_i here
    split at went
    · cases went
      exact .goes needs held here rfl (Nat.zero_le _) nofun rfl (List.forall_mem_nil _)
    · cases went
      exact .goes needs held here rfl (Nat.le_refl _) id rfl (List.forall_mem_nil _)
  · rename_i here
    cases went
    exact .goes needs held here rfl (Nat.le_refl _) id rfl (List.forall_mem_nil _)
  · rename_i here
    rw [here] at needs
    cases went
    refine ⟨needs, fun yes => .inl (here ▸ yes), ?_, List.forall_mem_nil _, fun w member => member,
      List.forall_mem_nil _, List.forall_mem_nil _⟩
    intro zero _
    exact ⟨by change th.arcs = 0; omega, List.forall_mem_nil _⟩
  · rename_i who handles here
    rw [here] at needs
    cases went
    have none (zero : s.strong = 0) : th.arcs = 0 := by omega
    split
    · exact ⟨needs, fun yes => .inl (here ▸ yes), fun zero _ => ⟨none zero, List.forall_mem_nil _⟩,
        fun w member => .inl member, List.forall_mem_nil _, List.forall_mem_nil _,
        List.forall_mem_nil _⟩
    · refine ⟨needs, fun yes => .inl (here ▸ yes), fun zero _ => ⟨none zero, List.forall_mem_nil _⟩,
        fun w member => .inl member, List.forall_mem_nil _, ?_, List.forall_mem_nil _⟩
      intro w member
      obtain ⟨old, other⟩ := List.mem_filter.mp member
      rw [here]
      exact .inr ⟨old, by simpa using other⟩
  · rename_i who foreign here
    cases went
    split
    · exact .goes needs held here rfl (Nat.le_refl _) id rfl fun w member => member
    · rename_i some
      rw [here] at needs
      refine ⟨Nat.succ_le_succ needs, fun yes => .inl (here ▸ yes), fun zero => absurd zero some,
        fun w member => .inl member, List.forall_mem_nil _, fun w member => .inl (here ▸ member),
        List.forall_mem_nil _⟩
  · rename_i who foreign here
    rw [here] at needs
    have one : who.holds + 1 ≤ th.arcs := needs
    cases went
    refine ⟨by change who.holds ≤ th.arcs - 1; omega, fun yes => .inl (here ▸ yes), ?_,
      fun w member => .inl member, List.forall_mem_nil _, fun w member => .inl (here ▸ member),
      List.forall_mem_nil _⟩
    intro zero
    omega
  · rename_i who foreign here
    rw [here] at needs last
    have one : who.holds + 1 ≤ th.arcs := needs
    have two : 1 ≤ who.holds := by
      cases who with
      | dropper =>
        have zero := last rfl
        omega
      | _ => exact Nat.le_refl _
    cases went
    refine ⟨by change 1 ≤ th.arcs - 1; omega, nofun, ?_, fun w member => .inl member,
      List.forall_mem_nil _, List.forall_mem_nil _, ?_⟩
    · intro zero
      omega
    · intro x member
      rw [List.mem_singleton.mp member, here]
      exact .inr ⟨rfl, foreign, rfl, rfl⟩
  · rename_i here
    cases went
    exact .goes needs held here rfl (Nat.le_refl _) id rfl (List.forall_mem_nil _)
  · rename_i here
    split at went
    · cases went
      exact .goes needs held here rfl (Nat.le_refl _) id rfl fun w => List.mem_cons_of_mem _
    · cases went
  · rename_i here
    split at went
    · cases went
    · cases went
      exact .goes needs held here rfl (Nat.le_refl _) id rfl (List.forall_mem_nil _)
  · rename_i here
    cases went
    exact .goes needs held here rfl (Nat.le_refl _) id rfl (List.forall_mem_nil _)
  · rename_i who _ here
    cases went
    cases who
    · exact .goes needs held here rfl (Nat.zero_le _) nofun rfl (List.forall_mem_nil _)
    · exact .goes needs held here rfl (Nat.zero_le _) nofun rfl (List.forall_mem_nil _)
    · exact .goes needs held here rfl (Nat.le_refl _) nofun rfl (List.forall_mem_nil _)
  · rename_i here
    split at went
    · cases went
      exact .goes needs held here rfl (Nat.le_refl _) nofun rfl (List.forall_mem_nil _)
    · cases went
  · rename_i here
    cases went
    exact .goes needs held here rfl (Nat.zero_le _) nofun rfl (List.forall_mem_nil _)
  · rename_i here
    split at went
    · cases went
      exact .goes needs held here rfl (Nat.zero_le _) nofun rfl (List.forall_mem_nil _)
    · cases went
  · rename_i here
    cases went
    exact .goes needs held here rfl (Nat.le_refl _) nofun rfl (List.forall_mem_nil _)
  · rename_i here
    cases went
    have one : 0 < th.arcs := by rw [here] at needs; exact needs
    exact .drop held one rfl rfl rfl
  · cases went

theorem open_passes (stands : Stands s.handle th) (went : openStep cfg s th th.pc c = some e) :
    Passes s i th e := by
  have fails (one : th.pc.opening = 1) (later : th.pc ≠ .checking) :
      Passes s i th (failOpen s th) := by
    have mine := stands.keeps one
    rw [if_neg later] at mine
    exact .drop held (by omega) rfl rfl rfl
  unfold openStep at went
  split at went
  · rename_i here
    cases went
    exact .goes needs held here rfl (Nat.zero_le _) nofun rfl (List.forall_mem_nil _)
  · rename_i here
    cases went
    refine ⟨Nat.zero_le _, nofun, fun _ other => ?_, fun w member => .inl member,
      List.forall_mem_nil _, List.forall_mem_nil _, List.forall_mem_nil _⟩
    rw [here] at other
    cases other
  · rename_i here
    cases went
    exact .goes needs held here rfl (Nat.zero_le _) nofun rfl (List.forall_mem_nil _)
  · rename_i here
    cases went
    exact fails (by rw [here]; rfl) (by simp [here])
  · rename_i here
    cases went
    refine ⟨Nat.zero_le _, nofun, fun _ other => ?_, ?_, List.forall_mem_nil _,
      List.forall_mem_nil _, ?_⟩
    · rw [here] at other
      cases other
    · intro w member
      rcases List.mem_append.mp member with old | new
      · exact .inl old
      · exact .inr ⟨List.mem_singleton.mp new, List.cons_ne_nil _ _⟩
    · intro x member
      exact .inl (List.mem_singleton.mp member)
  · rename_i here
    cases went
    exact fails (by rw [here]; rfl) (by simp [here])
  · rename_i here
    cases went
    exact .goes needs held here rfl (Nat.zero_le _) nofun rfl (List.forall_mem_nil _)
  · rename_i here
    cases went
    exact fails (by rw [here]; rfl) (by simp [here])
  · rename_i here
    cases went
    exact .goes needs held here rfl (Nat.zero_le _) nofun rfl (List.forall_mem_nil _)
  · rename_i here
    cases went
    exact .goes needs held here rfl (Nat.zero_le _) nofun rfl (List.forall_mem_nil _)
  · rename_i here
    cases went
    exact .goes needs held here rfl (Nat.zero_le _) nofun rfl (List.forall_mem_nil _)
  · cases went

omit needs held in
theorem gain_passes (here : th.pc = .outside) (some : 0 < s.strong) :
    Passes s i th ⟨s.handle, { th with arcs := th.arcs + 1 }, []⟩ := by
  refine ⟨?_, ?_, fun zero => ?_, fun w member => .inl member, ?_, ?_, List.forall_mem_nil _⟩
  · rw [here]
    exact Nat.zero_le _
  · rw [here]
    exact nofun
  · omega
  · rw [here]
    exact List.forall_mem_nil _
  · rw [here]
    exact List.forall_mem_nil _

theorem move_passes (here : th.pc = .outside) (went : moveStep s th m = some e) :
    Passes s i th e := by
  unfold moveStep at went
  split at went
  all_goals
    split at went
    rotate_left
    · cases went
    rename_i may
    cases went
  · exact gain_passes here may.2
  · refine ⟨may.2, nofun, fun zero => ?_, fun w member => .inl member, List.forall_mem_nil _,
      List.forall_mem_nil _, List.forall_mem_nil _⟩
    omega
  · refine ⟨may, nofun, fun zero => ?_, fun w member => .inl member, List.forall_mem_nil _,
      List.forall_mem_nil _, List.forall_mem_nil _⟩
    omega
  · exact .drop held may rfl rfl rfl
  · refine ⟨?_, ?_, fun zero => ?_, ?_, ?_, ?_, ?_⟩
    · exact needs
    · exact .inl
    · omega
    · intro w member
      rcases List.mem_append.mp member with old | new
      · exact .inl old
      · exact .inr ⟨List.mem_singleton.mp new, List.cons_ne_nil _ _⟩
    · rw [here]
      exact List.forall_mem_nil _
    · rw [here]
      exact List.forall_mem_nil _
    · intro x member
      exact .inl (List.mem_singleton.mp member)
  · exact .goes needs held here rfl (Nat.zero_le _) nofun rfl (List.forall_mem_nil _)

end Step

/-! ### Every state of a run -/

theorem drops_opening {pc : Pc} (drops : pc.drops = true) : pc.opening = 0 := by
  unfold Pc.drops at drops
  split at drops <;> first | rfl | cases drops

theorem idle_drops {pc : Pc} (idle : pc.idle = true) : pc.drops = false := by
  unfold Pc.idle at idle
  split at idle <;> first | rfl | cases idle

theorem opening_le (pc : Pc) : pc.opening ≤ 1 := by
  unfold Pc.opening
  split <;> decide

theorem Waits.apply (owned : Owned cfg s) (waits : Waits s) (member : s.threads[i]? = some th)
    (passes : Passes s i th e) : Waits (s.apply i e) := by
  have longer : (s.apply i e).threads.length = s.threads.length + e.started.length := by
    simp [State.apply]
  have arcs := apply_census (e := e) Thread.arcs member
  have held := le_census Thread.arcs member
  have gone (zero : s.strong = 0) (other : th.pc.opening = 0) : (s.apply i e).strong = 0 := by
    obtain ⟨mine, started⟩ := passes.none zero other
    have fresh := census_eq_zero Thread.arcs started
    unfold State.strong at zero ⊢
    omega
  refine ⟨?_, ?_, ?_, ?_, ?_⟩
  · intro j x found
    rcases apply_member found with ⟨_, rfl⟩ | ⟨_, old⟩ | ⟨_, new⟩
    · exact passes.needs
    · exact waits.needs j x old
    · rcases passes.started x new with rfl | ⟨one, rest, place, _⟩
      · exact Nat.zero_le _
      · rw [one, place]
        exact Nat.le_refl _
  · intro j x found drops
    rcases apply_member found with ⟨_, rfl⟩ | ⟨differ, old⟩ | ⟨_, new⟩
    · rcases passes.drops drops with before | ⟨one, some, less, nobody⟩
      · refine gone (waits.last i th member before) ?_
        by_contra other
        have opening := drops_opening before
        omega
      · unfold State.strong at one ⊢
        rw [nobody, less, census_nil] at arcs
        omega
    · have zero := waits.last j x old drops
      refine gone zero ?_
      by_contra opener
      have one := opening_le th.pc
      have alone := owned.alone member (by omega) differ old
      rw [idle_drops alone.2] at drops
      cases drops
    · rcases passes.started x new with rfl | ⟨_, rest, place, _⟩
      · cases drops
      · rw [place] at drops
        cases drops
  · intro w known
    rcases passes.workers w known with old | ⟨here, some⟩
    · have before := waits.known w old
      omega
    · have some := List.length_pos_iff.mpr some
      omega
  · intro j x found w listed
    rcases apply_member found with ⟨_, rfl⟩ | ⟨_, old⟩ | ⟨_, new⟩
    · have before := waits.known w (passes.sorts w listed)
      omega
    · have before := waits.sorts j x old w listed
      omega
    · rcases passes.started x new with rfl | ⟨_, rest, place, _⟩
      · cases listed
      · rw [place] at listed
        cases listed
  · intro j x found w listed
    rcases apply_member found with ⟨rfl, rfl⟩ | ⟨_, old⟩ | ⟨later, new⟩
    · rcases passes.awaits w listed with before | ⟨sorts, other⟩
      · have before := waits.awaits j th member w before
        exact ⟨by omega, before.2⟩
      · have before := waits.sorts j th member w sorts
        exact ⟨by omega, other⟩
    · have before := waits.awaits j x old w listed
      exact ⟨by omega, before.2⟩
    · rcases passes.started x new with rfl | ⟨_, rest, place, same⟩
      · cases listed
      · rw [place] at listed
        have before := waits.awaits i th member w (same ▸ listed)
        exact ⟨by omega, by omega⟩

theorem Waits.step {a : Act} (owned : Owned cfg s) (waits : Waits s)
    (went : s.step cfg a = some t) : Waits t := by
  cases a with
  | thread i c =>
    obtain ⟨th, member, went⟩ := Option.bind_eq_some_iff.mp went
    obtain ⟨e, gave, rfl⟩ := Option.map_eq_some_iff.mp went
    have needs := waits.needs i th member
    have held := le_census Thread.arcs member
    apply waits.apply owned member
    rcases threadStep_cases gave with opens | writes | closes
    · exact open_passes needs held (owned.stands i th member) opens
    · exact write_passes needs held writes
    · exact close_passes needs held (waits.last i th member) closes
  | move i m =>
    obtain ⟨th, member, went⟩ := Option.bind_eq_some_iff.mp went
    split at went
    · rename_i here
      obtain ⟨e, gave, rfl⟩ := Option.map_eq_some_iff.mp went
      exact waits.apply owned member
        (move_passes (waits.needs i th member) (le_census Thread.arcs member) here gave)
    · cases went
  | clone i k =>
    change s.cloneStep i k = some t at went
    unfold State.cloneStep at went
    split at went
    · rename_i giver taker source target
      split at went
      · rename_i may
        cases went
        have some : 0 < s.strong := Nat.lt_of_lt_of_le may.2.1 (le_census Thread.arcs source)
        simpa only [State.apply, List.append_nil] using waits.apply owned target
          (gain_passes may.2.2 some)
      · cases went
    · cases went
  | reap w =>
    change (if _ then _ else _) = _ at went
    split at went
    · cases went
      obtain ⟨needs, last, known, sorts, awaits⟩ := waits
      exact ⟨needs, last, fun v member => known v (List.mem_of_mem_erase member), sorts, awaits⟩
    · cases went
  | spawn =>
    cases went
    obtain ⟨needs, last, known, sorts, awaits⟩ := waits
    have inside {w : Nat} (before : w < s.threads.length) :
        w < (s.threads ++ [(⟨false, 0, .outside, false, 0⟩ : Thread)]).length := by
      rw [List.length_append]
      omega
    refine ⟨?_, ?_, fun w member => inside (known w member), ?_, ?_⟩
    · intro i th member
      rcases getElem?_concat_cases member with old | ⟨_, rfl⟩
      · exact needs i th old
      · exact Nat.zero_le _
    · intro i th member drops
      rcases getElem?_concat_cases member with old | ⟨_, rfl⟩
      · unfold State.strong
        rw [census_concat]
        exact last i th old drops
      · cases drops
    · intro i th member w listed
      rcases getElem?_concat_cases member with old | ⟨_, rfl⟩
      · exact inside (sorts i th old w listed)
      · cases listed
    · intro i th member w listed
      rcases getElem?_concat_cases member with old | ⟨_, rfl⟩
      · obtain ⟨before, differ⟩ := awaits i th old w listed
        exact ⟨inside before, differ⟩
      · cases listed

theorem Waits.new : Waits .new := by
  have first {i : Nat} {th : Thread} (member : State.new.threads[i]? = some th) :
      th.pc = .checking := by
    have here : th = ⟨false, 0, .checking, false, 0⟩ := by
      simpa [State.new] using List.mem_of_getElem? member
    rw [here]
  refine ⟨?_, ?_, List.forall_mem_nil _, ?_, ?_⟩
  all_goals
    intro i th member
    rw [first member]
  · exact Nat.zero_le _
  · intro drops
    cases drops
  · exact List.forall_mem_nil _
  · exact List.forall_mem_nil _

theorem Reaches.waits (reach : Reaches cfg s) : Waits s := by
  apply Reachable.induction ?_ ?_ reach
  · intro s start
    rw [start]
    exact .new
  · intro s t before waits move
    obtain ⟨a, went⟩ := move
    exact waits.step (Reaches.owned before) went

end Gusset.Descriptor
