import Gusset.Isolate.Delivery

/-! Who waits for which ticket, and whose answer each call gets. -/
namespace Gusset.Isolate
open Foundation

variable {p p' : Proc} {calls calls' : List Call}

namespace Proc

theorem lookup_map {f : Option TicketState → Option TicketState} (gone : f none = none) (x : Nat) :
    (p.tickets.map f)[x]?.join = f (p.lookup x) := by
  unfold lookup
  rw [List.getElem?_map]
  cases p.tickets[x]? with
  | none => exact gone.symm
  | some slot => rfl

theorem lookup_close (p : Proc) (x : Nat) : p.close.1.lookup x = shut (p.lookup x) :=
  lookup_map rfl x

theorem lookup_sweep (p : Proc) (cause : Option Text) (x : Nat) :
    (p.sweep cause).1.lookup x = kept p.closed (p.lookup x) := by
  unfold sweep
  by_cases closed : p.closed = true
  · simp only [if_pos closed]
    exact lookup_map rfl x
  · simp only [if_neg closed]
    exact lookup_map rfl x

theorem mem_tickets {t : TicketState} : some t ∈ p.tickets ↔ ∃ id, p.lookup id = some t := by
  rw [List.mem_iff_getElem?]
  constructor
  · rintro ⟨id, found⟩
    exact ⟨id, by rw [lookup, found]; rfl⟩
  · rintro ⟨id, found⟩
    exact ⟨id, by simpa [lookup, Option.join_eq_some_iff] using found⟩

theorem mem_close {i : Nat} {r : Result} : (i, r) ∈ p.close.2 ↔
    r = .failed errProcClosed ∧
      ∃ id t, p.lookup id = some t ∧ t.res = none ∧ t.waiter = some i := by
  simp only [close, List.mem_filterMap, Option.map_eq_some_iff, Prod.mk.injEq]
  constructor
  · rintro ⟨slot, member, j, signal, rfl, rfl⟩
    refine ⟨rfl, ?_⟩
    cases slot with
    | none => cases signal
    | some t =>
      obtain ⟨id, found⟩ := mem_tickets.mp member
      simp only [released] at signal
      split at signal
      · cases signal
      · rename_i empty
        exact ⟨id, t, found, by simpa using empty, signal⟩
  · rintro ⟨rfl, id, t, found, empty, waits⟩
    exact ⟨some t, mem_tickets.mpr ⟨id, found⟩, i, by simp [released, empty, waits], rfl, rfl⟩

-- What the reader leaves in `dead`.
def latched (p : Proc) (cause : Option Text) : Option GoErr :=
  if p.closed then p.dead else some (workerExitError cause p.waitErr)

theorem sweep_dead (p : Proc) (cause : Option Text) :
    (p.sweep cause).1.dead = p.latched cause := by
  unfold sweep latched
  split <;> rfl

theorem mem_sweep {cause : Option Text} {i : Nat} {r : Result} : (i, r) ∈ (p.sweep cause).2 ↔
    r = .failed ((p.latched cause).getD errProcClosed) ∧
      ∃ id t, p.lookup id = some t ∧ t.waiter = some i := by
  have sends : (p.sweep cause).2 = p.tickets.filterMap fun t => (t.bind TicketState.waiter).map
      fun i => (i, .failed ((p.latched cause).getD errProcClosed)) := by
    unfold sweep latched
    split <;> rfl
  rw [sends]
  simp only [List.mem_filterMap, Option.map_eq_some_iff, Prod.mk.injEq]
  constructor
  · rintro ⟨slot, member, j, signal, rfl, rfl⟩
    refine ⟨rfl, ?_⟩
    obtain ⟨t, rfl, waits⟩ := Option.bind_eq_some_iff.mp signal
    obtain ⟨id, found⟩ := mem_tickets.mp member
    exact ⟨id, t, found, waits⟩
  · rintro ⟨rfl, id, t, found, waits⟩
    exact ⟨some t, mem_tickets.mpr ⟨id, found⟩, i, waits, rfl, rfl⟩

theorem lookup_abandon (p : Proc) (id x : Nat) : (p.abandon id).lookup x =
    if x = id then (p.lookup x).map fun t => { t with waiter := none, abandoned := true }
    else p.lookup x := by
  unfold abandon
  cases found : p.lookup id with
  | none =>
    by_cases same : x = id
    · subst same
      simp [found]
    · simp [same]
  | some t =>
    rw [lookup_put p id x _ (by simp [found])]
    by_cases same : x = id
    · subst same
      simp [found]
    · simp [same]

end Proc

/-- Each registered waiter is a call that waits for this ticket with an empty channel, and the other
way round; each answer is at its own ticket. -/
structure Routed (p : Proc) (calls : List Call) : Prop where
  waiter : ∀ (id : Nat) (t : TicketState) (i : Nat), p.lookup id = some t → t.waiter = some i →
    t.res = none ∧ t.abandoned = false ∧ ∃ c, calls[i]? = some c ∧ c.awaits = some id
  parked : ∀ (i : Nat) (c : Call) (id : Nat), calls[i]? = some c → c.awaits = some id →
    ∃ t, p.lookup id = some t ∧ t.waiter = some i
  stored : ∀ (id : Nat) (t : TicketState) (r : Result), p.lookup id = some t → t.res = some r →
    Answers p id r
  got : ∀ (i : Nat) (c : Call) (id : Nat) (r : Result), calls[i]? = some c →
    c.got = some (id, r) → Given p id r
  alive : p.reader = .loop ∨ (∃ cause, p.reader = .draining cause) → p.dead = none

namespace Routed

theorem enter {c : Call} (routed : Routed p calls) (begins : c.Begins) :
    Routed p (calls ++ [c]) := by
  obtain ⟨waiter, parked, stored, got, alive⟩ := routed
  refine ⟨?_, ?_, stored, ?_, alive⟩
  · intro id t i found waits
    obtain ⟨empty, kept, d, there, awaits⟩ := waiter id t i found waits
    have inside := (List.getElem?_eq_some_iff.mp there).1
    exact ⟨empty, kept, d, by rw [List.getElem?_append_left inside, there], awaits⟩
  · intro i d id there awaits
    rcases getElem?_concat_cases there with old | ⟨_, rfl⟩
    · exact parked i d id old awaits
    · rw [begins.awaits] at awaits
      cases awaits
  · intro i d id r there took
    rcases getElem?_concat_cases there with old | ⟨_, rfl⟩
    · exact got i d id r old took
    · rw [begins.got] at took
      cases took

theorem steady (routed : Routed p calls) (steady : p.Steady p')
    (alive : p'.reader = .loop ∨ (∃ cause, p'.reader = .draining cause) →
      p.reader = .loop ∨ ∃ cause, p.reader = .draining cause) : Routed p' calls := by
  have later : p.Later p' :=
    ⟨steady.frames ▸ List.prefix_refl _, fun f member => steady.failures ▸ member,
      fun err dead => steady.dead ▸ dead⟩
  have same (x : Nat) : p'.lookup x = p.lookup x := by rw [Proc.lookup, steady.tickets, Proc.lookup]
  refine ⟨?_, ?_, ?_, ?_, ?_⟩
  · intro id t i found
    rw [same] at found
    exact routed.waiter id t i found
  · intro i c id there awaits
    rw [same]
    exact routed.parked i c id there awaits
  · intro id t r found answered
    rw [same] at found
    exact (routed.stored id t r found answered).later later
  · intro i c id r there took
    exact (routed.got i c id r there took).later later
  · intro on
    rw [steady.dead]
    exact routed.alive (alive on)

/-- One call moves on; nothing it waits for changes. -/
theorem move {i : Nat} {c d : Call} (routed : Routed p calls) (at_ : calls[i]? = some c)
    (awaits : d.awaits = c.awaits)
    (got : ∀ id r, d.got = some (id, r) → c.got = some (id, r) ∨ Given p id r) :
    Routed p (calls.set i d) := by
  have set (j : Nat) := getElem?_set_of_some at_ d j
  obtain ⟨waiter, parked, stored, given, alive⟩ := routed
  exact ⟨by grind -ring -linarith, by grind -ring -linarith, stored, by grind -ring -linarith, alive⟩

theorem quiet {i : Nat} {c c' : Call} (routed : Routed p calls) (at_ : calls[i]? = some c)
    (quiet : Quiet p p' c c') : Routed p' (calls.set i c') := by
  refine (routed.move at_ quiet.awaits fun id r took => ?_).steady quiet.toSteady
    (quiet.reader ▸ fun on => on)
  rcases quiet.got with same | ⟨x, err, failed, why⟩
  · exact .inl (same ▸ took)
  · rw [failed] at took
    cases took
    exact .inr (.inr ⟨err, rfl, why⟩)

theorem turns (routed : Routed p calls) (turns : p.Turns p') : Routed p' calls := by
  refine routed.steady turns.toSteady fun on => ?_
  rcases turns.reader with ⟨same, _⟩ | ⟨loop, _⟩ | ⟨_, done⟩
  · exact same ▸ on
  · exact .inl loop
  · rw [done] at on
    simp at on

/-- A ticket that nobody waits for changes. -/
theorem ticket {id : Nat} {slot : Option TicketState} (routed : Routed p calls) (later : p.Later p')
    (lookup : ∀ x, p'.lookup x = if x = id then slot else p.lookup x)
    (alone : ∀ t, p.lookup id = some t → t.waiter = none)
    (still : ∀ t, slot = some t → t.waiter = none ∧ ∀ r, t.res = some r → Answers p' id r)
    (alive : p'.reader = .loop ∨ (∃ cause, p'.reader = .draining cause) → p'.dead = none) :
    Routed p' calls := by
  obtain ⟨waiter, parked, stored, given, _⟩ := routed
  refine ⟨by grind -ring -linarith, by grind -ring -linarith, ?_, ?_, alive⟩
  · intro x t r found answered
    rw [lookup] at found
    split at found
    · rename_i same
      exact same ▸ (still t found).2 r answered
    · exact (stored x t r found answered).later later
  · intro i c x r there took
    exact (given i c x r there took).later later

/-- A waiter gets an answer and its ticket is gone. -/
theorem signal {id i : Nat} {t : TicketState} {r : Result} (routed : Routed p calls)
    (later : p.Later p') (found : p.lookup id = some t) (waits : t.waiter = some i)
    (lookup : ∀ x, p'.lookup x = if x = id then none else p.lookup x) (given : Given p' id r)
    (posts : post calls [(i, r)] = some calls')
    (alive : p'.reader = .loop ∨ (∃ cause, p'.reader = .draining cause) → p'.dead = none) :
    Routed p' calls' := by
  obtain ⟨waiter, parked, stored, had, _⟩ := routed
  obtain ⟨_, _, c, there, awaits⟩ := waiter id t i found waits
  obtain ⟨c', got, rfl⟩ : ∃ c', c.receive r = some c' ∧ calls' = calls.set i c' := by
    simp only [post, there, Option.bind_some, Option.bind_eq_some_iff] at posts
    obtain ⟨c', got, same⟩ := posts
    exact ⟨c', got, (Option.some.inj same).symm⟩
  obtain ⟨x, was, full, has, _⟩ := Call.receive_cases got
  have set (j : Nat) := getElem?_set_of_some there c' j
  have same : x = id := by
    rw [was] at awaits
    exact Option.some.inj awaits
  subst same
  refine ⟨?_, by grind -ring -linarith, ?_, ?_, alive⟩
  · intro y u j known other
    rw [lookup] at known
    split at known
    · cases known
    · rename_i differ
      obtain ⟨empty, kept, d, here, wants⟩ := waiter y u j known other
      refine ⟨empty, kept, d, ?_, wants⟩
      rw [set, if_neg, here]
      rintro rfl
      rw [there] at here
      cases here
      exact differ (Option.some.inj (wants.symm.trans awaits))
  · intro y u answer known answered
    rw [lookup] at known
    split at known
    · cases known
    · exact (stored y u answer known answered).later later
  · intro j d y answer here took
    rw [set] at here
    split at here
    · cases here
      rw [has] at took
      cases took
      exact given
    · exact (had j d y answer here took).later later

theorem Proc.later_put (p : Proc) (id : Nat) (t : Option TicketState) : p.Later (p.put id t) :=
  ⟨List.prefix_refl _, fun _ member => member, fun _ dead => dead⟩

theorem park {i id : Nat} {t : TicketState} (routed : Routed p calls)
    (at_ : calls[i]? = some (.wait id)) (found : p.lookup id = some t) (empty : t.res = none)
    (alone : t.waiter = none) (kept : t.abandoned = false) :
    Routed (p.put id (some { t with waiter := some i })) (calls.set i (.parked id none)) := by
  have set (j : Nat) := getElem?_set_of_some at_ (Call.parked id none) j
  have lookup (x : Nat) := Proc.lookup_put p id x (some { t with waiter := some i }) (by simp [found])
  have later := Proc.later_put p id (some { t with waiter := some i })
  obtain ⟨waiter, parked, stored, given, alive⟩ := routed
  refine ⟨by grind -ring -linarith, ?_, ?_, ?_, alive⟩
  · intro j c x there awaits
    grind -ring -linarith
  · intro x u r known answered
    rw [lookup] at known
    split at known
    · cases known
      rw [empty] at answered
      cases answered
    · exact (stored x u r known answered).later later
  · intro j c x r there took
    rw [set] at there
    split at there
    · cases there
      cases took
    · exact (given j c x r there took).later later

theorem abandon {i id : Nat} {err : CtxErr} (routed : Routed p calls)
    (at_ : calls[i]? = some (.expired id err none)) :
    Routed (p.abandon id) (calls.set i (.waited id (.failed err.err)) ++ [.cancelling id]) := by
  have lookup (x : Nat) := Proc.lookup_abandon p id x
  have set (j : Nat) := getElem?_set_of_some at_ (Call.waited id (.failed err.err)) j
  have later : p.Later (p.abandon id) := by
    unfold Proc.abandon
    split
    · exact Proc.later_put p id _
    · exact ⟨List.prefix_refl _, fun _ member => member, fun _ dead => dead⟩
  have on : (p.abandon id).reader = p.reader ∧ (p.abandon id).dead = p.dead := by
    unfold Proc.abandon
    split <;> exact ⟨rfl, rfl⟩
  obtain ⟨waiter, parked, stored, given, alive⟩ := routed
  refine enter (c := .cancelling id) ?_ ⟨rfl, rfl, rfl, rfl, rfl, nofun⟩
  refine ⟨by grind -ring -linarith, by grind -ring -linarith, ?_, ?_, by rw [on.1, on.2]; exact alive⟩
  · intro x u r known answered
    rw [lookup] at known
    split at known
    · obtain ⟨t, found, rfl⟩ := Option.map_eq_some_iff.mp known
      exact (stored x t r found answered).later later
    · exact (stored x u r known answered).later later
  · intro j c x r there took
    rw [set] at there
    split at there
    · cases there
      cases took
      exact .inr ⟨err.err, rfl, .ctx err⟩
    · exact (given j c x r there took).later later

/-- Every waiter gets the same error. -/
theorem release {err : GoErr} {sends : Sends} (routed : Routed p calls) (later : p.Later p')
    (sent : ∀ i r, (i, r) ∈ sends ↔
      r = .failed err ∧ ∃ id t, p.lookup id = some t ∧ t.waiter = some i)
    (left : ∀ id t', p'.lookup id = some t' →
      t'.waiter = none ∧ ∃ t, p.lookup id = some t ∧ t.res = t'.res)
    (fails : ∀ id, Fails p' id err) (posts : post calls sends = some calls')
    (alive : p'.reader = .loop ∨ (∃ cause, p'.reader = .draining cause) → p'.dead = none) :
    Routed p' calls' := by
  obtain ⟨waiter, parked, stored, given, _⟩ := routed
  refine ⟨?_, ?_, ?_, ?_, alive⟩
  · intro id t i found waits
    rw [(left id t found).1] at waits
    cases waits
  · intro i c id there awaits
    rcases post_at posts i with ⟨nobody, same⟩ | ⟨r, d, c', _, _, got, now⟩
    · rw [same] at there
      obtain ⟨t, found, waits⟩ := parked i c id there awaits
      exact absurd ((sent i (.failed err)).mpr ⟨rfl, id, t, found, waits⟩) (nobody _)
    · obtain ⟨x, _, full, _⟩ := Call.receive_cases got
      rw [now] at there
      cases there
      rw [full] at awaits
      cases awaits
  · intro id t' r found answered
    obtain ⟨_, t, old, same⟩ := left id t' found
    exact (stored id t r old (same.trans answered)).later later
  · intro i c id r there took
    rcases post_at posts i with ⟨_, same⟩ | ⟨answer, d, c', member, _, got, now⟩
    · rw [same] at there
      exact (given i c id r there took).later later
    · obtain ⟨x, _, _, has, _⟩ := Call.receive_cases got
      rw [now] at there
      cases there
      rw [has] at took
      cases took
      exact .inr ⟨err, ((sent i r).mp member).1, fails _⟩

theorem sends_close (routed : Routed p calls) (i : Nat) (r : Result) : (i, r) ∈ p.close.2 ↔
    r = .failed errProcClosed ∧ ∃ id t, p.lookup id = some t ∧ t.waiter = some i := by
  rw [Proc.mem_close]
  constructor
  · rintro ⟨rfl, id, t, found, _, waits⟩
    exact ⟨rfl, id, t, found, waits⟩
  · rintro ⟨rfl, id, t, found, waits⟩
    exact ⟨rfl, id, t, found, (routed.waiter id t i found waits).1, waits⟩

theorem close {i : Nat} (routed : Routed p calls) (at_ : calls[i]? = some .close)
    (posts : post (calls.set i .closing) p.close.2 = some calls') : Routed p.close.1 calls' := by
  have moved := routed.move (d := .closing) at_ rfl nofun
  refine moved.release ⟨List.prefix_refl _, fun _ member => member, fun _ dead => dead⟩
    routed.sends_close ?_ (fun _ => .released) posts routed.alive
  intro id t' found
  rw [Proc.lookup_close] at found
  cases old : p.lookup id with
  | none =>
    rw [old] at found
    cases found
  | some t =>
    rw [old] at found
    simp only [Proc.shut] at found
    split at found
    · cases found
    · cases found
      exact ⟨rfl, t, rfl, rfl⟩

theorem sweep {cause : Option Text} (routed : Routed p calls)
    (draining : p.reader = .draining cause) (posts : post calls (p.sweep cause).2 = some calls') :
    Routed (p.sweep cause).1 calls' := by
  have dead := routed.alive (.inr ⟨cause, draining⟩)
  have later : p.Later (p.sweep cause).1 := by
    refine ⟨?_, ?_, by simp [dead]⟩
    · unfold Proc.sweep
      split <;> exact List.prefix_refl _
    · unfold Proc.sweep
      split <;> exact fun _ member => member
  have reader : (p.sweep cause).1.reader = .swept := by
    unfold Proc.sweep
    split <;> rfl
  refine routed.release later (fun _ _ => Proc.mem_sweep) ?_ ?_ posts (by simp [reader])
  · intro id t' found
    rw [Proc.lookup_sweep] at found
    cases old : p.lookup id with
    | none =>
      rw [old] at found
      cases found
    | some t =>
      rw [old] at found
      simp only [Proc.kept] at found
      split at found
      · rename_i stored
        obtain rfl := Option.some.inj found
        refine ⟨?_, t, rfl, rfl⟩
        cases waits : t.waiter with
        | none => rfl
        | some i => simp [(routed.waiter id t i old waits).1] at stored
      · cases found
  · intro id
    cases latched : p.latched cause with
    | none => exact .released
    | some err => exact .exited (by rw [Proc.sweep_dead, latched]; rfl)

theorem unsent {i id : Nat} {err : GoErr} {sends : Sends} (routed : Routed p calls)
    (at_ : calls[i]? = some (.unsent id err)) (failed : p.sendFailed id err = some (p', sends))
    (posts : post (calls.set i (.failing err)) sends = some calls') : Routed p' calls' := by
  have moved := routed.move (d := .failing err) at_ rfl nofun
  rcases Proc.sendFailed_cases failed with ⟨waiter, abandoned, found, _, rfl, rfl⟩ | ⟨_, rfl, rfl⟩
  · have later : p.Later { p.put id none with
        sem := p.sem - 1
        failures := p.failures ++ [(id, err)] } :=
      ⟨List.prefix_refl _, fun _ member => List.mem_append_left _ member, fun _ dead => dead⟩
    have lookup (x : Nat) := Proc.lookup_put p id x none (by simp [found])
    cases waiter with
    | none =>
      cases posts
      exact moved.ticket later lookup (by simp [found]) (by simp) routed.alive
    | some j =>
      exact moved.signal later found rfl lookup (.inr ⟨err, rfl, .unsent (by simp)⟩)
        posts routed.alive
  · cases posts
    refine ⟨moved.waiter, moved.parked, ?_, ?_, moved.alive⟩
    · exact fun x t r found answered => moved.stored x t r found answered
    · intro j c x r there took
      refine (moved.got j c x r there took).later ⟨List.prefix_refl _, ?_, fun _ dead => dead⟩
      exact fun _ member => List.mem_append_left _ member

theorem frame {resp : Response} {sends : Sends} (routed : Routed p calls)
    (loop : p.reader = .loop) (read : p.frame resp = some (p', sends))
    (posts : post calls sends = some calls') : Routed p' calls' := by
  have dead := routed.alive (.inl loop)
  rcases Proc.frame_cases read with
    ⟨waiter, abandoned, slot, poisoned, found, _, accepts, rfl⟩ | ⟨_, rfl, rfl⟩
  · have lookup (x : Nat) := Proc.lookup_put p resp.id x slot (by simp [found])
    have later : p.Later { p.put resp.id slot with
        sem := p.sem - 1
        poisoned := poisoned
        frames := p.frames ++ [(resp, true)] } :=
      ⟨List.prefix_append _ _, fun _ member => member, fun _ dead => dead⟩
    have answers : Answers { p.put resp.id slot with
        sem := p.sem - 1
        poisoned := poisoned
        frames := p.frames ++ [(resp, true)] } resp.id (resp.result p.frames.length) :=
      ⟨p.frames.length, resp, List.getElem?_concat_length, rfl, rfl⟩
    cases accepts with
    | abandoned =>
      cases posts
      refine routed.ticket later lookup ?_ (by simp) fun _ => dead
      intro t same
      rw [found] at same
      cases same
      cases waiter with
      | none => rfl
      | some i => exact absurd (routed.waiter _ _ i found rfl).2.1 (by simp)
    | waiter => exact routed.signal later found rfl lookup (.inl answers) posts fun _ => dead
    | stored =>
      cases posts
      refine routed.ticket later lookup (by simp [found]) ?_ fun _ => dead
      rintro t ⟨⟩
      exact ⟨rfl, by rintro r ⟨⟩; exact answers⟩
  · cases posts
    have later : p.Later { p.killIfAlive with
        frames := p.frames ++ [(resp, false)]
        reader := .draining (some (unknownId resp.id)) } :=
      ⟨List.prefix_append _ _, fun _ member => member, fun _ dead => dead⟩
    refine ⟨routed.waiter, routed.parked, ?_, ?_, fun _ => dead⟩
    · exact fun x t r found answered => (routed.stored x t r found answered).later later
    · exact fun j c x r there took => (routed.got j c x r there took).later later

theorem register {i : Nat} (routed : Routed p calls) (at_ : calls[i]? = some .acquired) :
    Routed p.register (calls.set i (.sending p.tickets.length)) := by
  have moved := routed.move (d := .sending p.tickets.length) at_ rfl nofun
  refine moved.ticket ⟨List.prefix_refl _, fun _ member => member, fun _ dead => dead⟩
    p.lookup_register ?_ ?_ routed.alive
  · simp [Proc.lookup_fresh]
  · rintro t ⟨⟩
    exact ⟨rfl, nofun⟩

theorem deal (routed : Routed p calls) (deal : Deal p calls p' calls') : Routed p' calls' := by
  cases deal with
  | enter begins => exact routed.enter begins
  | turns turns => exact routed.turns turns
  | quiet at_ quiet => exact routed.quiet at_ quiet
  | register at_ _ => exact routed.register at_
  | collect at_ found stored alone takes =>
    rename_i i id c c' t r
    have moved := routed.move (d := c') at_ (by rw [takes.awaits.1, takes.awaits.2]) (by
      intro x s took
      rcases takes.got with none | some
      · rw [none] at took
        cases took
      · rw [some] at took
        cases took
        exact .inr (.inl (routed.stored _ _ _ found stored)))
    exact moved.ticket (Proc.later_put p id none)
      (fun x => Proc.lookup_put p id x none (by simp [found])) (by simp [found, alone]) (by simp)
      routed.alive
  | park at_ found empty alone kept => exact routed.park at_ found empty alone kept
  | abandon at_ => exact routed.abandon at_
  | drop at_ found empty alone =>
    rename_i i id t
    have moved := routed.move (d := .discarded id (.ok none)) at_ rfl nofun
    refine moved.ticket (Proc.later_put p id _)
      (fun x => Proc.lookup_put p id x _ (by simp [found])) (by simp [found, alone]) ?_ routed.alive
    rintro u ⟨⟩
    exact ⟨alone, by simp [empty]⟩
  | unsent at_ failed posts => exact routed.unsent at_ failed posts
  | close at_ _ posts => exact routed.close at_ posts
  | frame loop read posts => exact routed.frame loop read posts
  | sweep draining _ posts => exact routed.sweep draining posts

end Routed

end Gusset.Isolate
