import Gusset.Isolate.Answers

/-! Every run of a host: answers go to their own callers once, permits are where the tickets are, no
section blocks, and after the reader nothing is left waiting. -/
namespace Gusset.Isolate
open Foundation

variable {p p' : Proc} {calls calls' : List Call}

/-- One Close ends the worker; the others return what it returns. -/
structure OneClose (p : Proc) (calls : List Call) : Prop where
  one : census Call.closes calls + p.closeDone.toNat = p.closed.toNat
  returned : ∀ (i : Nat) (err : Option GoErr), calls[i]? = some (.closeReturned err) →
    p.closeDone = true ∧ p.closeErr = err

theorem receive_not_closed {r : Result} {c : Call} {err : Option GoErr} :
    c.receive r ≠ some (.closeReturned err) := by
  intro got
  unfold Call.receive at got
  split at got <;> cases got

theorem post_closes {sends : Sends} (posts : post calls sends = some calls') :
    census Call.closes calls' = census Call.closes calls := by
  have all := post_census posts Call.closes (fun _ => 0) fun r c c' got => by
    obtain ⟨_, _, _, _, _, _, _, _, same, _⟩ := Call.receive_cases got
    exact same
  have zero : census (fun _ : Nat × Result => 0) sends = 0 := census_eq_zero _ fun _ _ => rfl
  omega

namespace OneClose

/-- A step of another call. -/
theorem keep (one : OneClose p calls)
    (fields : p'.closeDone = p.closeDone ∧ p'.closeErr = p.closeErr ∧ p'.closed = p.closed)
    (same : census Call.closes calls' = census Call.closes calls)
    (old : ∀ (i : Nat) (err : Option GoErr), calls'[i]? = some (.closeReturned err) →
      calls[i]? = some (.closeReturned err)) : OneClose p' calls' := by
  refine ⟨?_, ?_⟩
  · rw [fields.1, fields.2.2, same]
    exact one.one
  · intro i err there
    rw [fields.1, fields.2.1]
    exact one.returned i err (old i err there)

theorem move (one : OneClose p calls) {i : Nat} {c d : Call} (at_ : calls[i]? = some c)
    (fields : p'.closeDone = p.closeDone ∧ p'.closeErr = p.closeErr ∧ p'.closed = p.closed)
    (closes : d.closes = c.closes) (other : ∀ err, d ≠ .closeReturned err) :
    OneClose p' (calls.set i d) := by
  refine one.keep fields (census_set_same _ at_ closes) ?_
  intro j err there
  rcases getElem?_set_cases there with ⟨_, same⟩ | ⟨_, there⟩
  · exact absurd same.symm (other err)
  · exact there

theorem posted (one : OneClose p calls) {sends : Sends} (posts : post calls sends = some calls')
    (fields : p'.closeDone = p.closeDone ∧ p'.closeErr = p.closeErr ∧ p'.closed = p.closed) :
    OneClose p' calls' := by
  refine one.keep fields (post_closes posts) ?_
  intro j err there
  rcases post_at posts j with ⟨_, same⟩ | ⟨r, c, c', _, _, got, now⟩
  · exact same ▸ there
  · rw [now] at there
    cases there
    exact absurd got receive_not_closed

theorem quiet {i : Nat} {c c' : Call} (one : OneClose p calls) (at_ : calls[i]? = some c)
    (quiet : Quiet p p' c c') : OneClose p' (calls.set i c') := by
  have moved := census_set Call.closes at_ c'
  have here := le_census Call.closes at_
  have total := one.one
  refine ⟨?_, ?_⟩
  · rw [quiet.closed]
    rcases quiet.closes with ⟨done, same⟩ | ⟨was, now, done⟩
    · rw [done]
      omega
    · have most := Bool.toNat_le p.closed
      rw [done, Bool.toNat_true]
      omega
  · intro j err there
    rcases getElem?_set_cases there with ⟨_, same⟩ | ⟨_, there⟩
    · exact quiet.returned err same.symm
    · obtain ⟨halted, kept⟩ := one.returned j err there
      have most := Bool.toNat_le p.closed
      have counted : p.closeDone.toNat = 1 := by rw [halted]; rfl
      have none : c.closes = 0 := by omega
      refine ⟨?_, ?_⟩
      · rcases quiet.closes with ⟨done, _⟩ | ⟨was, _⟩
        · rw [done]
          exact halted
        · omega
      · rcases quiet.closeErr with same | was
        · rw [same]
          exact kept
        · omega

theorem deal (one : OneClose p calls) (deal : Deal p calls p' calls') : OneClose p' calls' := by
  cases deal with
  | enter begins =>
    refine one.keep ⟨rfl, rfl, rfl⟩ ?_ ?_
    · rw [census_concat, begins.closes, Nat.add_zero]
    · intro i err there
      rcases getElem?_concat_cases there with old | ⟨_, rfl⟩
      · exact old
      · exact absurd rfl (begins.returned err)
  | turns turns =>
      exact one.keep ⟨turns.closeDone, turns.closeErr, turns.closed⟩ rfl fun _ _ old => old
  | quiet at_ quiet => exact one.quiet at_ quiet
  | register at_ _ => exact one.move at_ ⟨rfl, rfl, rfl⟩ rfl nofun
  | collect at_ found stored alone takes =>
    exact one.move at_ ⟨rfl, rfl, rfl⟩ (takes.closes.2.trans takes.closes.1.symm) takes.returned
  | park at_ found empty alone kept => exact one.move at_ ⟨rfl, rfl, rfl⟩ rfl nofun
  | abandon at_ =>
    rename_i i id err
    have fields : (p.abandon id).closeDone = p.closeDone ∧ (p.abandon id).closeErr = p.closeErr ∧
        (p.abandon id).closed = p.closed := by
      unfold Proc.abandon
      split <;> exact ⟨rfl, rfl, rfl⟩
    have moved := one.move (d := .waited id (.failed err.err)) at_ fields rfl nofun
    refine moved.keep ⟨rfl, rfl, rfl⟩ (by rw [census_concat]; rfl) ?_
    intro j e there
    rcases getElem?_concat_cases there with old | ⟨_, same⟩
    · exact old
    · cases same
  | drop at_ found empty alone => exact one.move at_ ⟨rfl, rfl, rfl⟩ rfl nofun
  | unsent at_ failed posts =>
    rename_i i id err sends
    have fields : p'.closeDone = p.closeDone ∧ p'.closeErr = p.closeErr ∧ p'.closed = p.closed := by
      rcases Proc.sendFailed_cases failed with ⟨_, _, _, _, rfl, _⟩ | ⟨_, rfl, _⟩ <;>
        exact ⟨rfl, rfl, rfl⟩
    exact (one.move (d := .failing err) at_ ⟨rfl, rfl, rfl⟩ rfl nofun).posted posts fields
  | close at_ first posts =>
    rename_i i
    have moved := census_set Call.closes at_ .closing
    have gave : Call.close.closes = 0 ∧ Call.closing.closes = 1 := ⟨rfl, rfl⟩
    have same := post_closes posts
    have total := one.one
    rw [first, Bool.toNat_false] at total
    refine ⟨?_, ?_⟩
    · simp only [Proc.close, Bool.toNat_true]
      omega
    · intro j err there
      have before : calls[j]? = some (.closeReturned err) := by
        rcases post_at posts j with ⟨_, same⟩ | ⟨r, c, c', _, _, got, now⟩
        · rw [same] at there
          rcases getElem?_set_cases there with ⟨_, same⟩ | ⟨_, there⟩
          · cases same
          · exact there
        · rw [now] at there
          cases there
          exact absurd got receive_not_closed
      exact one.returned j err before
  | frame loop read posts =>
    refine one.posted posts ?_
    rcases Proc.frame_cases read with ⟨_, _, _, _, _, _, _, rfl⟩ | ⟨_, _, rfl⟩ <;>
      exact ⟨rfl, rfl, rfl⟩
  | sweep draining _ posts =>
    refine one.posted posts ?_
    unfold Proc.sweep
    split <;> exact ⟨rfl, rfl, rfl⟩

end OneClose

/-- What holds in every state of every run. -/
structure Host.Sound (s : Host) : Prop where
  routed : Routed s.proc s.calls
  counted : Counted s.proc s.calls
  once : Once s.proc s.calls
  oneClose : OneClose s.proc s.calls

theorem start_sound (poolSize : Nat) : (Host.start poolSize).Sound := by
  have nothing (id : Nat) : (Host.start poolSize).proc.lookup id = none := by
    rcases id with _ | id <;> rfl
  have empty (k : Nat) : copies (Host.start poolSize).proc (Host.start poolSize).calls k = 0 := rfl
  refine ⟨⟨?_, nofun, ?_, nofun, fun _ => rfl⟩, ⟨fun _ => rfl, Nat.le_refl _, ?_, nofun⟩,
    ⟨?_, fun k _ => empty k, nofun, nofun, nofun⟩, ⟨rfl, nofun⟩⟩
  · intro id t i found
    rw [nothing] at found
    cases found
  · intro id t r found
    rw [nothing] at found
    cases found
  · rintro (swept | done)
    · cases swept
    · cases done
  · intro k
    rw [empty]
    exact Nat.zero_le 1

theorem hosts_sound {poolSize : Nat} {s : Host} (reach : Hosts poolSize s) : s.Sound := by
  refine reach.invariant ?_ ?_
  · rintro s rfl
    exact start_sound poolSize
  · rintro s t sound ⟨a, went⟩
    have deal := step_deal went
    exact ⟨sound.routed.deal deal, sound.counted.deal deal, sound.once.deal deal,
      sound.oneClose.deal deal⟩

theorem nodup_filterMap {α β : Type} {l : List α} {f : α → Option β}
    (apart : ∀ (i j : Nat) (a b : α) (v : β), l[i]? = some a → l[j]? = some b → f a = some v →
      f b = some v → i = j) : (l.filterMap f).Nodup := by
  rw [List.Nodup, List.pairwise_filterMap, List.pairwise_iff_getElem]
  intro i j hi hj before v here w there same
  subst same
  have equal := apart i j _ _ v (List.getElem?_eq_getElem hi) (List.getElem?_eq_getElem hj) here there
  omega

namespace Host.Sound

variable {s : Host}

theorem owed_le (sound : s.Sound) {id : Nat} {t : TicketState} (found : s.proc.lookup id = some t)
    (empty : t.res = none) : 0 < s.proc.sem := by
  have least := sound.counted.least
  have here := le_census Proc.owed (tickets_at found)
  obtain ⟨res, waiter, abandoned⟩ := t
  cases empty
  have one : Proc.owed (some ⟨none, waiter, abandoned⟩) = 1 := rfl
  omega

/-- A waiter's channel is empty. -/
theorem single_goes (sound : s.Sound) {id i : Nat} {t : TicketState} (r : Result)
    (found : s.proc.lookup id = some t) (waits : t.waiter = some i) :
    (post s.calls [(i, r)]).isSome := by
  obtain ⟨_, _, c, there, awaits⟩ := sound.routed.waiter id t i found waits
  apply post_isSome (by simp)
  intro j r' member
  cases List.mem_singleton.mp member
  exact ⟨c, id, there, awaits⟩

theorem frame_goes (sound : s.Sound) (loop : s.proc.reader = .loop) (resp : Response) :
    (s.step (.frame resp)).isSome := by
  have delivers : ∃ r, s.proc.frame resp = some r ∧ (post s.calls r.2).isSome := by
    unfold Proc.frame Proc.deliver
    split
    · rename_i waiter abandoned found
      have held := sound.owed_le found rfl
      rw [if_neg (by omega)]
      cases abandoned with
      | true => exact ⟨_, rfl, rfl⟩
      | false =>
        cases waiter with
        | none => exact ⟨_, rfl, rfl⟩
        | some i => exact ⟨_, rfl, sound.single_goes _ found rfl⟩
    · exact ⟨_, rfl, rfl⟩
  obtain ⟨r, read, posts⟩ := delivers
  obtain ⟨calls', posts⟩ := Option.isSome_iff_exists.mp posts
  simp [Host.step, loop, read, Host.posted, posts]

/-- Waiters of different tickets are different calls. -/
theorem waiters_differ (sound : s.Sound) (f : Option TicketState → Option Nat)
    (waiter : ∀ slot i, f slot = some i → ∃ t, slot = some t ∧ t.waiter = some i)
    (r : Result) (calls : List Call)
    (same : ∀ (i : Nat) (c : Call) (id : Nat), s.calls[i]? = some c → c.awaits = some id →
      calls[i]? = some c) :
    (post calls (s.proc.tickets.filterMap fun t => (f t).map fun i => (i, r))).isSome := by
  have known {x i : Nat} {slot : Option TicketState} (there : s.proc.tickets[x]? = some slot)
      (signal : f slot = some i) : ∃ c, calls[i]? = some c ∧ c.awaits = some x := by
    obtain ⟨t, rfl, waits⟩ := waiter slot i signal
    have found : s.proc.lookup x = some t := by rw [Proc.lookup, there]; rfl
    obtain ⟨_, _, c, here, awaits⟩ := sound.routed.waiter x t i found waits
    exact ⟨c, same i c x here awaits, awaits⟩
  apply post_isSome
  · rw [List.map_filterMap]
    apply nodup_filterMap
    intro x y a b i here there first second
    obtain ⟨_, ⟨_, signal, rfl⟩, rfl⟩ := by simpa only [Option.map_eq_some_iff] using first
    obtain ⟨_, ⟨_, other, rfl⟩, same⟩ := by simpa only [Option.map_eq_some_iff] using second
    simp only at same
    subst same
    obtain ⟨c, at_, awaits⟩ := known here signal
    obtain ⟨d, again, waits⟩ := known there other
    rw [at_] at again
    cases again
    exact Option.some.inj (awaits.symm.trans waits)
  · intro i answer member
    obtain ⟨slot, there, sent⟩ := List.mem_filterMap.mp member
    obtain ⟨j, signal, pair⟩ := Option.map_eq_some_iff.mp sent
    cases pair
    obtain ⟨x, there⟩ := List.mem_iff_getElem?.mp there
    obtain ⟨c, here, awaits⟩ := known there signal
    exact ⟨c, x, here, awaits⟩

theorem sweep_goes (sound : s.Sound) {cause : Option Text}
    (draining : s.proc.reader = .draining cause) (exited : s.proc.procExited = true) :
    (s.step .sweep).isSome := by
  have posts : (post s.calls (s.proc.sweep cause).2).isSome := by
    unfold Proc.sweep
    split
    all_goals
      refine sound.waiters_differ (fun slot => slot.bind TicketState.waiter) ?_ _ _
        fun _ _ _ there _ => there
      exact fun slot i signal => Option.bind_eq_some_iff.mp signal
  obtain ⟨calls', posts⟩ := Option.isSome_iff_exists.mp posts
  simp [Host.step, draining, exited, Host.posted, posts]

/-- A call that waits is another call than one that does not. -/
theorem unmoved {i : Nat} {c c' : Call} (at_ : s.calls[i]? = some c) (free : c.awaits = none)
    {j id : Nat} {d : Call} (there : s.calls[j]? = some d) (awaits : d.awaits = some id) :
    (s.calls.set i c')[j]? = some d := by
  rw [getElem?_set_of_some at_, if_neg, there]
  rintro rfl
  rw [at_] at there
  cases there
  rw [free] at awaits
  cases awaits

theorem close_goes (sound : s.Sound) {i : Nat} (c : Choice) (at_ : s.calls[i]? = some .close) :
    (s.step (.call i c)).isSome := by
  simp only [Host.step, Host.callStep, at_, Option.bind_some, Call.step]
  split
  · rfl
  · have posts : (post (s.calls.set i .closing) s.proc.close.2).isSome := by
      refine sound.waiters_differ Proc.released ?_ _ _ fun j d id there awaits =>
        unmoved at_ rfl there awaits
      intro slot j signal
      obtain _ | t := slot
      · cases signal
      · simp only [Proc.released] at signal
        split at signal
        · cases signal
        · exact ⟨t, rfl, signal⟩
    obtain ⟨calls', posts⟩ := Option.isSome_iff_exists.mp posts
    simp [posts]

theorem unsent_goes (sound : s.Sound) {i id : Nat} {err : GoErr} (c : Choice)
    (at_ : s.calls[i]? = some (.unsent id err)) : (s.step (.call i c)).isSome := by
  have fails : ∃ r, s.proc.sendFailed id err = some r ∧
      (post (s.calls.set i (.failing err)) r.2).isSome := by
    simp only [Proc.sendFailed]
    split
    · rename_i waiter abandoned found
      have known : s.proc.lookup id = some ⟨none, waiter, abandoned⟩ := found
      have held := sound.owed_le known rfl
      rw [if_neg (by omega)]
      refine ⟨_, rfl, ?_⟩
      cases waiter with
      | none => rfl
      | some j =>
        obtain ⟨_, _, d, there, awaits⟩ := sound.routed.waiter id _ j known rfl
        apply post_isSome (by simp)
        intro k r member
        cases List.mem_singleton.mp member
        exact ⟨d, id, unmoved at_ rfl there awaits, awaits⟩
    · exact ⟨_, rfl, rfl⟩
  obtain ⟨⟨p', sends⟩, failed, posts⟩ := fails
  obtain ⟨calls', posts⟩ := Option.isSome_iff_exists.mp posts
  simp [Host.step, Host.callStep, at_, Call.step, failed, posts]

theorem taken_once (sound : s.Sound) {i j k : Nat} {c d : Call} (here : s.calls[i]? = some c)
    (there : s.calls[j]? = some d) (first : c.taken = some k) (second : d.taken = some k) : i = j := by
  have one := sound.once.once k
  apply index_unique (Call.took k) (by simp only [copies] at one; omega) here there
  · simp [Call.took, first]
  · simp [Call.took, second]

theorem refused_untaken (sound : s.Sound) {k : Nat} {resp : Response}
    (refused : s.proc.frames[k]? = some (resp, false)) {i : Nat} {c : Call}
    (there : s.calls[i]? = some c) : c.taken ≠ some k := by
  intro took
  have none := sound.once.nowhere k (by simp [refused])
  have one := le_census (Call.took k) there
  simp only [copies, Call.took, took, if_pos] at none one
  omega

end Host.Sound

/-- A response to no ticket, or to one that has its answer, ends the loop and the worker. -/
theorem frame_refused {s : Host} {resp : Response} (loop : s.proc.reader = .loop)
    (unknown : Proc.owed (s.proc.lookup resp.id) = 0) :
    s.step (.frame resp) = some { s with proc := { s.proc.killIfAlive with
      frames := s.proc.frames ++ [(resp, false)]
      reader := .draining (some (unknownId resp.id)) } } := by
  have refuses : s.proc.deliver resp =
      some ({ s.proc with frames := s.proc.frames ++ [(resp, false)] }, [], false) := by
    unfold Proc.deliver
    split
    · rename_i waiter abandoned found
      rw [found] at unknown
      cases unknown
    · rfl
  simp [Host.step, loop, Proc.frame, refuses, Host.posted, post, Proc.killIfAlive]

/-- A response to a ticket that was given up comes to nobody. -/
theorem frame_dropped {s t : Host} {resp : Response} {ticket : TicketState}
    (found : s.proc.lookup resp.id = some ticket) (empty : ticket.res = none)
    (abandoned : ticket.abandoned = true) (went : s.step (.frame resp) = some t) :
    t.calls = s.calls ∧ t.proc.lookup resp.id = none ∧ t.proc.sem = s.proc.sem - 1 := by
  obtain ⟨res, waiter, given⟩ := ticket
  cases empty
  cases abandoned
  simp only [Host.step] at went
  split at went
  · obtain ⟨⟨p', sends⟩, read, posted⟩ := Option.bind_eq_some_iff.mp went
    obtain ⟨calls', posts, rfl⟩ := Option.map_eq_some_iff.mp posted
    rcases Proc.frame_cases read with ⟨w, a, slot, poisoned, known, _, accepts, rfl⟩ | ⟨none, _⟩
    · rw [found] at known
      cases known
      cases accepts
      cases posts
      refine ⟨rfl, ?_, rfl⟩
      have lookup := Proc.lookup_put s.proc resp.id resp.id none (by simp [found])
      rw [if_pos rfl] at lookup
      exact lookup
    · rw [found] at none
      cases none
  · cases went

/-- After the last section of the reader no step registers a ticket. -/
theorem Deal.tickets_stay (deal : Deal p calls p' calls') (reader : p.reader = .done)
    (off : p.shutOff) : p'.tickets.length = p.tickets.length := by
  cases deal with
  | enter => rfl
  | turns turns => rw [turns.tickets]
  | quiet _ quiet => rw [quiet.tickets]
  | register _ open_ =>
    have refuses := off.refuses
    rw [open_] at refuses
    cases refuses
  | collect | park | drop => exact List.length_set
  | abandon =>
    unfold Proc.abandon
    split
    · exact List.length_set
    · rfl
  | unsent _ failed _ =>
    rcases Proc.sendFailed_cases failed with ⟨_, _, _, _, rfl, _⟩ | ⟨_, rfl, _⟩
    · exact List.length_set
    · rfl
  | close => exact List.length_map _
  | frame loop =>
    rw [reader] at loop
    cases loop
  | sweep draining =>
    rw [reader] at draining
    cases draining

/-- What a host promises in every state: answers, permits, sections that do not block, and the end.
-/
structure Host.Guaranteed (s : Host) : Prop where
  waited : ∀ (i id : Nat) (r : Result), s.calls[i]? = some (.waited id r) → Given s.proc id r
  taken : ∀ (i j k : Nat) (c d : Call), s.calls[i]? = some c → s.calls[j]? = some d →
    c.taken = some k → d.taken = some k → i = j
  accepted : ∀ (k l : Nat) (a b : Response), s.proc.frames[k]? = some (a, true) →
    s.proc.frames[l]? = some (b, true) → a.id = b.id → k = l
  unknown : ∀ resp, s.proc.reader = .loop → Proc.owed (s.proc.lookup resp.id) = 0 →
    s.step (.frame resp) = some { s with proc := { s.proc.killIfAlive with
      frames := s.proc.frames ++ [(resp, false)]
      reader := .draining (some (unknownId resp.id)) } }
  refused : ∀ (k : Nat) (resp : Response), s.proc.frames[k]? = some (resp, false) →
    s.proc.reader ≠ .loop ∧ (s.proc.killed = true ∨ s.proc.procExited = true) ∧
      ∀ (i : Nat) (c : Call), s.calls[i]? = some c → c.taken ≠ some k
  givenUp : ∀ resp ticket t, s.proc.lookup resp.id = some ticket → ticket.res = none →
    ticket.abandoned = true → s.step (.frame resp) = some t →
    t.calls = s.calls ∧ t.proc.lookup resp.id = none ∧ t.proc.sem = s.proc.sem - 1
  permits : s.proc.reader = .loop →
    s.proc.sem = census Proc.owed s.proc.tickets + census Call.holds s.calls
  delivers : ∀ resp, s.proc.reader = .loop → (s.step (.frame resp)).isSome
  unsent : ∀ (i id : Nat) (err : GoErr) (c : Choice), s.calls[i]? = some (.unsent id err) →
    (s.step (.call i c)).isSome
  closes : ∀ (i : Nat) (c : Choice), s.calls[i]? = some .close → (s.step (.call i c)).isSome
  sweeps : ∀ cause, s.proc.reader = .draining cause → s.proc.procExited = true →
    (s.step .sweep).isSome
  nobodyWaits : s.proc.readerDone = true → ∀ (i : Nat) (c : Call), s.calls[i]? = some c →
    c.awaits = none
  noWaiter : s.proc.readerDone = true → ∀ id ticket, s.proc.lookup id = some ticket →
    ticket.waiter = none
  noTicket : s.proc.readerDone = true → ∀ a t, s.step a = some t →
    t.proc.tickets.length = s.proc.tickets.length
  closeErr : ∀ (i j : Nat) (e f : Option GoErr), s.calls[i]? = some (.closeReturned e) →
    s.calls[j]? = some (.closeReturned f) → e = f

/-- Every run of a host keeps its promises. -/
theorem host_guaranteed {poolSize : Nat} {s : Host} (reach : Hosts poolSize s) : s.Guaranteed := by
  have sound := hosts_sound reach
  have noWaiter (done : s.proc.readerDone = true) {id : Nat} {ticket : TicketState}
      (found : s.proc.lookup id = some ticket) : ticket.waiter = none := by
    cases waits : ticket.waiter with
    | none => rfl
    | some i =>
      have none := (sound.counted.swept (.inr (sound.counted.halted done))).1
      have here := le_census Proc.owed (tickets_at found)
      have empty := (sound.routed.waiter id ticket i found waits).1
      obtain ⟨res, waiter, abandoned⟩ := ticket
      cases empty
      have one : Proc.owed (some ⟨Option.none, waiter, abandoned⟩) = 1 := rfl
      omega
  exact {
    waited := fun i id r there => sound.routed.got i _ id r there rfl
    taken := fun i j k c d => sound.taken_once
    accepted := sound.once.single
    unknown := fun resp => frame_refused
    refused := fun k resp refused => ⟨(sound.once.refused k resp refused).1,
      (sound.once.refused k resp refused).2, fun i c => sound.refused_untaken refused⟩
    givenUp := fun resp ticket t => frame_dropped
    permits := fun loop => sound.counted.even (.inl loop)
    delivers := fun resp loop => sound.frame_goes loop resp
    unsent := fun i id err c => sound.unsent_goes c
    closes := fun i c => sound.close_goes c
    sweeps := fun cause => sound.sweep_goes
    nobodyWaits := by
      intro done i c there
      cases awaits : c.awaits with
      | none => rfl
      | some id =>
        obtain ⟨t, found, waits⟩ := sound.routed.parked i c id there awaits
        rw [noWaiter done found] at waits
        cases waits
    noWaiter := fun done id ticket => noWaiter done
    noTicket := fun done a t went => (step_deal went).tickets_stay (sound.counted.halted done)
      (sound.counted.swept (.inr (sound.counted.halted done))).2
    closeErr := by
      intro i j e f first second
      rw [← (sound.oneClose.returned i e first).2, ← (sound.oneClose.returned j f second).2] }

theorem hosts_start (poolSize : Nat) : Hosts poolSize (.start poolSize) := .start rfl

/-- A submit, its response, and a Wait that collects it. -/
def answeredRun : List HostAct :=
  [.enter (.submit [7] none), .call 0 .go, .call 0 .go, .call 0 .go, .call 0 .go,
    .frame ⟨1, [8], none⟩, .enter (.wait 1), .call 1 .go]

theorem host_guaranteed_answered : ∃ s, (Host.start 1).follows answeredRun = some s ∧
    s.calls = [.submitted (.ok 1), .waited 1 ⟨[8], none, some 0⟩] ∧ s.Guaranteed := by
  obtain ⟨s, run⟩ := Option.isSome_iff_exists.mp
    (show ((Host.start 1).follows answeredRun).isSome by decide +kernel)
  refine ⟨s, run, ?_, host_guaranteed (follows_hosts (hosts_start 1) run)⟩
  have calls : ((Host.start 1).follows answeredRun).map Host.calls =
      some [.submitted (.ok 1), .waited 1 ⟨[8], none, some 0⟩] := by decide +kernel
  rw [run] at calls
  exact Option.some.inj calls

/-- A response, or an error of a context, of Close or of the worker's exit. -/
def Promised (p : Proc) (id : Nat) (r : Result) : Prop :=
  Answers p id r ∨ ∃ err, r = .failed err ∧
    ((∃ ctx : CtxErr, err = ctx.err) ∨ err = .named .closed ∨ err = errProcClosed ∨
      p.dead = some err)

def fileClosed : GoErr := .plain (text "write |1: file already closed")

/-- Two submits are about to write and a Wait is on the second ticket. The first write ends in the
middle, which closes the pipe, so that the second one fails. -/
def unsentRun : List HostAct :=
  [.enter (.submit [] none), .call 0 .go, .call 0 .go, .call 0 .go,
    .enter (.submit [] none), .call 1 .go, .call 1 .go, .call 1 .go,
    .enter (.wait 2), .call 2 .go,
    .call 0 (.partly .canceled), .call 0 .go, .call 1 (.fails fileClosed), .call 1 .go,
    .call 2 .go]

/-- That Wait returns the error of the write. -/
theorem wait_gets_write_error : ¬ ∀ (poolSize : Nat) (s : Host), Hosts poolSize s →
    ∀ (i id : Nat) (r : Result), s.calls[i]? = some (.waited id r) → Promised s.proc id r := by
  intro promised
  obtain ⟨s, run⟩ := Option.isSome_iff_exists.mp
    (show ((Host.start 2).follows unsentRun).isSome by decide +kernel)
  have waited : ((Host.start 2).follows unsentRun).map (fun s => (s.calls[2]?, s.proc.dead)) =
      some (some (.waited 2 (.failed fileClosed)), none) := by decide +kernel
  rw [run] at waited
  obtain ⟨there, alive⟩ := Prod.mk.injEq .. ▸ Option.some.inj waited
  rcases promised 2 s (follows_hosts (hosts_start 2) run) 2 2 _ there with
    ⟨k, resp, _, _, same⟩ | ⟨err, same, why⟩
  · cases congrArg Result.frame same
  · cases same
    rcases why with ⟨ctx, same⟩ | same | same | dead
    · cases ctx <;> cases same
    · cases same
    · cases same
    · rw [alive] at dead
      cases dead

end Gusset.Isolate
