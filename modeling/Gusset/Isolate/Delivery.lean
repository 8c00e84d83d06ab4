import Gusset.Isolate.Proc

/-! Where the answers and the permits of a host are: what every section keeps. -/
namespace Gusset.Isolate
open Foundation

namespace Call

-- The ticket this call waits for with nothing in its channel.
@[grind] def awaits : Call → Option Nat
  | .parked id none | .expired id _ none => some id
  | _ => none

/-- The ticket and what a Wait on it got, in its channel or returned. -/
@[grind] def got : Call → Option (Nat × Result)
  | .parked id (some r) | .expired id _ (some r) | .waited id r => some (id, r)
  | _ => none

/-- The response this call has taken. -/
@[grind] def taken : Call → Option Nat
  | .parked _ (some r) | .expired _ _ (some r) | .waited _ r | .discarded _ (.ok (some r)) => r.frame
  | _ => none

-- Has a permit and no ticket.
@[grind] def holds : Call → Nat
  | .acquired | .refused _ => 1
  | _ => 0

-- Is the Close that all the others wait for.
@[grind] def closes : Call → Nat
  | .closing | .killing | .closeEnding => 1
  | _ => 0

theorem receive_cases {r : Result} {c c' : Call} (went : c.receive r = some c') :
    ∃ id, c.awaits = some id ∧ c'.awaits = none ∧ c'.got = some (id, r) ∧ c.got = none ∧
      c.taken = none ∧ c'.taken = r.frame ∧ c'.holds = c.holds ∧ c'.closes = c.closes ∧
      c'.receive r = none := by
  unfold receive at went
  split at went <;> cases went <;> exact ⟨_, rfl, rfl, rfl, rfl, rfl, rfl, rfl, rfl, rfl⟩

theorem receive_of_awaits {c : Call} {id : Nat} (empty : c.awaits = some id) (r : Result) :
    (c.receive r).isSome := by
  unfold awaits at empty
  split at empty <;> first | rfl | cases empty

end Call

section post
variable {calls calls' : List Call} {sends : Sends}

/-- What the sends of a section do to each call. -/
theorem post_at (went : post calls sends = some calls') (j : Nat) :
    ((∀ r, (j, r) ∉ sends) ∧ calls'[j]? = calls[j]?) ∨
      ∃ r c c', (j, r) ∈ sends ∧ calls[j]? = some c ∧ c.receive r = some c' ∧
        calls'[j]? = some c' := by
  induction sends generalizing calls with
  | nil =>
    cases went
    exact .inl ⟨by simp, rfl⟩
  | cons first rest ih =>
    obtain ⟨i, r⟩ := first
    simp only [post, Option.bind_eq_some_iff] at went
    obtain ⟨c', ⟨c, found, got⟩, later⟩ := went
    have inside := (List.getElem?_eq_some_iff.mp found).1
    by_cases same : j = i
    · subst same
      have here : (calls.set j c')[j]? = some c' := by simp [inside]
      right
      rcases ih later with ⟨_, still⟩ | ⟨r', d, d', _, found', got', _⟩
      · exact ⟨r, c, c', List.mem_cons_self, found, got, still.trans here⟩
      · rw [here] at found'
        cases found'
        obtain ⟨id, _, full, _⟩ := Call.receive_cases got
        obtain ⟨id', empty, _⟩ := Call.receive_cases got'
        rw [full] at empty
        cases empty
    · have there : (calls.set i c')[j]? = calls[j]? := List.getElem?_set_ne (Ne.symm same)
      have rest := ih later
      rw [there] at rest
      rcases rest with ⟨others, still⟩ | ⟨r', d, d', member, more⟩
      · refine .inl ⟨fun r' member => ?_, still⟩
        rcases List.mem_cons.mp member with head | tail
        · exact same (congrArg Prod.fst head)
        · exact others r' tail
      · exact .inr ⟨r', d, d', List.mem_cons_of_mem _ member, more⟩

/-- A count that a send does not see, and one that sees what is sent. -/
theorem post_census (went : post calls sends = some calls') (f : Call → Nat) (g : Result → Nat)
    (each : ∀ r c c', Call.receive r c = some c' → f c' = f c + g r) :
    census f calls' = census f calls + census (fun send => g send.2) sends := by
  induction sends generalizing calls with
  | nil =>
    cases went
    rfl
  | cons first rest ih =>
    obtain ⟨i, r⟩ := first
    simp only [post, Option.bind_eq_some_iff] at went
    obtain ⟨c', ⟨c, found, got⟩, later⟩ := went
    have moved := census_set f found c'
    have more := each r c c' got
    simp only [ih later, census_cons]
    omega

/-- Sends to different calls that all wait go through. -/
theorem post_isSome (different : (sends.map Prod.fst).Nodup)
    (waits : ∀ i r, (i, r) ∈ sends → ∃ c id, calls[i]? = some c ∧ c.awaits = some id) :
    (post calls sends).isSome := by
  induction sends generalizing calls with
  | nil => rfl
  | cons first rest ih =>
    obtain ⟨i, r⟩ := first
    rw [List.map_cons, List.nodup_cons] at different
    obtain ⟨c, id, found, empty⟩ := waits i r List.mem_cons_self
    obtain ⟨c', got⟩ := Option.isSome_iff_exists.mp (Call.receive_of_awaits empty r)
    simp only [post, found, Option.bind_some, got]
    apply ih different.2
    intro j r' member
    have differ : i ≠ j := by
      rintro rfl
      exact different.1 (List.mem_map.mpr ⟨_, member, rfl⟩)
    rw [List.getElem?_set_ne differ]
    exact waits j r' (List.mem_cons_of_mem _ member)

end post

namespace Proc

variable {p p' : Proc} {id x : Nat}

theorem lookup_put (p : Proc) (id x : Nat) (t : Option TicketState) (known : (p.lookup id).isSome) :
    (p.put id t).lookup x = if x = id then t else p.lookup x := by
  have inside : id < p.tickets.length := by
    by_contra outside
    simp [lookup, List.getElem?_eq_none (Nat.le_of_not_lt outside)] at known
  by_cases same : x = id
  · subst same
    simp [lookup, put, inside]
  · simp [lookup, put, same, List.getElem?_set_ne (Ne.symm same)]

theorem lookup_register (p : Proc) (x : Nat) :
    p.register.lookup x = if x = p.tickets.length then some ⟨none, none, false⟩ else p.lookup x := by
  unfold lookup register
  by_cases same : x = p.tickets.length
  · subst same
    simp
  · rw [if_neg same]
    rcases Nat.lt_or_ge x p.tickets.length with inside | outside
    · rw [List.getElem?_append_left inside]
    · rw [List.getElem?_eq_none (by simp; omega), List.getElem?_eq_none outside]

theorem lookup_fresh (p : Proc) : p.lookup p.tickets.length = none := by simp [lookup]

-- A ticket whose answer has not come.
def owed : Option TicketState → Nat
  | some ⟨none, _, _⟩ => 1
  | _ => 0

theorem sendFailed_cases {err : GoErr} {sends : Sends}
    (failed : p.sendFailed id err = some (p', sends)) :
    (∃ waiter abandoned, p.lookup id = some ⟨none, waiter, abandoned⟩ ∧ 0 < p.sem ∧
      p' = { p.put id none with sem := p.sem - 1, failures := p.failures ++ [(id, err)] } ∧
      sends = waiter.toList.map fun i => (i, .failed err)) ∨
    (owed (p.lookup id) = 0 ∧ p' = { p with failures := p.failures ++ [(id, err)] } ∧
      sends = []) := by
  simp only [sendFailed] at failed
  split at failed
  · rename_i waiter abandoned found
    split at failed
    · cases failed
    · cases failed
      exact .inl ⟨waiter, abandoned, found, by omega, rfl, rfl⟩
  · rename_i other
    cases failed
    refine .inr ⟨?_, rfl, rfl⟩
    unfold owed
    split
    · rename_i waiter abandoned found
      exact absurd found (other waiter abandoned)
    · rfl

/-- What the reader does with a response that is awaited. -/
inductive Accepts (p : Proc) (resp : Response) : Option Nat → Bool → Option TicketState → Sends → Prop
  | abandoned {waiter : Option Nat} : Accepts p resp waiter true none []
  | waiter {i : Nat} : Accepts p resp (some i) false none [(i, resp.result p.frames.length)]
  | stored : Accepts p resp none false (some ⟨some (resp.result p.frames.length), none, false⟩) []

theorem frame_cases {resp : Response} {sends : Sends} (read : p.frame resp = some (p', sends)) :
    (∃ waiter abandoned slot poisoned, p.lookup resp.id = some ⟨none, waiter, abandoned⟩ ∧
      0 < p.sem ∧ Accepts p resp waiter abandoned slot sends ∧
      p' = { p.put resp.id slot with
        sem := p.sem - 1
        poisoned := poisoned
        frames := p.frames ++ [(resp, true)] }) ∨
    (owed (p.lookup resp.id) = 0 ∧ sends = [] ∧
      p' = { p.killIfAlive with
        frames := p.frames ++ [(resp, false)]
        reader := .draining (some (unknownId resp.id)) }) := by
  obtain ⟨⟨q, sent, known⟩, delivered, rest⟩ := Option.map_eq_some_iff.mp read
  simp only [deliver] at delivered
  split at delivered
  · rename_i waiter abandoned found
    split at delivered
    · cases delivered
    · left
      refine ⟨waiter, abandoned, ?_⟩
      split at delivered
      · rename_i given
        cases delivered
        cases rest
        exact ⟨_, _, found, by omega, given ▸ .abandoned, rfl⟩
      · rename_i kept
        obtain rfl : abandoned = false := by simpa using kept
        split at delivered
        all_goals
          cases delivered
          cases rest
        · exact ⟨_, _, found, by omega, .waiter, rfl⟩
        · exact ⟨_, _, found, by omega, .stored, rfl⟩
  · rename_i other
    cases delivered
    cases rest
    refine .inr ⟨?_, rfl, rfl⟩
    unfold owed
    split
    · rename_i waiter abandoned found
      exact absurd found (other waiter abandoned)
    · rfl

end Proc

/-- An answer that is the response to this ticket. -/
def Answers (p : Proc) (id : Nat) (r : Result) : Prop :=
  ∃ (k : Nat) (resp : Response), p.frames[k]? = some (resp, true) ∧ resp.id = id ∧ r = resp.result k

/-- Why a Wait may fail with no response. -/
inductive Fails (p : Proc) (id : Nat) : GoErr → Prop
  | ctx (err : CtxErr) : Fails p id err.err
  | closed : Fails p id (.named .closed)
  | released : Fails p id errProcClosed
  | exited {err : GoErr} : p.dead = some err → Fails p id err
  | unknown : Fails p id (.named .unknownTicket)
  | busy : Fails p id (.named .ticketBusy)
  | unsent {err : GoErr} : (id, err) ∈ p.failures → Fails p id err

/-- What a Wait on this ticket may return. -/
def Given (p : Proc) (id : Nat) (r : Result) : Prop :=
  Answers p id r ∨ ∃ err, r = .failed err ∧ Fails p id err

/-- What was read, and what is latched, stays. -/
structure Proc.Later (p p' : Proc) : Prop where
  frames : p.frames <+: p'.frames
  failures : ∀ f ∈ p.failures, f ∈ p'.failures
  dead : ∀ err, p.dead = some err → p'.dead = some err

theorem Answers.later {p p' : Proc} {id : Nat} {r : Result} (answers : Answers p id r)
    (later : p.Later p') : Answers p' id r := by
  obtain ⟨k, resp, read, rest⟩ := answers
  refine ⟨k, resp, ?_, rest⟩
  obtain ⟨more, same⟩ := later.frames
  rw [← same, List.getElem?_append_left (List.getElem?_eq_some_iff.mp read).1, read]

theorem Given.later {p p' : Proc} {id : Nat} {r : Result} (given : Given p id r)
    (later : p.Later p') : Given p' id r := by
  rcases given with answers | ⟨err, failed, why⟩
  · exact .inl (answers.later later)
  · refine .inr ⟨err, failed, ?_⟩
    cases why with
    | ctx err => exact .ctx err
    | closed => exact .closed
    | released => exact .released
    | exited dead => exact .exited (later.dead err dead)
    | unknown => exact .unknown
    | busy => exact .busy
    | unsent logged => exact .unsent (later.failures _ logged)

/-- The tickets, what was read and the latches are as they were. -/
structure Proc.Steady (p p' : Proc) : Prop where
  poolSize : p'.poolSize = p.poolSize
  tickets : p'.tickets = p.tickets
  frames : p'.frames = p.frames
  failures : p'.failures = p.failures
  dead : p'.dead = p.dead
  closed : p'.closed = p.closed
  killed : p.killed = true → p'.killed = true
  procExited : p.procExited = true → p'.procExited = true

/-- A step of one call that leaves the tickets alone. -/
structure Quiet (p p' : Proc) (c c' : Call) : Prop extends p.Steady p' where
  reader : p'.reader = p.reader
  readerDone : p'.readerDone = p.readerDone
  awaits : c'.awaits = c.awaits
  got : c'.got = c.got ∨ ∃ id err, c'.got = some (id, .failed err) ∧ Fails p id err
  taken : c'.taken = c.taken
  permits : p'.sem + c.holds = p.sem + c'.holds
  closes : (p'.closeDone = p.closeDone ∧ c'.closes = c.closes) ∨
    (c.closes = 1 ∧ c'.closes = 0 ∧ p'.closeDone = true)
  closeErr : p'.closeErr = p.closeErr ∨ c.closes = 1
  returned : ∀ err, c' = .closeReturned err → p'.closeDone = true ∧ p'.closeErr = err

/-- A step of the reader or of the worker that leaves the tickets alone. -/
structure Proc.Turns (p p' : Proc) : Prop extends p.Steady p' where
  sem : p'.sem = p.sem
  closeDone : p'.closeDone = p.closeDone
  closeErr : p'.closeErr = p.closeErr
  reader : (p'.reader = p.reader ∧ p'.readerDone = p.readerDone) ∨
    (p.reader = .loop ∧ (∃ cause, p'.reader = .draining cause) ∧ p'.readerDone = p.readerDone) ∨
    (p.reader = .swept ∧ p'.reader = .done)

/-- A call that begins. -/
structure Call.Begins (c : Call) : Prop where
  awaits : c.awaits = none
  got : c.got = none
  taken : c.taken = none
  holds : c.holds = 0
  closes : c.closes = 0
  returned : ∀ err, c ≠ .closeReturned err

/-- A call that changes only in what it took. -/
structure Call.Takes (c c' : Call) (id : Nat) (r : Result) : Prop where
  awaits : c.awaits = none ∧ c'.awaits = none
  got : c'.got = none ∨ c'.got = some (id, r)
  taken : c.taken = none ∧ c'.taken = r.frame
  holds : c.holds = 0 ∧ c'.holds = 0
  closes : c.closes = 0 ∧ c'.closes = 0
  returned : ∀ err, c' ≠ .closeReturned err

/-- Everything a step can do. -/
inductive Deal (p : Proc) (calls : List Call) : Proc → List Call → Prop
  | enter {c : Call} : c.Begins → Deal p calls p (calls ++ [c])
  | turns {p' : Proc} : p.Turns p' → Deal p calls p' calls
  | quiet {p' : Proc} {i : Nat} {c c' : Call} : calls[i]? = some c → Quiet p p' c c' →
      Deal p calls p' (calls.set i c')
  | register {i : Nat} : calls[i]? = some .acquired → p.refusal = none →
      Deal p calls p.register (calls.set i (.sending p.tickets.length))
  | collect {i id : Nat} {c c' : Call} {t : TicketState} {r : Result} : calls[i]? = some c →
      p.lookup id = some t → t.res = some r → t.waiter = none → c.Takes c' id r →
      Deal p calls (p.put id none) (calls.set i c')
  | park {i id : Nat} {t : TicketState} : calls[i]? = some (.wait id) → p.lookup id = some t →
      t.res = none → t.waiter = none → t.abandoned = false →
      Deal p calls (p.put id (some { t with waiter := some i })) (calls.set i (.parked id none))
  | abandon {i id : Nat} {err : CtxErr} : calls[i]? = some (.expired id err none) →
      Deal p calls (p.abandon id)
        (calls.set i (.waited id (.failed err.err)) ++ [.cancelling id])
  | drop {i id : Nat} {t : TicketState} : calls[i]? = some (.discard id) → p.lookup id = some t →
      t.res = none → t.waiter = none →
      Deal p calls (p.put id (some { t with abandoned := true }))
        (calls.set i (.discarded id (.ok none)))
  | unsent {p' : Proc} {i id : Nat} {err : GoErr} {sends : Sends} {calls' : List Call} :
      calls[i]? = some (.unsent id err) → p.sendFailed id err = some (p', sends) →
      post (calls.set i (.failing err)) sends = some calls' → Deal p calls p' calls'
  | close {i : Nat} {calls' : List Call} : calls[i]? = some .close → p.closed = false →
      post (calls.set i .closing) p.close.2 = some calls' → Deal p calls p.close.1 calls'
  | frame {p' : Proc} {resp : Response} {sends : Sends} {calls' : List Call} :
      p.reader = .loop → p.frame resp = some (p', sends) → post calls sends = some calls' →
      Deal p calls p' calls'
  | sweep {cause : Option Text} {calls' : List Call} : p.reader = .draining cause →
      p.procExited = true → post calls (p.sweep cause).2 = some calls' →
      Deal p calls (p.sweep cause).1 calls'

theorem Proc.Steady.refl (p : Proc) : p.Steady p := ⟨rfl, rfl, rfl, rfl, rfl, rfl, id, id⟩

/-- A step that changes the call only. -/
theorem Quiet.same {p : Proc} {c c' : Call} (awaits : c'.awaits = c.awaits)
    (got : c'.got = c.got ∨ ∃ id err, c'.got = some (id, .failed err) ∧ Fails p id err)
    (taken : c'.taken = c.taken) (holds : c'.holds = c.holds) (closes : c'.closes = c.closes)
    (returned : ∀ err, c' = .closeReturned err → p.closeDone = true ∧ p.closeErr = err) :
    Quiet p p c c' :=
  ⟨.refl p, rfl, rfl, awaits, got, taken, by omega, .inl ⟨rfl, closes⟩, .inl rfl, returned⟩

/-- A step that takes a permit or gives one back. -/
theorem Quiet.of_sem {p : Proc} {c c' : Call} {sem : Nat} (awaits : c'.awaits = c.awaits)
    (got : c'.got = c.got) (taken : c'.taken = c.taken) (closes : c'.closes = c.closes)
    (permits : sem + c.holds = p.sem + c'.holds) (returned : ∀ err, c' ≠ .closeReturned err) :
    Quiet p { p with sem := sem } c c' :=
  ⟨⟨rfl, rfl, rfl, rfl, rfl, rfl, id, id⟩, rfl, rfl, awaits, .inl got, taken, permits,
    .inl ⟨rfl, closes⟩, .inl rfl, fun err same => absurd same (returned err)⟩

section step
variable {p : Proc} {calls : List Call} {i : Nat} {c : Choice}

/-- A call at one of the steps that leave the tickets alone. -/
def Call.plain : Call → Bool
  | .acquired | .unsent _ _ | .wait _ | .discard _ | .close | .expired _ _ none => false
  | _ => true

theorem Call.step_plain {call : Call} {e : Effect} (went : call.step p i c = some e)
    (plain : call.plain) : e.sends = [] ∧ e.fork = none ∧ Quiet p e.proc call e.call := by
  cases call with
  | acquired | unsent | wait | discard | close => cases plain
  | submitted | waited | cancelled | discarded | closeReturned => cases went
  | parked id box =>
    simp only [Call.step] at went
    split at went
    · obtain ⟨r, rfl, rfl⟩ := Option.map_eq_some_iff.mp went
      exact ⟨rfl, rfl, .same rfl (.inl rfl) rfl rfl rfl nofun⟩
    · cases went
      cases box <;> exact ⟨rfl, rfl, .same rfl (.inl rfl) rfl rfl rfl nofun⟩
    · cases went
  | expired id err box =>
    cases box with
    | none => cases plain
    | some r =>
      cases went
      exact ⟨rfl, rfl, .same rfl (.inl rfl) rfl rfl rfl nofun⟩
  | submit input context =>
    cases went
    refine ⟨rfl, rfl, ?_⟩
    simp only [Effect.quiet]
    repeat' split
    all_goals exact .same rfl (.inl rfl) rfl rfl rfl nofun
  | acquiring =>
    simp only [Call.step] at went
    repeat' split at went
    all_goals cases went
    · exact ⟨rfl, rfl, .of_sem rfl rfl rfl rfl rfl nofun⟩
    all_goals exact ⟨rfl, rfl, .same rfl (.inl rfl) rfl rfl rfl nofun⟩
  | refused err =>
    simp only [Call.step] at went
    split at went
    · cases went
    · cases went
      refine ⟨rfl, rfl, .of_sem rfl rfl rfl rfl ?_ nofun⟩
      simp only [holds, Effect.quiet]
      omega
  | sending | failing | cancelling =>
    simp only [Call.step] at went
    repeat' split at went
    all_goals cases went
    all_goals exact ⟨rfl, rfl, .same rfl (.inl rfl) rfl rfl rfl nofun⟩
  | closeWaiting =>
    simp only [Call.step] at went
    split at went
    · rename_i halted
      cases went
      refine ⟨rfl, rfl, .same rfl (.inl rfl) rfl rfl rfl ?_⟩
      intro err same
      cases same
      exact ⟨halted, rfl⟩
    · cases went
  | poisoning | cancelPoisoning =>
    cases went
    exact ⟨rfl, rfl, ⟨⟨rfl, rfl, rfl, rfl, rfl, rfl, id, id⟩, rfl, rfl, rfl, .inl rfl, rfl, rfl,
      .inl ⟨rfl, rfl⟩, .inl rfl, nofun⟩⟩
  | closing =>
    simp only [Call.step] at went
    repeat' split at went
    all_goals cases went
    · exact ⟨rfl, rfl, .same rfl (.inl rfl) rfl rfl rfl nofun⟩
    · exact ⟨rfl, rfl, ⟨⟨rfl, rfl, rfl, rfl, rfl, rfl, fun _ => rfl, id⟩, rfl, rfl, rfl, .inl rfl,
        rfl, rfl, .inl ⟨rfl, rfl⟩, .inl rfl, nofun⟩⟩
  | killing =>
    simp only [Call.step] at went
    split at went
    · cases went
      exact ⟨rfl, rfl, ⟨⟨rfl, rfl, rfl, rfl, rfl, rfl, id, id⟩, rfl, rfl, rfl, .inl rfl,
        rfl, rfl, .inl ⟨rfl, rfl⟩, .inr rfl, nofun⟩⟩
    · cases went
  | closeEnding =>
    cases went
    refine ⟨rfl, rfl, ⟨⟨rfl, rfl, rfl, rfl, rfl, rfl, id, id⟩, rfl, rfl, rfl, .inl rfl,
      rfl, rfl, .inr ⟨rfl, rfl, rfl⟩, .inl rfl, ?_⟩⟩
    intro err same
    cases same
    exact ⟨rfl, rfl⟩

theorem deal_wait {id : Nat} (at_ : calls[i]? = some (.wait id)) :
    (∀ r, (p.claim id i).2 = some r →
      Deal p calls (p.claim id i).1 (calls.set i (.waited id r))) ∧
    ((p.claim id i).2 = none → Deal p calls (p.claim id i).1 (calls.set i (.parked id none))) := by
  have refused {err : GoErr} (why : Fails p id err) :
      Deal p calls p (calls.set i (.waited id (.failed err))) :=
    .quiet at_ (.same rfl (.inr ⟨id, err, rfl, why⟩) rfl rfl rfl nofun)
  unfold Proc.claim
  split
  · exact ⟨by rintro r ⟨⟩; exact refused .closed, nofun⟩
  · split
    · refine ⟨?_, nofun⟩
      rintro r ⟨⟩
      cases dead : p.dead with
      | none => exact refused .unknown
      | some err => exact refused (.exited dead)
    · rename_i t found
      split
      · exact ⟨by rintro r ⟨⟩; exact refused .unknown, nofun⟩
      · rename_i kept
        split
        · exact ⟨by rintro r ⟨⟩; exact refused .busy, nofun⟩
        · rename_i free
          have none : t.waiter = none := by simpa using free
          split
          · rename_i r stored
            refine ⟨?_, nofun⟩
            rintro _ ⟨⟩
            exact .collect at_ found stored none
              ⟨⟨rfl, rfl⟩, .inr rfl, ⟨rfl, rfl⟩, ⟨rfl, rfl⟩, ⟨rfl, rfl⟩, nofun⟩
          · rename_i empty
            exact ⟨nofun, fun _ => .park at_ found empty none (by simpa using kept)⟩

theorem deal_discard {id : Nat} (at_ : calls[i]? = some (.discard id)) :
    Deal p calls (p.discard id).1 (calls.set i (.discarded id (p.discard id).2)) := by
  have refused (err : GoErr) : Deal p calls p (calls.set i (.discarded id (.error err))) :=
    .quiet at_ (.same rfl (.inl rfl) rfl rfl rfl nofun)
  unfold Proc.discard
  split
  · exact refused _
  · split
    · exact refused _
    · rename_i t found
      split
      · exact refused _
      · split
        · exact refused _
        · rename_i free
          have none : t.waiter = none := by simpa using free
          split
          · rename_i r stored
            exact .collect at_ found stored none
              ⟨⟨rfl, rfl⟩, .inl rfl, ⟨rfl, rfl⟩, ⟨rfl, rfl⟩, ⟨rfl, rfl⟩, nofun⟩
          · rename_i empty
            exact .drop at_ found empty none

theorem callStep_deal {s t : Host} (went : s.callStep i c = some t) :
    Deal s.proc s.calls t.proc t.calls := by
  simp only [Host.callStep, Option.bind_eq_some_iff, Option.map_eq_some_iff] at went
  obtain ⟨call, at_, e, did, calls', posts, rfl⟩ := went
  cases plain : call.plain with
  | true =>
    obtain ⟨silent, alone, quiet⟩ := Call.step_plain did plain
    rw [silent] at posts
    cases posts
    simp only [alone, Option.toList_none, List.append_nil]
    exact .quiet at_ quiet
  | false =>
    cases call with
    | acquired =>
      simp only [Call.step] at did
      split at did
      · cases did
        cases posts
        simp only [Call.Effect.quiet, Option.toList_none, List.append_nil]
        exact .quiet at_ (.same rfl (.inl rfl) rfl rfl rfl nofun)
      · rename_i open_
        cases did
        cases posts
        simp only [Call.Effect.quiet, Option.toList_none, List.append_nil]
        exact .register at_ open_
    | unsent id err =>
      obtain ⟨⟨p', sends⟩, failed, rfl⟩ := Option.map_eq_some_iff.mp did
      simp only [Option.toList_none, List.append_nil]
      exact .unsent at_ failed posts
    | wait id =>
      obtain ⟨collected, parks⟩ := deal_wait (p := s.proc) at_
      simp only [Call.step] at did
      split at did
      · rename_i p' r claimed
        cases did
        cases posts
        simp only [Call.Effect.quiet, Option.toList_none, List.append_nil]
        have deal := collected r (by rw [claimed])
        rw [claimed] at deal
        exact deal
      · rename_i p' claimed
        cases did
        cases posts
        simp only [Call.Effect.quiet, Option.toList_none, List.append_nil]
        have deal := parks (by rw [claimed])
        rw [claimed] at deal
        exact deal
    | expired id err box =>
      cases box with
      | none =>
        cases did
        cases posts
        exact .abandon at_
      | some r => cases plain
    | discard id =>
      cases did
      cases posts
      simp only [Call.Effect.quiet, Option.toList_none, List.append_nil]
      exact deal_discard at_
    | close =>
      simp only [Call.step] at did
      split at did
      · cases did
        cases posts
        simp only [Call.Effect.quiet, Option.toList_none, List.append_nil]
        exact .quiet at_ (.same rfl (.inl rfl) rfl rfl rfl nofun)
      · rename_i first
        cases did
        simp only [Option.toList_none, List.append_nil]
        exact .close at_ (by simpa using first) posts
    | _ => cases plain

theorem step_deal {s t : Host} {a : HostAct} (went : s.step a = some t) :
    Deal s.proc s.calls t.proc t.calls := by
  cases a with
  | enter e =>
    cases went
    refine .enter ?_
    cases e <;> exact ⟨rfl, rfl, rfl, rfl, rfl, nofun⟩
  | call i c => exact callStep_deal went
  | frame resp =>
    simp only [Host.step] at went
    split at went
    · rename_i loop
      obtain ⟨⟨p', sends⟩, read, posted⟩ := Option.bind_eq_some_iff.mp went
      obtain ⟨calls', posts, rfl⟩ := Option.map_eq_some_iff.mp posted
      exact .frame loop read posts
    · cases went
  | readFails cause =>
    simp only [Host.step] at went
    split at went
    · rename_i loop
      cases went
      refine .turns ⟨⟨rfl, rfl, rfl, rfl, rfl, rfl, ?_, id⟩, rfl, rfl, rfl, ?_⟩
      · intro killed
        simp [Proc.readFails, Proc.killIfAlive, killed]
      · exact .inr (.inl ⟨loop, ⟨cause, rfl⟩, rfl⟩)
    · cases went
  | reap err =>
    simp only [Host.step] at went
    split at went
    · cases went
    · cases went
      exact .turns ⟨⟨rfl, rfl, rfl, rfl, rfl, rfl, id, id⟩, rfl, rfl, rfl, .inl ⟨rfl, rfl⟩⟩
  | exit =>
    simp only [Host.step] at went
    split at went
    · cases went
      exact .turns ⟨⟨rfl, rfl, rfl, rfl, rfl, rfl, id, fun _ => rfl⟩, rfl, rfl, rfl,
        .inl ⟨rfl, rfl⟩⟩
    · cases went
  | sweep =>
    simp only [Host.step] at went
    split at went
    · rename_i cause draining
      split at went
      · rename_i exited
        obtain ⟨calls', posts, rfl⟩ := Option.map_eq_some_iff.mp went
        exact .sweep draining exited posts
      · cases went
    · cases went
  | done =>
    simp only [Host.step] at went
    split at went
    · rename_i swept
      cases went
      exact .turns ⟨⟨rfl, rfl, rfl, rfl, rfl, rfl, id, id⟩, rfl, rfl, rfl, .inr (.inr ⟨swept, rfl⟩)⟩
    · cases went

end step

end Gusset.Isolate
