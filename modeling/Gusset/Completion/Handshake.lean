import Gusset.Completion.Stream

/-! The park handshake: the waiting flag, and the wake tokens it makes workers owe. -/
namespace Gusset.Completion
open Foundation Wire Gusset.Ring

-- The flag is up, as far as the reader knows.
def ReaderPc.announced : ReaderPc → Prop
  | .recheck | .recheckOverflow | .park | .retract _ => True
  | _ => False

-- The flag is up and the ring has been looked at once more.
def ReaderPc.rechecked : ReaderPc → Prop
  | .recheckOverflow | .park => True
  | _ => False

def ReaderPc.parking : ReaderPc → Prop
  | .recheck | .recheckOverflow | .park => True
  | _ => False

-- A worker that took the flag and has not written its token.
def Worker.owes : Worker → Nat
  | .token => 1
  | _ => 0

/-- Every token counted: by the reader or in this park on one side, with a worker or unread on the
other. -/
structure Tokens (s : State) : Prop where
  flag : s.reader.pc.announced → (s.taken = true ↔ s.waiting = false)
  quiet : ¬ s.reader.pc.announced → s.taken = false ∧ s.waiting = false
  count : s.reader.tokensOwed + (if s.taken then 1 else 0) =
    census Worker.owes s.workers + s.unread.count .token

/-- No wake is lost while the reader parks: a flag already taken has its token on the way, and a
record published behind the flag has a worker about to look at it. -/
structure Handshake (c : Capacity) (s : State) : Prop where
  token : s.reader.pc.parking → s.waiting = false → .token ∈ s.workers ∨ s.pipe ≠ []
  ready : s.reader.pc.rechecked → s.waiting = true →
    ringReady c s.mem s.reader.head = true → .load ∈ s.workers ∨ .swap ∈ s.workers

variable {cfg : Config} {c : Capacity} {s t : State} {i : Nat}

theorem opened_tokens (cfg : Config) : Tokens (.opened cfg) where
  flag := by
    unfold State.opened
    cases cfg.ring <;> exact False.elim
  quiet := fun _ => ⟨rfl, rfl⟩
  count := rfl

theorem opened_handshake (cfg : Config) (c : Capacity) : Handshake c (.opened cfg) where
  token := by
    unfold State.opened
    cases cfg.ring <;> exact False.elim
  ready := by
    unfold State.opened
    cases cfg.ring <;> exact False.elim

theorem waitRing_unannounced (s : State) : ¬ s.waitRing.announced := by
  unfold State.waitRing
  split <;> exact id

theorem Turn.announced {p q : ReaderPc} (turn : Turn cfg s p q) : q.announced ↔ p.announced := by
  cases turn with
  | wait none => exact iff_of_false (waitRing_unannounced s) id
  | _ => exact Iff.rfl

theorem Fill.announced {p q : ReaderPc} {n : Nat} (fill : Fill s p n q) :
    q.announced ↔ p.announced := by
  cases fill with
  | missed before n same => exact iff_of_false (waitRing_unannounced s) id
  | _ => exact Iff.rfl

theorem Job.record_ne_token (cfg : Config) (j : Job) : j.record cfg ≠ .token := by
  intro same
  have zero := congrArg Record.ticket same
  rw [j.record_ticket cfg] at zero
  exact j.issued zero

theorem Job.spilled_ne_token (cfg : Config) (j : Job) : j.spilled cfg ≠ .token := by
  intro same
  have zero := congrArg Record.ticket same
  rw [j.spilled_ticket cfg] at zero
  exact j.issued zero

/-- A write pays what the writer owes. -/
theorem Writes.owes {w v : Worker} {r : Record} (writes : Writes cfg w r v) :
    v.owes + [r].count .token = w.owes := by
  cases writes with
  | record j => simp [Worker.owes, j.record_ne_token cfg]
  | token => rfl
  | spill j => simp [Worker.owes, j.spilled_ne_token cfg]

namespace Tokens

/-- A step that touches no token and neither raises nor lowers the flag. -/
theorem keep (tokens : Tokens s) (pc : t.reader.pc.announced ↔ s.reader.pc.announced)
    (taken : t.taken = s.taken) (waiting : t.waiting = s.waiting)
    (owed : t.reader.tokensOwed = s.reader.tokensOwed)
    (workers : census Worker.owes t.workers + t.unread.count .token =
      census Worker.owes s.workers + s.unread.count .token) : Tokens t where
  flag := by
    rw [pc, taken, waiting]
    exact tokens.flag
  quiet := by
    rw [pc, taken, waiting]
    exact tokens.quiet
  count := by
    rw [taken, owed, workers]
    exact tokens.count

theorem write (tokens : Tokens s) (flow : Stream cfg s) {w v : Worker} {r : Record}
    (here : s.workers[i]? = some w) (writes : Writes cfg w r v) :
    Tokens { s with
      pipe := s.pipe ++ r.encode cfg.endian, sent := s.sent ++ [r]
      workers := s.workers.set i v } := by
  refine tokens.keep Iff.rfl rfl rfl rfl ?_
  have moved := census_set Worker.owes here v
  have paid := writes.owes
  simp only [State.unread]
  rw [List.drop_append_of_le_length flow.parsed, List.count_append]
  omega

end Tokens

theorem WorkerMove.tokens (move : WorkerMove cfg s i t) (flow : Stream cfg s) (tokens : Tokens s) :
    Tokens t := by
  -- A worker that owes nothing before and after.
  have aside : ∀ {w v : Worker}, s.workers[i]? = some w → v.owes = w.owes →
      census Worker.owes (s.workers.set i v) + s.unread.count .token =
        census Worker.owes s.workers + s.unread.count .token := by
    intro w v here same
    rw [census_set_same _ here same]
  cases move with
  | direct j here alone =>
    exact tokens.keep Iff.rfl rfl rfl rfl (aside (v := .write j) here rfl)
  | begin c j here ring =>
    exact tokens.keep Iff.rfl rfl rfl rfl (aside (v := .publish j _) here rfl)
  | stall => exact tokens
  | write w r after here writes room => exact tokens.write flow here writes
  | publish c j p weak m q claim here ring moved =>
    refine tokens.keep Iff.rfl rfl rfl rfl (aside here ?_)
    cases q with
    | done b => cases b <;> rfl
    | _ => rfl
  | load here =>
    refine tokens.keep Iff.rfl rfl rfl rfl (aside here ?_)
    split <;> rfl
  | swap here =>
    cases up : s.waiting with
    | false =>
      refine tokens.keep Iff.rfl (by simp) up.symm rfl (aside here ?_)
      rfl
    | true =>
      -- Only a reader that has announced itself leaves the flag up.
      have inside : s.reader.pc.announced := by
        by_contra outside
        have down := (tokens.quiet outside).2
        rw [up] at down
        cases down
      have free : s.taken = false := by
        cases already : s.taken with
        | false => rfl
        | true =>
          have down := (tokens.flag inside).mp already
          rw [up] at down
          cases down
      have total := tokens.count
      have moved := census_set Worker.owes here .token
      exact {
        flag := fun _ => by simp [free]
        quiet := fun outside => absurd inside outside
        count := by
          simp only [free, State.unread, Worker.owes, Bool.false_eq_true, if_false, if_true,
            Bool.or_true] at total moved ⊢
          omega }
  | full j here => exact tokens.keep Iff.rfl rfl rfl rfl (aside (v := .spill j) here rfl)
  | note here => exact tokens.keep Iff.rfl rfl rfl rfl (aside (v := .idle) here rfl)

theorem ReaderMove.tokens (move : ReaderMove cfg s t) (flow : Stream cfg s) (tokens : Tokens s) :
    Tokens t := by
  cases move with
  | turn pc turn => exact tokens.keep turn.announced rfl rfl rfl rfl
  | read c k k' m head here ring moved =>
    exact tokens.keep (iff_of_false id (by rw [here]; exact id)) rfl rfl rfl rfl
  | pop c k k' m head p here ring moved =>
    exact tokens.keep (iff_of_false id (by rw [here]; exact id)) rfl rfl rfl rfl
  | token size here found =>
    obtain ⟨rest, unread, rfl, _⟩ := flow.wake found
    have outside : ¬ s.reader.pc.announced := by
      rw [here]
      exact id
    obtain ⟨free, down⟩ := tokens.quiet outside
    have total := tokens.count
    have next : s.sent.drop (s.parsed + 1) = rest := by
      have tail := congrArg List.tail unread
      rwa [State.unread, List.tail_drop] at tail
    rw [free, unread, List.count_cons_self] at total
    exact {
      flag := False.elim
      quiet := fun _ => ⟨free, down⟩
      count := by
        simp only [State.consume, State.unread, free, next]
        simp only [Bool.false_eq_true, if_false] at total ⊢
        omega }
  | record p size seen pc here found =>
    obtain ⟨r, rest, unread, rfl, rfl, real, _⟩ := flow.completion here found
    have next : s.sent.drop (s.parsed + 1) = rest := by
      have tail := congrArg List.tail unread
      rwa [State.unread, List.tail_drop] at tail
    refine tokens.keep ?_ rfl rfl rfl ?_
    · rcases here with ⟨before, rfl, _⟩ | ⟨failed, before, rfl⟩
      · rw [before]
        exact Iff.rfl
      · rw [before]
        exact Iff.rfl
    · rw [unread, List.count_cons_of_ne real]
      simp only [State.deliver, State.consume, State.unread, next]
  | fill n pc fits some_bytes fill => exact tokens.keep fill.announced rfl rfl rfl rfl
  | announce here =>
    have outside : ¬ s.reader.pc.announced := by
      rw [here]
      exact id
    have free := (tokens.quiet outside).1
    have total := tokens.count
    exact {
      flag := fun _ => by simp
      quiet := fun outside => absurd trivial outside
      count := by
        rw [free] at total
        exact total }
  | retract failed here =>
    have inside : s.reader.pc.announced := by
      rw [here]
      trivial
    have flag := tokens.flag inside
    have total := tokens.count
    have outside : ¬ (if failed then ReaderPc.failed else .next).announced := by
      split <;> exact id
    exact {
      flag := fun now => absurd now outside
      quiet := fun _ => ⟨rfl, rfl⟩
      count := by
        cases up : s.waiting with
        | true =>
          have free : s.taken = false := by
            rw [up] at flag
            simpa using flag
          rw [free] at total
          exact total
        | false =>
          rw [flag.mpr up] at total
          exact total }

theorem Move.tokens (move : Move cfg s t) (flow : Stream cfg s) (tokens : Tokens s) : Tokens t := by
  cases move with
  | spawn =>
    refine tokens.keep Iff.rfl rfl rfl rfl ?_
    rw [census_concat]
    rfl
  | complete i j here new =>
    refine tokens.keep Iff.rfl rfl rfl rfl ?_
    rw [census_set_same Worker.owes here (b := .start j) rfl]
    rfl
  | worker i move => exact move.tokens flow tokens
  | reader move => exact move.tokens flow tokens
  | take k r found => exact tokens.keep Iff.rfl rfl rfl rfl rfl
  | missing => exact tokens

theorem State.reaches_tokens (reach : State.Reaches cfg s) : Tokens s := by
  apply reach.induction
  · rintro _ rfl
    exact opened_tokens cfg
  · rintro s t before tokens ⟨a, went⟩
    exact (step_moves went).tokens (reaches_stream before) tokens

/-- Only the last store of `try_publish` changes a sequence number, and it ends the call. -/
theorem Producer.step_seq {e : Endian} {m m' : Memory} {claims : Nat} {weak : Bool}
    {p q : Producer} {out : Option Record} (went : p.step e c m claims weak = some (m', q, out)) :
    q = .done true ∨ m'.seq = m.seq := by
  cases p with
  | idle => cases went
  | done published => cases went
  | load r =>
    cases went
    exact .inr rfl
  | look r pos seen =>
    simp only [Ring.Producer.step] at went
    split at went
    · cases went
      exact .inr rfl
    · split at went <;> cases went <;> exact .inr rfl
  | swap r pos seen =>
    simp only [Ring.Producer.step] at went
    split at went <;> cases went <;> exact .inr rfl
  | store r pos seen k =>
    simp only [Ring.Producer.step] at went
    split at went
    · cases went
      exact .inr rfl
    · cases went
      exact .inl rfl

/-- A worker stays where it is while another one moves. -/
theorem stays {l : List Worker} {w v u : Worker} (here : l[i]? = some w) (member : u ∈ l)
    (differ : u ≠ w) : u ∈ l.set i v := by
  obtain ⟨n, found⟩ := List.mem_iff_getElem?.mp member
  have other : i ≠ n := by
    rintro rfl
    exact differ (Option.some.inj (found.symm.trans here))
  exact List.mem_of_getElem? ((List.getElem?_set_ne other).trans found)

namespace Handshake

/-- A worker outside the handshake moves, and the pipe loses nothing. -/
theorem keep (shake : Handshake c s) {w v : Worker} (here : s.workers[i]? = some w)
    (outside : w ≠ .token ∧ w ≠ .load ∧ w ≠ .swap) (workers : t.workers = s.workers.set i v)
    (reader : t.reader = s.reader) (mem : t.mem = s.mem) (waiting : t.waiting = s.waiting)
    (pipe : s.pipe ≠ [] → t.pipe ≠ []) : Handshake c t where
  token := by
    rw [reader, waiting, workers]
    intro parking down
    rcases shake.token parking down with member | unread
    · exact .inl (stays here member outside.1.symm)
    · exact .inr (pipe unread)
  ready := by
    rw [reader, waiting, workers, mem]
    intro rechecked up published
    rcases shake.ready rechecked up published with member | member
    · exact .inl (stays here member outside.2.1.symm)
    · exact .inr (stays here member outside.2.2.symm)

end Handshake

theorem WorkerMove.handshake (move : WorkerMove cfg s i t) (attached : cfg.ring = some c)
    (shake : Handshake c s) : Handshake c t := by
  cases move with
  | direct j here alone =>
    exact shake.keep (v := .write j) here (by simp) rfl rfl rfl rfl id
  | begin c' j here ring =>
    exact shake.keep (v := .publish j _) here (by simp) rfl rfl rfl rfl id
  | stall => exact shake
  | write w r after here writes room =>
    have bytes : s.pipe ++ r.encode cfg.endian ≠ [] := by
      have size := r.size_pos
      intro none
      have length := congrArg List.length none
      rw [List.length_append, r.length_encode cfg.endian, List.length_nil] at length
      omega
    have apart : w ≠ .load ∧ w ≠ .swap := by
      cases writes <;> exact ⟨Worker.noConfusion, Worker.noConfusion⟩
    exact {
      token := fun _ _ => .inr bytes
      ready := by
        intro rechecked up published
        rcases shake.ready rechecked up published with member | member
        · exact .inl (stays here member apart.1.symm)
        · exact .inr (stays here member apart.2.symm) }
  | publish c' j p weak m q claim here ring moved =>
    cases attached.symm.trans ring
    have outside : Worker.publish j p ≠ .token ∧ Worker.publish j p ≠ .load ∧
        Worker.publish j p ≠ .swap := by simp
    refine ⟨?_, ?_⟩
    · intro parking down
      rcases shake.token parking down with member | unread
      · exact .inl (stays here member outside.1.symm)
      · exact .inr unread
    · intro rechecked up published
      rcases Producer.step_seq moved with rfl | same
      · -- The worker that has just stored the sequence number looks at the flag next.
        left
        exact List.mem_of_getElem? (List.getElem?_set_self (List.getElem?_eq_some_iff.mp here).1)
      · have before : ringReady c s.mem s.reader.head = true := by
          simp only [ringReady, same] at published ⊢
          exact published
        rcases shake.ready rechecked up before with member | member
        · exact .inl (stays here member outside.2.1.symm)
        · exact .inr (stays here member outside.2.2.symm)
  | load here =>
    have bound := (List.getElem?_eq_some_iff.mp here).1
    refine ⟨?_, ?_⟩
    · intro parking down
      rcases shake.token parking down with member | unread
      · exact .inl (stays here member (by simp))
      · exact .inr unread
    · intro rechecked up published
      right
      change s.waiting = true at up
      rw [if_pos up]
      exact List.mem_of_getElem? (List.getElem?_set_self bound)
  | swap here =>
    have bound := (List.getElem?_eq_some_iff.mp here).1
    refine ⟨?_, ?_⟩
    · intro parking _
      cases up : s.waiting with
      | true => exact .inl (List.mem_of_getElem? (List.getElem?_set_self bound))
      | false =>
        rcases shake.token parking up with member | unread
        · exact .inl (stays here member (by simp))
        · exact .inr unread
    · intro _ up
      cases up
  | full j here => exact shake.keep (v := .spill j) here (by simp) rfl rfl rfl rfl id
  | note here => exact shake.keep (v := .idle) here (by simp) rfl rfl rfl rfl id

theorem ReaderMove.handshake (move : ReaderMove cfg s t) (attached : cfg.ring = some c)
    (shake : Handshake c s) : Handshake c t := by
  cases move with
  | turn pc turn =>
    generalize place : s.reader.pc = p at turn
    cases turn with
    | still c' ring no =>
      cases attached.symm.trans ring
      refine ⟨fun _ down => shake.token (by rw [place]; trivial) down, ?_⟩
      intro _ _ published
      exact absurd (no.symm.trans published) Bool.false_ne_true
    | park =>
      refine ⟨fun _ down => shake.token (by rw [place]; trivial) down, ?_⟩
      intro _ up published
      exact shake.ready (by rw [place]; trivial) up published
    | wait none =>
      have outside : ¬ s.waitRing.parking ∧ ¬ s.waitRing.rechecked := by
        unfold State.waitRing
        split <;> exact ⟨id, id⟩
      exact ⟨fun parking => absurd parking outside.1, fun inside => absurd inside outside.2⟩
    | _ => exact ⟨False.elim, False.elim⟩
  | read c' k k' m head here ring moved => exact ⟨False.elim, False.elim⟩
  | pop c' k k' m head p here ring moved => exact ⟨False.elim, False.elim⟩
  | token size here found => exact ⟨False.elim, False.elim⟩
  | record p size seen pc here found =>
    rcases here with ⟨_, rfl, _⟩ | ⟨failed, _, rfl⟩ <;> exact ⟨False.elim, False.elim⟩
  | fill n pc fits some_bytes fill =>
    generalize s.reader.pc = p at fill
    cases fill with
    | missed before n same =>
      have outside : ¬ s.waitRing.parking ∧ ¬ s.waitRing.rechecked := by
        unfold State.waitRing
        split <;> exact ⟨id, id⟩
      exact ⟨fun parking => absurd parking outside.1, fun inside => absurd inside outside.2⟩
    | _ => exact ⟨False.elim, False.elim⟩
  | announce here =>
    refine ⟨?_, False.elim⟩
    intro _ down
    cases down
  | retract failed here =>
    cases failed <;> exact ⟨False.elim, False.elim⟩

theorem Move.handshake (move : Move cfg s t) (attached : cfg.ring = some c)
    (shake : Handshake c s) : Handshake c t := by
  cases move with
  | spawn =>
    refine ⟨?_, ?_⟩
    · intro parking down
      rcases shake.token parking down with member | unread
      · exact .inl (List.mem_append_left _ member)
      · exact .inr unread
    · intro rechecked up published
      rcases shake.ready rechecked up published with member | member
      · exact .inl (List.mem_append_left _ member)
      · exact .inr (List.mem_append_left _ member)
  | complete i j here new => exact shake.keep (v := .start j) here (by simp) rfl rfl rfl rfl id
  | worker i move => exact move.handshake attached shake
  | reader move => exact move.handshake attached shake
  | take k r found => exact ⟨shake.token, shake.ready⟩
  | missing => exact shake

theorem State.reaches_handshake (attached : cfg.ring = some c) (reach : State.Reaches cfg s) :
    Handshake c s := by
  apply reach.invariant
  · rintro _ rfl
    exact opened_handshake cfg c
  · rintro s t shake ⟨a, went⟩
    exact (step_moves went).handshake attached shake

namespace State

/-- A reader parked before a published record has its wake on the way: some worker has stored its
sequence number and is still in `take_waiter`, or took the flag and has not written its token. With
every worker idle there is no such reader. -/
theorem wake_not_lost (attached : cfg.ring = some c) (reach : Reaches cfg s)
    (parked : s.reader.pc = .park) (empty : s.pipe = []) :
    (ringReady c s.mem s.reader.head = true →
      ∃ w ∈ s.workers, w = .load ∨ w = .swap ∨ w = .token) ∧
    ((∀ w ∈ s.workers, w = .idle) → ringReady c s.mem s.reader.head = false) := by
  have shake := reaches_handshake attached reach
  have woken : ringReady c s.mem s.reader.head = true →
      ∃ w ∈ s.workers, w = .load ∨ w = .swap ∨ w = .token := by
    intro published
    cases up : s.waiting with
    | true =>
      rcases shake.ready (by rw [parked]; trivial) up published with member | member
      · exact ⟨_, member, .inl rfl⟩
      · exact ⟨_, member, .inr (.inl rfl)⟩
    | false =>
      rcases shake.token (by rw [parked]; trivial) up with member | unread
      · exact ⟨_, member, .inr (.inr rfl)⟩
      · exact absurd empty unread
  refine ⟨woken, ?_⟩
  intro idle
  by_contra published
  obtain ⟨w, member, busy⟩ := woken (Bool.of_not_eq_false published)
  rw [idle w member] at busy
  rcases busy with load | swap | token
  · cases load
  · cases swap
  · cases token

/-- A parked reader, and a worker that has published and not looked at the flag. -/
def unseen : Option State :=
  follow (State.step .small) (opened .small)
    (([.spawn] : List Act) ++ Act.readers 6 ++
      ([.complete 0 (.failing 1 Nat.one_pos Job.one_low)] : List Act) ++ Act.workers 0 6)

theorem unseen_runs : unseen.isSome = true := by decide

theorem wake_not_lost_unseen :
    ringReady .least (unseen.get unseen_runs).mem (unseen.get unseen_runs).reader.head = true ∧
      ∃ w ∈ (unseen.get unseen_runs).workers, w = .load ∨ w = .swap ∨ w = .token := by
  have reach : Reaches .small (unseen.get unseen_runs) :=
    follow_reaches (.start rfl) (Option.some_get unseen_runs).symm
  have published : ringReady .least (unseen.get unseen_runs).mem
      (unseen.get unseen_runs).reader.head = true := by decide
  exact ⟨published, (wake_not_lost rfl reach (by decide) (by decide)).1 published⟩

/-- Wake tokens are accounted for exactly: what the reader counts as owed, and one more if its flag
was taken in this park, is what the workers owe and what is in the pipe and in the buffer. -/
theorem tokens_exact (reach : Reaches cfg s) :
    s.reader.held ++ s.pipe = stream cfg.endian (s.buffered ++ s.piped) ∧
    (s.taken = true ↔ s.reader.pc.announced ∧ s.waiting = false) ∧
    s.reader.tokensOwed + (if s.taken then 1 else 0) =
      census Worker.owes s.workers + s.piped.count .token + s.buffered.count .token ∧
    (∀ size, s.reader.pc = .parse →
      parseBuffered cfg.endian s.reader.held = .whole 0 none size → 0 < s.reader.tokensOwed) ∧
    (¬ s.reader.pc.announced →
      census Worker.owes s.workers + s.piped.count .token ≤ s.reader.tokensOwed) ∧
    (census Worker.owes s.workers + s.piped.count .token + s.buffered.count .token = 0 →
      s.reader.tokensOwed = 0) := by
  have flow := reaches_stream reach
  have tokens := reaches_tokens reach
  have split : s.buffered ++ s.piped = s.unread := List.take_append_drop _ _
  have count : s.unread.count .token = s.buffered.count .token + s.piped.count .token := by
    rw [← split, List.count_append]
  have total := tokens.count
  refine ⟨by rw [split, flow.bytes], ?_, by omega, ?_, ?_, by omega⟩
  · constructor
    · intro took
      have inside : s.reader.pc.announced := by
        by_contra outside
        rw [(tokens.quiet outside).1] at took
        cases took
      exact ⟨inside, (tokens.flag inside).mp took⟩
    · rintro ⟨inside, down⟩
      exact (tokens.flag inside).mpr down
  · intro size here found
    obtain ⟨rest, unread, _, _⟩ := flow.wake found
    have free := (tokens.quiet (by rw [here]; exact id)).1
    rw [free, unread, List.count_cons_self] at total
    simp only [Bool.false_eq_true, if_false] at total
    omega
  · intro outside
    have free := (tokens.quiet outside).1
    rw [free] at total
    simp only [Bool.false_eq_true, if_false] at total
    omega

/-- The worker has taken the flag and has its token still to write. -/
def owing : Option State :=
  follow (State.step .small) (opened .small)
    (([.spawn] : List Act) ++ Act.readers 6 ++
      ([.complete 0 (.failing 1 Nat.one_pos Job.one_low)] : List Act) ++ Act.workers 0 8)

theorem owing_runs : owing.isSome = true := by decide

theorem tokens_exact_owing :
    (owing.get owing_runs).taken = true ∧
      (owing.get owing_runs).reader.tokensOwed + 1 =
        census Worker.owes (owing.get owing_runs).workers +
          (owing.get owing_runs).piped.count .token +
          (owing.get owing_runs).buffered.count .token := by
  have reach : Reaches .small (owing.get owing_runs) :=
    follow_reaches (.start rfl) (Option.some_get owing_runs).symm
  have took : (owing.get owing_runs).taken = true := by decide
  have total := (tokens_exact reach).2.2.1
  rw [took] at total
  exact ⟨took, total⟩

end State

end Gusset.Completion
