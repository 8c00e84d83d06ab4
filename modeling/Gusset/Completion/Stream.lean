import Gusset.Completion.RingView
import Gusset.Wire.Stream

/-! The pipe and the reader's buffer together hold, byte for byte, the records written and not yet
parsed; what `next` returned came off the ring or out of that stream. -/
namespace Gusset.Completion
open Foundation Wire Gusset.Ring

-- Where a worker of a handle with no ring can stand.
def Worker.direct : Worker → Prop
  | .idle | .start _ | .write _ => True
  | _ => False

-- `nextPipe`.
def ReaderPc.piped : ReaderPc → Prop
  | .parsePipe _ | .fill => True
  | _ => False

def State.unread (s : State) : List Record := s.sent.drop s.parsed

/-- The records of the pipe whose last byte the reader has, and those it has not. -/
def State.buffered (s : State) : List Record :=
  s.unread.take (whole s.reader.held.length s.unread)

def State.piped (s : State) : List Record :=
  s.unread.drop (whole s.reader.held.length s.unread)

structure Stream (cfg : Config) (s : State) : Prop where
  parsed : s.parsed ≤ s.sent.length
  bytes : s.reader.held ++ s.pipe = stream cfg.endian s.unread
  alone : cfg.ring = none → (∀ w ∈ s.workers, w.direct) ∧ .token ∉ s.sent
  attached : cfg.ring ≠ none → ¬ s.reader.pc.piped
  returned : ∀ p ∈ s.returned, p ∈ s.popped ∨
    ∃ r ∈ s.sent.take s.parsed, r ≠ .token ∧ p = Popped.of r
  count : ∀ k, k ≠ 0 → (s.returned.map Popped.ticket).count k =
    (s.popped.map Popped.ticket).count k + (tickets (s.sent.take s.parsed)).count k

theorem opened_stream (cfg : Config) : Stream cfg (.opened cfg) where
  parsed := Nat.le_refl 0
  bytes := rfl
  alone := by
    intro _
    constructor
    · intro w member
      cases member
    · intro member
      cases member
  attached := by
    intro attached
    unfold State.opened
    cases ring : cfg.ring with
    | none => exact absurd ring attached
    | some c => exact id
  returned := by
    intro p member
    cases member
  count := fun _ _ => rfl

variable {cfg : Config} {s t : State} {i : Nat}

theorem Record.eq_token {r : Record} (ticket : r.ticket = 0) (bare : r.data = none) :
    r = .token := by
  cases r
  cases ticket
  cases bare
  rfl

theorem Turn.from_piped {p q : ReaderPc} (turn : Turn cfg s p q) (inside : q.piped) : p.piped := by
  cases turn with
  | wait none =>
    unfold State.waitRing at inside
    split at inside <;> cases inside
  | pipeNone empty => trivial
  | _ => cases inside

theorem Fill.from_piped {p q : ReaderPc} {n : Nat} (fill : Fill s p n q) (inside : q.piped) :
    p.piped := by
  cases fill with
  | missed before n same =>
    unfold State.waitRing at inside
    split at inside <;> cases inside
  | piped n => trivial
  | pipeEof full => trivial
  | _ => cases inside

namespace Stream

/-- A step that changes neither the stream nor what came out of it. -/
theorem keep (flow : Stream cfg s) (sent : t.sent = s.sent) (parsed : t.parsed = s.parsed)
    (bytes : t.reader.held ++ t.pipe = s.reader.held ++ s.pipe)
    (alone : cfg.ring = none → ∀ w ∈ t.workers, w.direct)
    (pc : t.reader.pc.piped → s.reader.pc.piped)
    (out : t.returned = s.returned ∧ t.popped = s.popped ∨
      ∃ p, t.returned = s.returned ++ [p] ∧ t.popped = s.popped ++ [p]) : Stream cfg t where
  parsed := by
    rw [sent, parsed]
    exact flow.parsed
  bytes := by
    rw [bytes, State.unread, sent, parsed]
    exact flow.bytes
  alone := by
    intro none
    rw [sent]
    exact ⟨alone none, (flow.alone none).2⟩
  attached := fun some_ring inside => flow.attached some_ring (pc inside)
  returned := by
    intro p member
    rw [sent, parsed]
    rcases out with ⟨same, popped⟩ | ⟨q, more, popped⟩
    · rw [popped]
      exact flow.returned p (same ▸ member)
    · rw [popped]
      rw [more] at member
      rcases List.mem_append.mp member with old | new
      · rcases flow.returned p old with ring | pipe
        · exact .inl (List.mem_append_left _ ring)
        · exact .inr pipe
      · exact .inl (List.mem_append_right _ new)
  count := by
    intro k issued
    have before := flow.count k issued
    rw [sent, parsed]
    rcases out with ⟨same, popped⟩ | ⟨q, more, popped⟩
    · rw [same, popped]
      exact before
    · rw [more, popped, List.map_append, List.map_append, List.count_append, List.count_append]
      omega

/-- A worker writes a record. -/
theorem write (flow : Stream cfg s) {w v : Worker} {r : Record} (here : s.workers[i]? = some w)
    (writes : Writes cfg w r v) :
    Stream cfg { s with
      pipe := s.pipe ++ r.encode cfg.endian, sent := s.sent ++ [r]
      workers := s.workers.set i v } := by
  have before : (s.sent ++ [r]).take s.parsed = s.sent.take s.parsed :=
    List.take_append_of_le_length flow.parsed
  exact {
    parsed := by
      rw [List.length_append]
      exact Nat.le_add_right_of_le flow.parsed
    bytes := by
      rw [State.unread, List.drop_append_of_le_length flow.parsed, stream_append,
        ← List.append_assoc, flow.bytes, stream_cons, stream_nil, List.append_nil]
      rfl
    alone := by
      intro none
      obtain ⟨direct, untold⟩ := flow.alone none
      have now := direct w (List.mem_of_getElem? here)
      cases writes with
      | record j =>
        constructor
        · intro u member
          rcases mem_set_cases member with rfl | ⟨n, _, old⟩
          · trivial
          · exact direct u (List.mem_of_getElem? old)
        · intro member
          rcases List.mem_append.mp member with old | new
          · exact untold old
          · have zero := congrArg Record.ticket (List.mem_singleton.mp new)
            rw [j.record_ticket cfg] at zero
            exact j.issued zero.symm
      | token => cases now
      | spill j => cases now
    attached := flow.attached
    returned := by
      intro p member
      rw [before]
      exact flow.returned p member
    count := by
      intro k issued
      rw [before]
      exact flow.count k issued }

/-- The next record of the stream is parsed. -/
theorem parse (flow : Stream cfg s) {r : Record} {rest : List Record}
    (unread : s.unread = r :: rest)
    (bytes : s.reader.held.drop r.size ++ s.pipe = stream cfg.endian rest)
    (sent : t.sent = s.sent) (parsed : t.parsed = s.parsed + 1)
    (held : t.reader.held = s.reader.held.drop r.size) (pipe : t.pipe = s.pipe)
    (workers : t.workers = s.workers) (popped : t.popped = s.popped)
    (pc : t.reader.pc.piped → s.reader.pc.piped)
    (out : r = .token ∧ t.returned = s.returned ∨
      r ≠ .token ∧ t.returned = s.returned ++ [Popped.of r]) : Stream cfg t := by
  have at_front : s.sent[s.parsed]? = some r := by
    have first := congrArg List.head? unread
    rwa [State.unread, List.head?_drop] at first
  have bound := (List.getElem?_eq_some_iff.mp at_front).1
  have taken : s.sent.take (s.parsed + 1) = s.sent.take s.parsed ++ [r] := by
    rw [List.take_add_one, at_front]
    rfl
  exact {
    parsed := by
      rw [sent, parsed]
      exact bound
    bytes := by
      have tail := congrArg List.tail unread
      rw [State.unread, List.tail_drop] at tail
      rw [held, pipe, State.unread, sent, parsed, tail]
      exact bytes
    alone := by
      rw [workers, sent]
      exact flow.alone
    attached := fun some_ring inside => flow.attached some_ring (pc inside)
    returned := by
      intro p member
      rw [popped, sent, parsed, taken]
      have earlier : p ∈ s.returned → p ∈ s.popped ∨
          ∃ r' ∈ s.sent.take s.parsed ++ [r], r' ≠ .token ∧ p = Popped.of r' := by
        intro old
        rcases flow.returned p old with ring | ⟨r', before, kind⟩
        · exact .inl ring
        · exact .inr ⟨r', List.mem_append_left _ before, kind⟩
      rcases out with ⟨_, same⟩ | ⟨completion, more⟩
      · exact earlier (same ▸ member)
      · rw [more] at member
        rcases List.mem_append.mp member with old | new
        · exact earlier old
        · refine .inr ⟨r, List.mem_append_right _ (List.mem_singleton_self r), completion, ?_⟩
          exact List.mem_singleton.mp new
    count := by
      intro k issued
      have before := flow.count k issued
      have one : (tickets [r]).count k = if r.ticket = k then 1 else 0 := by
        simp only [tickets, List.map_cons, List.map_nil, List.count_singleton, beq_iff_eq]
      rw [popped, sent, parsed, taken, tickets, List.map_append, List.count_append]
      rcases out with ⟨rfl, same⟩ | ⟨_, more⟩
      · have none : (tickets [Record.token]).count k = 0 := one.trans (if_neg (Ne.symm issued))
        rw [same]
        simp only [tickets] at none before
        omega
      · rw [more, List.map_append, List.count_append]
        simp only [tickets, Popped.of, List.map_cons, List.map_nil] at before ⊢
        omega }

/-- What the reader parses is the next record of the stream. -/
theorem found (flow : Stream cfg s) {ticket : Word} {data : Option (List Byte)} {size : Nat}
    (parsed : parseBuffered cfg.endian s.reader.held = .whole ticket data size) :
    ∃ r rest, s.unread = r :: rest ∧ r.ticket = ticket ∧ r.data = data ∧ r.size = size ∧
      s.reader.held.drop size ++ s.pipe = stream cfg.endian rest := by
  rcases parse_stream flow.bytes with none | ⟨r, rest, unread, next, bytes⟩
  · rw [none] at parsed
    cases parsed
  · rw [next] at parsed
    injection parsed with ticket data size
    exact ⟨r, rest, unread, ticket, data, size, size ▸ bytes⟩

theorem wake (flow : Stream cfg s) {size : Nat}
    (parsed : parseBuffered cfg.endian s.reader.held = .whole 0 none size) :
    ∃ rest, s.unread = .token :: rest ∧ Record.token.size = size ∧
      s.reader.held.drop size ++ s.pipe = stream cfg.endian rest := by
  obtain ⟨r, rest, unread, ticket, data, size, bytes⟩ := flow.found parsed
  cases Record.eq_token ticket data
  exact ⟨rest, unread, size, bytes⟩

/-- What `next` returns from the pipe is a record, never a token: `nextPipe` has no token to meet.
-/
theorem completion (flow : Stream cfg s) {p : Popped} {size : Nat} {pc : ReaderPc}
    (here : s.reader.pc = .parse ∧ pc = .next ∧ ¬ (p.ticket = 0 ∧ p.data = none) ∨
      ∃ failed, s.reader.pc = .parsePipe failed ∧ pc = .parsePipe false)
    (parsed : parseBuffered cfg.endian s.reader.held = .whole p.ticket p.data size) :
    ∃ r rest, s.unread = r :: rest ∧ p = Popped.of r ∧ r.size = size ∧ r ≠ .token ∧
      s.reader.held.drop size ++ s.pipe = stream cfg.endian rest := by
  obtain ⟨r, rest, unread, ticket, data, size, bytes⟩ := flow.found parsed
  refine ⟨r, rest, unread, ?_, size, ?_, bytes⟩
  · cases p
    cases ticket
    cases data
    rfl
  · rintro rfl
    rcases here with ⟨_, _, real⟩ | ⟨failed, before, _⟩
    · exact real ⟨ticket.symm, data.symm⟩
    · have none : cfg.ring = none := by
        by_contra some_ring
        exact flow.attached some_ring (by rw [before]; trivial)
      apply (flow.alone none).2
      exact List.mem_of_mem_drop (unread ▸ List.mem_cons_self)

end Stream

theorem WorkerMove.stream (move : WorkerMove cfg s i t) (flow : Stream cfg s) : Stream cfg t := by
  -- Outside a write only the worker's place can matter.
  have aside : ∀ {w v : Worker}, s.workers[i]? = some w → (w.direct → v.direct) →
      cfg.ring = none → ∀ u ∈ s.workers.set i v, u.direct := by
    intro w v here stays none u member
    have direct := (flow.alone none).1
    rcases mem_set_cases member with rfl | ⟨n, _, old⟩
    · exact stays (direct w (List.mem_of_getElem? here))
    · exact direct u (List.mem_of_getElem? old)
  cases move with
  | direct j here alone =>
    exact flow.keep rfl rfl rfl (aside (v := .write j) here id) id (.inl ⟨rfl, rfl⟩)
  | begin c j here ring =>
    refine flow.keep rfl rfl rfl ?_ id (.inl ⟨rfl, rfl⟩)
    intro none
    rw [none] at ring
    cases ring
  | stall => exact flow
  | write w r after here writes room => exact flow.write here writes
  | publish c j p weak m q claim here ring moved =>
    exact flow.keep rfl rfl rfl (aside here False.elim) id (.inl ⟨rfl, rfl⟩)
  | load here => exact flow.keep rfl rfl rfl (aside here False.elim) id (.inl ⟨rfl, rfl⟩)
  | swap here => exact flow.keep rfl rfl rfl (aside here False.elim) id (.inl ⟨rfl, rfl⟩)
  | full j here => exact flow.keep rfl rfl rfl (aside here False.elim) id (.inl ⟨rfl, rfl⟩)
  | note here => exact flow.keep rfl rfl rfl (aside here False.elim) id (.inl ⟨rfl, rfl⟩)

theorem ReaderMove.stream (move : ReaderMove cfg s t) (flow : Stream cfg s) : Stream cfg t := by
  have alone := fun none => (flow.alone none).1
  cases move with
  | turn pc turn => exact flow.keep rfl rfl rfl alone turn.from_piped (.inl ⟨rfl, rfl⟩)
  | read c k k' m head here ring moved =>
    exact flow.keep rfl rfl rfl alone False.elim (.inl ⟨rfl, rfl⟩)
  | pop c k k' m head p here ring moved =>
    exact flow.keep rfl rfl rfl alone False.elim (.inr ⟨p, rfl, rfl⟩)
  | token size here found =>
    obtain ⟨rest, unread, rfl, bytes⟩ := flow.wake found
    exact flow.parse unread bytes rfl rfl rfl rfl rfl rfl False.elim (.inl ⟨rfl, rfl⟩)
  | record p size seen pc here found =>
    obtain ⟨r, rest, unread, rfl, rfl, real, bytes⟩ := flow.completion here found
    refine flow.parse unread bytes rfl rfl rfl rfl rfl rfl ?_ (.inr ⟨real, rfl⟩)
    intro inside
    rcases here with ⟨_, rfl, _⟩ | ⟨failed, before, rfl⟩
    · cases inside
    · rw [before]
      trivial
  | fill n pc fits some_bytes fill =>
    refine flow.keep rfl rfl ?_ alone fill.from_piped (.inl ⟨rfl, rfl⟩)
    simp only [State.filled, List.append_assoc, List.take_append_drop]
  | announce here => exact flow.keep rfl rfl rfl alone False.elim (.inl ⟨rfl, rfl⟩)
  | retract failed here =>
    refine flow.keep rfl rfl rfl alone ?_ (.inl ⟨rfl, rfl⟩)
    intro inside
    split at inside <;> cases inside

theorem Move.stream (move : Move cfg s t) (flow : Stream cfg s) : Stream cfg t := by
  cases move with
  | spawn =>
    refine flow.keep rfl rfl rfl ?_ id (.inl ⟨rfl, rfl⟩)
    intro none w member
    rcases List.mem_append.mp member with old | new
    · exact (flow.alone none).1 w old
    · rw [List.mem_singleton.mp new]
      trivial
  | complete i j here new =>
    refine flow.keep rfl rfl rfl ?_ id (.inl ⟨rfl, rfl⟩)
    intro none w member
    rcases mem_set_cases member with rfl | ⟨n, _, old⟩
    · trivial
    · exact (flow.alone none).1 w (List.mem_of_getElem? old)
  | worker i move => exact move.stream flow
  | reader move => exact move.stream flow
  | take k r found =>
    exact flow.keep rfl rfl rfl (fun none => (flow.alone none).1) id (.inl ⟨rfl, rfl⟩)
  | missing => exact flow

theorem State.reaches_stream (reach : State.Reaches cfg s) : Stream cfg s := by
  apply reach.invariant
  · rintro _ rfl
    exact opened_stream cfg
  · rintro s t flow ⟨a, went⟩
    exact (step_moves went).stream flow

end Gusset.Completion
