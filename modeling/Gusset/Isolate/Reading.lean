import Gusset.Isolate.Frames

/-! The reading half of Proc.read: frames one after the other, across one read deadline. -/
namespace Gusset.Isolate
open Foundation

variable {α : Type}

inductive Cause
  | read (err : ReadErr)
  | refused
  deriving DecidableEq, Repr

/-- Proc.read between two turns of its loop. `decoded` are the frames it has handed to deliver. -/
structure Reading (α : Type) where
  br : Bufio StreamSrc
  probed : Bool
  decoded : List α
  ended : Option Cause

namespace Reading

/-- The loop's start: the handshake reader reads the pipe itself, and its bytes go in front of it.
-/
def start (buffered : List Byte) (pipe : List Arrival) : Reading α where
  br := detachBufio (⟨buffered, pipe⟩ : Bufio (List Arrival)) ⟨[], pipe⟩
  probed := false
  decoded := []
  ended := none

-- The half-read frame goes back in front of all that is pending on the loop's src, which br reads.
def requeue (br : Bufio StreamSrc) (consumed : List Byte) : Bufio StreamSrc :=
  let br := detachBufio br br.src
  { br with src := { br.src with pending := consumed ++ br.src.pending } }

/-- One turn of the loop. `accepts` is what deliver answers for each frame. -/
def turn (json : Json α) (accepts : Nat → Bool) (s : Reading α) : Reading α :=
  match s.ended with
  | some _ => s
  | none =>
    match readFrame json s.br maxResponseFrame with
    | (.error fail, br) =>
      if ¬ s.probed ∧ fail.err = .deadline then
        { s with br := requeue br fail.consumed, probed := true }
      else { s with br := br, ended := some (.read fail.err) }
    | (.ok resp, br) =>
      { s with
        br := br
        decoded := s.decoded ++ [resp]
        ended := if accepts s.decoded.length then none else some .refused }

def after (json : Json α) (accepts : Nat → Bool) (buffered : List Byte) (pipe : List Arrival) :
    Nat → Reading α
  | 0 => start buffered pipe
  | n + 1 => turn json accepts (after json accepts buffered pipe n)

end Reading

/-- The bytes of frames written one after the other. -/
def written (json : Json α) (vs : List α) : List Byte :=
  vs.flatMap fun v => (writeFrame json v maxResponseFrame).getD []

theorem written_cons {json : Json α} {v : α} (fits : (json.marshal v).length ≤ maxResponseFrame)
    (vs : List α) : written json (v :: vs) = framed (json.marshal v) ++ written json vs := by
  simp [written, writeFrame, Nat.not_lt_of_le fits]

/-- The reader has exactly these bytes ahead, with the deadline somewhere among them or gone. -/
def Ahead (s : Reading α) (rest : List Byte) : Prop :=
  s.br.items = rest.map some ∨
    (s.probed = false ∧ ∃ a b, rest = a ++ b ∧ s.br.items = a.map some ++ none :: b.map some)

/-- What the stream holds: frames within the limit, and a last one cut short. -/
structure Stream (α : Type) where
  json : Json α
  frames : List α
  last : List Byte
  cut : List Byte
  fits : ∀ v ∈ frames, (json.marshal v).length ≤ maxResponseFrame
  lastFits : last.length ≤ maxResponseFrame
  part : cut <+: framed last
  short : cut.length < (framed last).length

namespace Stream

def bytes (st : Stream α) : List Byte := written st.json st.frames ++ st.cut

/-- What a turn keeps: the frames handed out so far are the first ones, and the bytes of the others
are ahead. -/
structure Follows (st : Stream α) (accepts : Nat → Bool) (s : Reading α) : Prop where
  handed : s.decoded <+: st.frames
  ahead : s.ended = none → Ahead s (written st.json (st.frames.drop s.decoded.length) ++ st.cut)
  halted : ∀ err, s.ended = some (.read err) →
    s.decoded = st.frames ∧ err = if st.cut = [] then .eof else .unexpectedEOF
  refused : s.ended = some .refused → ∃ k, k < st.frames.length ∧ accepts k = false

end Stream

theorem small_limit : maxResponseFrame < 2 ^ 32 := by decide

theorem requeue_items {br : Bufio StreamSrc} (clear : br.buffered = [] ∧ br.src.pending = [])
    (consumed : List Byte) : (Reading.requeue br consumed).items = consumed.map some ++ br.items := by
  simp [Reading.requeue, detachBufio, Bufio.items, clear.1, clear.2]

section turn
variable {st : Stream α} {accepts : Nat → Bool} {s : Reading α}

/-- With a frame ahead whole, it is handed out. -/
theorem turn_frame (live : s.ended = none) {v : α}
    (fits : (st.json.marshal v).length ≤ maxResponseFrame)
    {V : List (Option Byte)} (bytes : s.br.items = (framed (st.json.marshal v)).map some ++ V) :
    ∃ br, br.items = V ∧ s.turn st.json accepts =
      { s with
        br := br
        decoded := s.decoded ++ [v]
        ended := if accepts s.decoded.length then none else some .refused } := by
  obtain ⟨br, read, rest⟩ := readFrame_whole st.json fits small_limit bytes
  exact ⟨br, rest, by simp only [Reading.turn, live, read]⟩

/-- With the deadline in the frame ahead, all its bytes are ahead again, without the deadline. -/
theorem turn_stops (live : s.ended = none) (unprobed : s.probed = false) {body a b : List Byte}
    (fits : body.length ≤ maxResponseFrame) (part : a <+: framed body)
    (short : a.length < (framed body).length)
    (bytes : s.br.items = a.map some ++ none :: b.map some) :
    ∃ br, br.items = (a ++ b).map some ∧
      s.turn st.json accepts = { s with br := br, probed := true } := by
  obtain ⟨br, read, rest, clear⟩ := readFrame_stops st.json fits small_limit part short bytes
  refine ⟨Reading.requeue br a, ?_, by simp [Reading.turn, live, read, unprobed]⟩
  rw [requeue_items clear, rest, List.map_append]

theorem turn_ends (live : s.ended = none) (bytes : s.br.items = st.cut.map some) :
    ∃ br, s.turn st.json accepts =
      { s with br := br, ended := some (.read (if st.cut = [] then .eof else .unexpectedEOF)) } := by
  obtain ⟨br, read⟩ := readFrame_ends st.json st.lastFits small_limit st.part st.short bytes
  refine ⟨br, ?_⟩
  simp only [Reading.turn, live, read]
  rw [if_neg]
  rintro ⟨_, never⟩
  split at never <;> cases never

/-- How many turns are left at most: one for each frame, one for the deadline, one for the end. -/
def toll (st : Stream α) (s : Reading α) : Nat :=
  2 * (st.frames.length - s.decoded.length) + if s.probed then 0 else 1

theorem Stream.Follows.turn (follows : st.Follows accepts s) (live : s.ended = none) :
    st.Follows accepts (s.turn st.json accepts) ∧
      ((s.turn st.json accepts).ended ≠ none ∨ toll st (s.turn st.json accepts) < toll st s) := by
  obtain ⟨later, whole⟩ := follows.handed
  have left : st.frames.drop s.decoded.length = later := by
    rw [← whole, List.drop_left' rfl]
  have ahead := follows.ahead live
  rw [left] at ahead
  have count := congrArg List.length whole
  rw [List.length_append] at count
  cases later with
  | nil =>
    rw [List.append_nil] at whole
    rcases ahead with pure | ⟨unprobed, a, b, split, bytes⟩
    · obtain ⟨br, turned⟩ := turn_ends live (by simpa [written] using pure)
      rw [turned]
      refine ⟨⟨follows.handed, by simp, ?_, by simp⟩, .inl (by simp)⟩
      intro err halted
      simp only [Option.some.injEq, Cause.read.injEq] at halted
      exact ⟨whole, halted.symm⟩
    · have cut : st.cut = a ++ b := by simpa [written] using split
      have part : a <+: framed st.last := (cut ▸ List.prefix_append a b).trans st.part
      have short : a.length < (framed st.last).length := by
        have all := st.short
        rw [cut, List.length_append] at all
        omega
      obtain ⟨br, items, turned⟩ := turn_stops live unprobed st.lastFits part short bytes
      rw [turned]
      refine ⟨⟨follows.handed, ?_, by simp [live], by simp [live]⟩, .inr (by simp [toll, unprobed])⟩
      intro _
      left
      simp only [left, written, List.flatMap_nil, List.nil_append, items, cut]
  | cons v later =>
    have fits := st.fits v (by rw [← whole]; simp)
    have next : st.frames.drop (s.decoded ++ [v]).length = later := by
      have shape : s.decoded ++ v :: later = (s.decoded ++ [v]) ++ later := by simp
      rw [← whole, shape, List.drop_left' rfl]
    have handed : s.decoded ++ [v] <+: st.frames := ⟨later, by rw [← whole]; simp⟩
    have frame {V : List (Option Byte)}
        (bytes : s.br.items = (framed (st.json.marshal v)).map some ++ V)
        (behind : ∀ t : Reading α, t.probed = s.probed → t.br.items = V →
          Ahead t (written st.json later ++ st.cut)) :
        st.Follows accepts (s.turn st.json accepts) ∧ ((s.turn st.json accepts).ended ≠ none ∨
          toll st (s.turn st.json accepts) < toll st s) := by
      obtain ⟨br, items, turned⟩ := turn_frame live fits bytes
      rw [turned]
      refine ⟨⟨handed, fun _ => ?_, ?_, ?_⟩, .inr ?_⟩
      · simp only [next]
        exact behind _ rfl items
      · intro err halted
        simp only at halted
        split at halted <;> cases halted
      · intro stopped
        simp only [List.length_cons] at count
        refine ⟨s.decoded.length, by omega, ?_⟩
        by_contra accepted
        simp [accepted] at stopped
      · simp only [toll, List.length_append, List.length_cons, List.length_nil] at count ⊢
        omega
    rw [written_cons fits, List.append_assoc] at ahead
    rcases ahead with pure | ⟨unprobed, a, b, split, bytes⟩
    · rw [List.map_append] at pure
      exact frame pure fun t _ items => .inl items
    · rcases Nat.lt_or_ge a.length (framed (st.json.marshal v)).length with inside | past
      · have part : a <+: framed (st.json.marshal v) := by
          apply List.prefix_of_prefix_length_le (List.prefix_append a b)
            (split ▸ List.prefix_append _ _)
          omega
        obtain ⟨br, items, turned⟩ := turn_stops live unprobed fits part inside bytes
        rw [turned]
        refine ⟨⟨follows.handed, ?_, by simp [live], by simp [live]⟩, .inr (by simp [toll, unprobed])⟩
        intro _
        left
        simp only [left, written_cons fits, List.append_assoc, items, split]
      · have front : framed (st.json.marshal v) <+: a := by
          apply List.prefix_of_prefix_length_le (split ▸ List.prefix_append _ _)
            (List.prefix_append a b) past
        obtain ⟨a', rfl⟩ := front
        rw [List.append_assoc] at split
        have rest := List.append_cancel_left split
        rw [List.map_append, List.append_assoc] at bytes
        exact frame bytes fun t same items => .inr ⟨same.trans unprobed, a', b, rest, items⟩

end turn

-- The bytes that the reads of a pipe bring, and how often the deadline fires.
def pipeBytes : List Arrival → List Byte
  | [] => []
  | .deadline :: rest => pipeBytes rest
  | .bytes b more :: rest => b :: more ++ pipeBytes rest

def deadlines : List Arrival → Nat
  | [] => 0
  | .deadline :: rest => deadlines rest + 1
  | .bytes _ _ :: rest => deadlines rest

theorem arrived_none {pipe : List Arrival} (none : deadlines pipe = 0) :
    arrived pipe = (pipeBytes pipe).map some := by
  induction pipe with
  | nil => rfl
  | cons a rest ih =>
    cases a with
    | deadline => cases none
    | bytes b more => rw [arrived, pipeBytes, List.map_append, ih none]

theorem arrived_once {pipe : List Arrival} (once : deadlines pipe ≤ 1) :
    arrived pipe = (pipeBytes pipe).map some ∨
      ∃ a b, pipeBytes pipe = a ++ b ∧ arrived pipe = a.map some ++ none :: b.map some := by
  induction pipe with
  | nil => exact .inl rfl
  | cons x rest ih =>
    cases x with
    | deadline =>
      have later : deadlines rest = 0 := by
        simp only [deadlines] at once
        omega
      exact .inr ⟨[], pipeBytes rest, rfl, by rw [arrived, arrived_none later]; rfl⟩
    | bytes first more =>
      rcases ih once with pure | ⟨a, b, split, stops⟩
      · exact .inl (by rw [arrived, pipeBytes, List.map_append, pure])
      · refine .inr ⟨first :: more ++ a, b, ?_, ?_⟩
        · rw [pipeBytes, split, List.append_assoc]
        · rw [arrived, stops, List.map_append, List.append_assoc]

section read
variable (st : Stream α) (accepts : Nat → Bool) {buffered : List Byte} {pipe : List Arrival}

theorem start_follows (stream : buffered ++ pipeBytes pipe = st.bytes) (once : deadlines pipe ≤ 1) :
    st.Follows accepts (Reading.start buffered pipe) := by
  refine ⟨List.nil_prefix, fun _ => ?_, by simp [Reading.start], by simp [Reading.start]⟩
  have items : (Reading.start (α := α) buffered pipe).br.items =
      buffered.map some ++ arrived pipe := by
    simp [Reading.start, detachBufio, Bufio.items]
  have all : written st.json (st.frames.drop (Reading.start (α := α) buffered pipe).decoded.length) ++
      st.cut = buffered ++ pipeBytes pipe := stream.symm
  rw [all]
  rcases arrived_once once with pure | ⟨a, b, split, stops⟩
  · left
    rw [items, pure, List.map_append]
  · right
    refine ⟨rfl, buffered ++ a, b, by rw [split, List.append_assoc], ?_⟩
    rw [items, stops, List.map_append, List.append_assoc]

theorem after_follows (stream : buffered ++ pipeBytes pipe = st.bytes) (once : deadlines pipe ≤ 1)
    (n : Nat) : st.Follows accepts (Reading.after st.json accepts buffered pipe n) := by
  induction n with
  | zero => exact start_follows st accepts stream once
  | succ n ih =>
    cases halted : (Reading.after st.json accepts buffered pipe n).ended with
    | none => exact (ih.turn halted).1
    | some cause =>
      have stays : Reading.after st.json accepts buffered pipe (n + 1) =
          Reading.after st.json accepts buffered pipe n := by
        simp only [Reading.after, Reading.turn, halted]
      rw [stays]
      exact ih

theorem after_ends (stream : buffered ++ pipeBytes pipe = st.bytes) (once : deadlines pipe ≤ 1) :
    ∃ n, (Reading.after st.json accepts buffered pipe n).ended ≠ none := by
  by_contra never
  have going (n : Nat) : (Reading.after st.json accepts buffered pipe n).ended = none :=
    Classical.byContradiction fun halted => never ⟨n, halted⟩
  have falls (n : Nat) : toll st (Reading.after st.json accepts buffered pipe n) + n ≤
      toll st (Reading.after st.json accepts buffered pipe 0) := by
    induction n with
    | zero => exact Nat.le_refl _
    | succ n ih =>
      have lower := ((after_follows st accepts stream once n).turn (going n)).2.resolve_left
        fun halted => halted (going (n + 1))
      have same : Reading.after st.json accepts buffered pipe (n + 1) =
          (Reading.after st.json accepts buffered pipe n).turn st.json accepts := rfl
      rw [same]
      omega
  have most := falls (toll st (Reading.after st.json accepts buffered pipe 0) + 1)
  omega

/-- However the stream is cut into reads and wherever the deadline fires, the loop hands out the
frames that were written, in their order; it ends with EOF exactly between two frames; and a length
over the limit is refused with no byte of the body read. -/
theorem frames_reassembled (stream : buffered ++ pipeBytes pipe = st.bytes)
    (once : deadlines pipe ≤ 1) :
    (∀ n, (Reading.after st.json accepts buffered pipe n).decoded <+: st.frames) ∧
    ((∀ k < st.frames.length, accepts k = true) →
      ∃ n, (Reading.after st.json accepts buffered pipe n).decoded = st.frames ∧
        (Reading.after st.json accepts buffered pipe n).ended =
          some (.read (if st.cut = [] then .eof else .unexpectedEOF))) ∧
    (∀ (br : Bufio StreamSrc) (limit : Nat) (hdr : List Byte) (V : List (Option Byte)),
      hdr.length = 4 → limit < uint32 hdr → br.items = hdr.map some ++ V →
      ∃ left, readFrame st.json br limit = (.error ⟨.tooLarge (uint32 hdr), []⟩, left) ∧
        left.items = V) := by
  refine ⟨fun n => (after_follows st accepts stream once n).handed, ?_, ?_⟩
  · intro accepted
    obtain ⟨n, halted⟩ := after_ends st accepts stream once
    obtain ⟨cause, ended⟩ := Option.ne_none_iff_exists'.mp halted
    have follows := after_follows st accepts stream once n
    cases cause with
    | read err =>
      obtain ⟨all, kind⟩ := follows.halted err ended
      exact ⟨n, all, by rw [ended, kind]⟩
    | refused =>
      obtain ⟨k, inside, refuses⟩ := follows.refused ended
      rw [accepted k inside] at refuses
      cases refuses
  · exact fun br limit hdr V four halted bytes => readFrame_tooLarge st.json bytes four halted

end read

/-- Two frames and half the length of a third; a body is its own encoding. -/
def Stream.midway : Stream (List Byte) where
  json := ⟨id, some, fun _ => rfl⟩
  frames := [[7, 8], []]
  last := [9]
  cut := [0, 0]
  fits := by decide
  lastFits := by decide
  part := by decide
  short := by decide

/-- The handshake reader has the first byte, and the deadline fires inside the first body. -/
theorem frames_reassembled_midway :
    ∃ n, (Reading.after Stream.midway.json (fun _ => true) [0]
        [.bytes 0 [0], .bytes 2 [7], .deadline, .bytes 8 [0, 0, 0, 0], .bytes 0 [0]] n).decoded =
      [[7, 8], []] ∧
      (Reading.after Stream.midway.json (fun _ => true) [0]
        [.bytes 0 [0], .bytes 2 [7], .deadline, .bytes 8 [0, 0, 0, 0], .bytes 0 [0]] n).ended =
      some (.read .unexpectedEOF) :=
  (frames_reassembled Stream.midway (fun _ => true) (by decide) (by decide)).2.1 fun _ _ => rfl

end Gusset.Isolate
