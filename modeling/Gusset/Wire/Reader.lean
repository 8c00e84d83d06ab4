import Gusset.Wire.Stream

/-! The reader of the pipe: a window of 512 bytes, filled by reads that may end anywhere, and the
records it hands out of them. -/
namespace Gusset.Wire
open Foundation

variable {ε : Type}

/-- What the reads of the pipe bring: pieces of at least one byte, then an error, which may come
with the last piece. -/
structure Pipe (ε : Type) where
  pieces : List (List Byte)
  err : ε
  together : Bool
  solid : ∀ p ∈ pieces, p ≠ []

namespace Pipe

def bytes (p : Pipe ε) : List Byte := p.pieces.flatten

/-- One read into a slice of `room` bytes. A piece that does not fit is left for the next one. -/
def read (p : Pipe ε) (room : Nat) : List Byte × Option ε × Pipe ε :=
  match parts : p.pieces with
  | [] => ([], some p.err, p)
  | piece :: rest =>
    if fits : piece.length ≤ room then
      (piece, if rest = [] ∧ p.together then some p.err else none,
        { p with
          pieces := rest
          solid := fun q member => p.solid q (by rw [parts]; exact List.mem_cons_of_mem _ member) })
    else
      (piece.take room, none,
        { p with
          pieces := piece.drop room :: rest
          solid := by
            intro q member
            rcases List.mem_cons.mp member with rfl | later
            · intro empty
              rw [List.drop_eq_nil_iff] at empty
              exact fits empty
            · exact p.solid q (by rw [parts]; exact List.mem_cons_of_mem _ later) })

theorem read_bytes (p : Pipe ε) (room : Nat) :
    (p.read room).1 ++ (p.read room).2.2.bytes = p.bytes := by
  unfold read
  split
  · rfl
  · rename_i piece rest parts
    split
    · simp [bytes, parts]
    · simp only [bytes, parts, List.flatten_cons]
      rw [← List.append_assoc, List.take_append_drop]

theorem read_room (p : Pipe ε) (room : Nat) : (p.read room).1.length ≤ room := by
  unfold read
  split
  · exact Nat.zero_le _
  · split
    · assumption
    · exact List.length_take_le _ _

theorem read_err (p : Pipe ε) (room : Nat) : (p.read room).2.2.err = p.err := by
  unfold read
  split
  · rfl
  · split <;> rfl

/-- A read into a slice with room brings a byte or the error. -/
theorem read_some (p : Pipe ε) {room : Nat} (some : 0 < room) :
    (p.read room).1 ≠ [] ∨ (p.read room).2.1 = .some p.err := by
  unfold read
  split
  · exact .inr rfl
  · rename_i piece rest parts
    have full : piece ≠ [] := p.solid piece (by rw [parts]; exact List.mem_cons_self)
    left
    split
    · exact full
    · intro empty
      rcases List.take_eq_nil_iff.mp empty with none | none
      · omega
      · exact full none

/-- The error comes when nothing is left to read. -/
theorem read_fails (p : Pipe ε) {room : Nat} {err : ε} (fails : (p.read room).2.1 = some err) :
    err = p.err ∧ (p.read room).2.2.bytes = [] := by
  unfold read at fails ⊢
  split at fails
  · rename_i parts
    simp only [Option.some.injEq] at fails
    exact ⟨fails.symm, by simp [bytes, parts]⟩
  · split at fails
    · rename_i fits
      simp only [dif_pos fits] at fails ⊢
      split at fails
      · rename_i last
        simp only [Option.some.injEq] at fails
        exact ⟨fails.symm, by simp [bytes, last.1]⟩
      · cases fails
    · cases fails

end Pipe

/-- A ticket and, for an inline record, its result. -/
abbrev Entry := Word × Option (List Byte)

def Record.entry (r : Record) : Entry := (r.ticket, r.data)

inductive OracleEnd
  | eof
  | corrupt
  deriving DecidableEq

/-- The reference parser of the fuzz test: the whole stream at once. -/
def oracleParse (e : Endian) (b : List Byte) : List Entry × OracleEnd :=
  if b.length < 8 then ([], .eof)
  else
    let w := e.word (b.take 8)
    if w &&& inlineRecordFlag = 0 then
      let (out, ends) := oracleParse e (b.drop 8)
      ((w, none) :: out, ends)
    else if b.length < 16 then ([], .eof)
    else
      let n := e.word ((b.drop 8).take 8)
      if inlineResultMax < n.toNat then ([], .corrupt)
      else
        let size := 16 + (n.toNat + 7) / 8 * 8
        if b.length < size then ([], .eof)
        else
          let (out, ends) := oracleParse e (b.drop size)
          ((w &&& ~~~inlineRecordFlag, some ((b.drop 16).take n.toNat)) :: out, ends)
termination_by b.length
decreasing_by all_goals (simp only [List.length_drop]; omega)

/-- The reader's buffer, with the bytes read and not yet handed out between its two cursors. -/
structure TicketReader where
  buf : List Byte
  start : Nat
  stop : Nat

namespace TicketReader

def bufferBytes : Nat := 512

def new : TicketReader := ⟨List.replicate bufferBytes 0, 0, 0⟩

def buffered (tr : TicketReader) : List Byte := (tr.buf.drop tr.start).take (tr.stop - tr.start)

/-- What fillMode does before it reads: the unread tail moves to the front. -/
def compact (tr : TicketReader) : TicketReader :=
  if 0 < tr.start then
    { buf := tr.buffered ++ tr.buf.drop tr.buffered.length
      start := 0
      stop := tr.stop - tr.start }
  else tr

/-- The length of the slice that fill is given, from the end cursor on. -/
def room (tr : TicketReader) : Nat := tr.buf.length - tr.stop

/-- A read lands in the slice, and the end cursor moves past it. -/
def land (tr : TicketReader) (read : List Byte) : TicketReader :=
  { tr with
    buf := tr.buf.take tr.stop ++ (read ++ tr.buf.drop (tr.stop + read.length))
    stop := tr.stop + read.length }

structure Sound (tr : TicketReader) : Prop where
  whole : tr.buf.length = bufferBytes
  ordered : tr.start ≤ tr.stop
  within : tr.stop ≤ bufferBytes

end TicketReader

inductive Ending (ε : Type)
  | corrupt (length : Word)
  | read (err : ε)
  deriving DecidableEq

/-- A reader between two turns of the loop of nextPipe, with what the calls so far returned. -/
structure Pull (ε : Type) where
  reader : TicketReader
  pipe : Pipe ε
  readErr : Option ε
  out : List Entry
  ended : Option (Ending ε)

def fillMode (s : Pull ε) : Pull ε :=
  let tr := s.reader.compact
  let (read, err, pipe) := s.pipe.read tr.room
  { s with
    reader := tr.land read
    pipe := pipe
    readErr := err }

/-- One turn of the loop. A record ends the call, and the next call starts with no error kept. -/
def turn (e : Endian) (s : Pull ε) : Pull ε :=
  match s.ended with
  | some _ => s
  | none =>
    match parseBuffered e s.reader.buffered with
    | .corrupt n => { s with ended := some (.corrupt n) }
    | .whole t d size =>
      { s with
        reader := { s.reader with start := s.reader.start + size }
        readErr := none
        out := s.out ++ [(t, d)] }
    | .none =>
      match s.readErr with
      | some err => { s with ended := some (.read err) }
      | none => fillMode s

/-- The slice that the next turn passes to fill, if it does. -/
def asks (e : Endian) (s : Pull ε) : Option Nat :=
  if s.ended = none ∧ parseBuffered e s.reader.buffered = .none ∧ s.readErr = none then
    some s.reader.compact.room
  else none

/-- Calls of nextPipe on a fresh reader, after so many turns. -/
def pulled (e : Endian) (pipe : Pipe ε) : Nat → Pull ε
  | 0 => ⟨.new, pipe, none, [], none⟩
  | n + 1 => turn e (pulled e pipe n)

/-- What the buffered bytes parse to does not change with the bytes behind them. -/
theorem parse_append (e : Endian) (b c : List Byte) :
    parseBuffered e b = .none ∨ parseBuffered e (b ++ c) = parseBuffered e b := by
  unfold parseBuffered
  by_cases few : b.length < 8
  · exact .inl (if_pos few)
  · have first : (b ++ c).take 8 = b.take 8 := List.take_append_of_le_length (by omega)
    simp only [List.length_append, if_neg few, first,
      if_neg (show ¬ b.length + c.length < 8 by omega)]
    split
    · exact .inr rfl
    · unfold inlineHeaderBytes
      by_cases head : b.length < 16
      · exact .inl (if_pos head)
      · have second : ((b ++ c).drop 8).take 8 = (b.drop 8).take 8 := by
          rw [List.drop_append_of_le_length (by omega),
            List.take_append_of_le_length (by rw [List.length_drop]; omega)]
        simp only [if_neg head, if_neg (show ¬ b.length + c.length < 16 by omega), second]
        split
        · exact .inr rfl
        · split
          · exact .inl rfl
          · rename_i all
            have pad := le_padded (e.word ((b.drop 8).take 8)).toNat
            rw [if_neg (by omega), List.drop_append_of_le_length (by omega),
              List.take_append_of_le_length (by rw [List.length_drop]; omega)]
            exact .inr rfl

theorem parse_size {e : Endian} {b : List Byte} {t : Word} {d : Option (List Byte)} {n : Nat}
    (parsed : parseBuffered e b = .whole t d n) : 8 ≤ n ∧ n ≤ b.length := by
  unfold parseBuffered inlineHeaderBytes at parsed
  split at parsed
  · cases parsed
  · simp only at parsed
    split at parsed
    · cases parsed
      omega
    · split at parsed
      · cases parsed
      · split at parsed
        · cases parsed
        · split at parsed
          · cases parsed
          · cases parsed
            omega

/-- The reference parser, one record at a time. -/
theorem oracle_next (e : Endian) (b : List Byte) :
    oracleParse e b = match parseBuffered e b with
      | .none => ([], .eof)
      | .corrupt _ => ([], .corrupt)
      | .whole t d n => ((t, d) :: (oracleParse e (b.drop n)).1, (oracleParse e (b.drop n)).2) := by
  rw [oracleParse]
  unfold parseBuffered inlineHeaderBytes padded
  split
  · rfl
  · simp only
    split
    · rfl
    · split
      · rfl
      · split
        · rfl
        · split <;> rfl

namespace TicketReader
variable {tr : TicketReader}

theorem new_sound : new.Sound := ⟨List.length_replicate, Nat.le_refl 0, Nat.zero_le _⟩

theorem length_buffered (sound : tr.Sound) : tr.buffered.length = tr.stop - tr.start := by
  have whole := sound.whole
  have within := sound.within
  unfold buffered
  rw [List.length_take, List.length_drop]
  omega

/-- Compaction keeps the unread bytes and makes the slice behind them as long as it can be. -/
theorem compact_spec (sound : tr.Sound) :
    tr.compact.Sound ∧ tr.compact.buffered = tr.buffered ∧ tr.compact.start = 0 ∧
      tr.compact.room = bufferBytes - tr.buffered.length := by
  have length := length_buffered sound
  have whole := sound.whole
  have within := sound.within
  unfold compact
  split
  · refine ⟨⟨?_, Nat.zero_le _, Nat.le_trans (Nat.sub_le _ _) within⟩, ?_, rfl, ?_⟩
    · rw [List.length_append, List.length_drop]
      omega
    · conv_lhs => unfold buffered
      exact List.take_left' length
    · simp only [room, List.length_append, List.length_drop]
      omega
  · refine ⟨sound, rfl, by omega, ?_⟩
    unfold room
    omega

/-- A read that fits its slice is appended to the unread bytes. -/
theorem land_spec (sound : tr.Sound) (first : tr.start = 0) {read : List Byte}
    (fits : read.length ≤ tr.room) :
    (tr.land read).Sound ∧ (tr.land read).buffered = tr.buffered ++ read := by
  have whole := sound.whole
  have within := sound.within
  unfold room at fits
  have front : (tr.buf.take tr.stop).length = tr.stop := by
    rw [List.length_take]
    omega
  refine ⟨⟨?_, ?_, ?_⟩, ?_⟩
  · simp only [land, List.length_append, front, List.length_drop]
    omega
  · simp only [land]
    omega
  · simp only [land]
    omega
  · simp only [land, buffered, first, List.drop_zero, Nat.sub_zero]
    rw [← List.append_assoc, List.take_left' (by rw [List.length_append, front])]

/-- Handing out a record moves the start cursor within the unread bytes. -/
theorem advance_spec (sound : tr.Sound) {n : Nat} (fits : n ≤ tr.buffered.length) :
    { tr with start := tr.start + n : TicketReader }.Sound ∧
      { tr with start := tr.start + n : TicketReader }.buffered = tr.buffered.drop n := by
  have length := length_buffered sound
  have ordered := sound.ordered
  refine ⟨⟨sound.whole, ?_, sound.within⟩, ?_⟩
  · simp only
    omega
  · simp only [buffered, List.drop_take, List.drop_drop]
    congr 1
    omega

end TicketReader

namespace Pull

/-- The bytes that no call has handed out yet. -/
def unread (s : Pull ε) : List Byte := s.reader.buffered ++ s.pipe.bytes

/-- How far the calls are from their end: bytes to read, bytes to parse, an error to come. -/
def toll (s : Pull ε) : Nat :=
  2 * s.pipe.bytes.length + s.reader.buffered.length + if s.readErr = none then 1 else 0

end Pull

def Ending.kind : Ending ε → OracleEnd
  | .corrupt _ => .corrupt
  | .read _ => .eof

/-- What the calls returned so far and what is still unread add up to what the reference parser
makes of the stream. -/
structure Agrees (e : Endian) (pipe : Pipe ε) (s : Pull ε) : Prop where
  sound : s.reader.Sound
  err : s.pipe.err = pipe.err
  kept : ∀ err, s.readErr = some err → err = pipe.err ∧ s.pipe.bytes = []
  going : s.ended = none → oracleParse e pipe.bytes =
    (s.out ++ (oracleParse e s.unread).1, (oracleParse e s.unread).2)
  halted : ∀ ending, s.ended = some ending → oracleParse e pipe.bytes = (s.out, ending.kind)
  cause : ∀ err, s.ended = some (.read err) → err = pipe.err

section turn
variable {e : Endian} {pipe : Pipe ε} {s : Pull ε}

theorem fill_spec (agrees : Agrees e pipe s) (none : parseBuffered e s.reader.buffered = .none) :
    (fillMode s).reader.Sound ∧ (fillMode s).unread = s.unread ∧ 0 < s.reader.compact.room := by
  obtain ⟨sound, same, first, length⟩ := TicketReader.compact_spec agrees.sound
  have short := parse_none_short none
  have landed := TicketReader.land_spec sound first (s.pipe.read_room s.reader.compact.room)
  refine ⟨landed.1, ?_, ?_⟩
  · simp only [Pull.unread, fillMode]
    rw [landed.2, same, List.append_assoc, Pipe.read_bytes]
  · unfold inlineRecordMax inlineHeaderBytes inlineResultMax at short
    unfold TicketReader.bufferBytes at length
    omega

/-- A turn that fills keeps every byte, and takes at least one byte or the error. -/
theorem fill_agrees (agrees : Agrees e pipe s) (live : s.ended = none)
    (none : parseBuffered e s.reader.buffered = .none) (clear : s.readErr = .none) :
    Agrees e pipe (fillMode s) ∧ (fillMode s).toll < s.toll := by
  obtain ⟨sound, bytes, room⟩ := fill_spec agrees none
  have brings := s.pipe.read_some room
  have stays := agrees.err
  have ended : (fillMode s).ended = s.ended := rfl
  constructor
  · refine ⟨sound, ?_, ?_, ?_, ?_, ?_⟩
    · exact (s.pipe.read_err _).trans stays
    · intro err fails
      obtain ⟨cause, all⟩ := s.pipe.read_fails fails
      exact ⟨cause.trans stays, all⟩
    · intro _
      rw [bytes]
      exact agrees.going live
    · rw [ended, live]
      exact fun _ never => nomatch never
    · rw [ended, live]
      exact fun _ never => nomatch never
  · have count := congrArg List.length bytes
    have pieces := congrArg List.length (s.pipe.read_bytes s.reader.compact.room)
    simp only [Pull.unread, List.length_append] at count
    simp only [List.length_append] at pieces
    have left : (fillMode s).pipe.bytes = (s.pipe.read s.reader.compact.room).2.2.bytes := rfl
    have kept : (fillMode s).readErr = (s.pipe.read s.reader.compact.room).2.1 := rfl
    simp only [Pull.toll, clear, if_pos]
    rw [left] at count ⊢
    rcases brings with some | some
    · have most := List.length_pos_iff.mpr some
      split <;> omega
    · rw [kept, some, if_neg (by simp)]
      omega

theorem turn_agrees (agrees : Agrees e pipe s) (live : s.ended = none) :
    Agrees e pipe (turn e s) ∧ ((turn e s).ended ≠ none ∨ (turn e s).toll < s.toll) := by
  have whole := agrees.going live
  have sound := agrees.sound
  have same := parse_append e s.reader.buffered s.pipe.bytes
  unfold turn
  rw [live]
  simp only
  split
  · rename_i n parsed
    rw [parsed] at same
    have next := oracle_next e s.unread
    rw [Pull.unread, same.resolve_left (by simp)] at next
    refine ⟨⟨sound, agrees.err, agrees.kept, by simp, ?_, by simp⟩, .inl (by simp)⟩
    intro ending halted
    cases halted
    rw [whole, Pull.unread, next]
    simp [Ending.kind]
  · rename_i t d size parsed
    rw [parsed] at same
    obtain ⟨positive, fits⟩ := parse_size parsed
    obtain ⟨moved, rest⟩ := TicketReader.advance_spec sound fits
    have next := oracle_next e s.unread
    rw [Pull.unread, same.resolve_left (by simp)] at next
    simp only at next
    rw [List.drop_append_of_le_length fits] at next
    refine ⟨⟨moved, agrees.err, by simp, ?_, ?_, ?_⟩, .inr ?_⟩
    · intro _
      rw [whole, Pull.unread, next]
      simp only [Pull.unread, rest, List.append_assoc, List.singleton_append]
    · exact fun _ never => nomatch never
    · exact fun _ never => nomatch never
    · simp only [Pull.toll, rest, List.length_drop, if_pos]
      split <;> omega
  · rename_i none
    split
    · rename_i err failed
      obtain ⟨cause, all⟩ := agrees.kept err failed
      have next := oracle_next e s.unread
      rw [Pull.unread, all, List.append_nil, none] at next
      refine ⟨⟨sound, agrees.err, agrees.kept, by simp, ?_, ?_⟩, .inl (by simp)⟩
      · intro ending halted
        cases halted
        rw [whole, Pull.unread, all, List.append_nil, next]
        simp [Ending.kind]
      · intro err halted
        cases halted
        exact cause
    · rename_i clear
      have filled := fill_agrees agrees live none clear
      exact ⟨filled.1, .inr filled.2⟩

end turn

section calls
variable (e : Endian) (pipe : Pipe ε)

theorem pulled_agrees (n : Nat) : Agrees e pipe (pulled e pipe n) := by
  induction n with
  | zero =>
    refine ⟨TicketReader.new_sound, rfl, by simp [pulled], ?_, by simp [pulled], by simp [pulled]⟩
    intro _
    simp [pulled, Pull.unread, TicketReader.buffered, TicketReader.new]
  | succ n ih =>
    cases halted : (pulled e pipe n).ended with
    | none => exact (turn_agrees ih halted).1
    | some ending =>
      have stays : pulled e pipe (n + 1) = pulled e pipe n := by simp [pulled, turn, halted]
      rw [stays]
      exact ih

/-- The calls end: each turn ends them or lowers the toll. -/
theorem pulled_ends : ∃ n, (pulled e pipe n).ended ≠ none := by
  by_contra never
  have going (n : Nat) : (pulled e pipe n).ended = none :=
    Classical.byContradiction fun halted => never ⟨n, halted⟩
  have falls (n : Nat) : (pulled e pipe n).toll + n ≤ (pulled e pipe 0).toll := by
    induction n with
    | zero => exact Nat.le_refl _
    | succ n ih =>
      have lower := (turn_agrees (pulled_agrees e pipe n) (going n)).2.resolve_left
        (fun halted => halted (going (n + 1)))
      have same : pulled e pipe (n + 1) = turn e (pulled e pipe n) := rfl
      rw [same]
      omega
  have most := falls ((pulled e pipe 0).toll + 1)
  omega

theorem oracle_stream (l : List Record) :
    oracleParse e (stream e l) = (l.map Record.entry, .eof) := by
  induction l with
  | nil => simp [oracle_next, parseBuffered]
  | cons r rest ih =>
    rw [oracle_next, stream_cons, r.parse_encode e]
    simp only [List.drop_left' (r.length_encode e), ih, List.map_cons, Record.entry]

/-- However the stream is split into reads, the calls hand out the records that the reference parser
finds in it and end as it does; written records come back as they were, and then the read error.
The cursors stay in the buffer, and fill is never given an empty slice. -/
theorem nextPipe_oracle :
    (∀ n, (pulled e pipe n).reader.start ≤ (pulled e pipe n).reader.stop ∧
      (pulled e pipe n).reader.stop ≤ 512 ∧
      ∀ room, asks e (pulled e pipe n) = some room → 0 < room) ∧
    ∃ n ending, (pulled e pipe n).ended = some ending ∧
      oracleParse e pipe.bytes = ((pulled e pipe n).out, ending.kind) ∧
      (ending.kind = .eof → ending = .read pipe.err) ∧
      ∀ l, pipe.bytes = stream e l →
        (pulled e pipe n).out = l.map Record.entry ∧ ending = .read pipe.err := by
  constructor
  · intro n
    have agrees := pulled_agrees e pipe n
    refine ⟨agrees.sound.ordered, agrees.sound.within, ?_⟩
    intro room asked
    unfold asks at asked
    split at asked
    · rename_i fills
      cases asked
      exact (fill_spec agrees fills.2.1).2.2
    · cases asked
  · obtain ⟨n, halted⟩ := pulled_ends e pipe
    obtain ⟨ending, ended⟩ := Option.ne_none_iff_exists'.mp halted
    have agrees := pulled_agrees e pipe n
    have parsed := agrees.halted ending ended
    have cause : ending.kind = .eof → ending = .read pipe.err := by
      intro kind
      cases ending with
      | corrupt length => cases kind
      | read err => rw [agrees.cause err ended]
    refine ⟨n, ending, ended, parsed, cause, ?_⟩
    intro l written
    rw [written, oracle_stream, Prod.mk.injEq] at parsed
    exact ⟨parsed.1.symm, cause parsed.2.symm⟩

end calls

end Gusset.Wire
