import Gusset.Foundation.Words

/-! Frames on a pipe: a 4-byte big-endian length and a body, written whole and read in pieces
through a buffered reader, with a read deadline that may fire between any two bytes. -/
namespace Gusset.Isolate
open Foundation

def maxBufferBytes : Nat := 2 ^ 30
def maxResponseFrame : Nat := maxBufferBytes / 3 * 4 + 64 * 2 ^ 10

-- `binary.BigEndian.PutUint32` and `Uint32`.
def putUint32 (n : Nat) : List Byte :=
  [.ofNat 8 (n / 2 ^ 24), .ofNat 8 (n / 2 ^ 16), .ofNat 8 (n / 2 ^ 8), .ofNat 8 n]

def uint32 (b : List Byte) : Nat := b.foldl (fun n b => n * 2 ^ 8 + b.toNat) 0

theorem length_putUint32 (n : Nat) : (putUint32 n).length = 4 := rfl

theorem uint32_put {n : Nat} (small : n < 2 ^ 32) : uint32 (putUint32 n) = n := by
  simp only [uint32, putUint32, List.foldl_cons, List.foldl_nil, BitVec.toNat_ofNat]
  omega

/-- What encoding/json does to the values of a type: a value that was marshalled comes back. -/
structure Json (α : Type) where
  marshal : α → List Byte
  unmarshal : List Byte → Option α
  back : ∀ v, unmarshal (marshal v) = some v

inductive ReadErr
  | eof | unexpectedEOF | deadline | tooLarge (length : Nat) | json
  deriving DecidableEq, Repr

-- The bytes of a frame around this body.
def framed (body : List Byte) : List Byte := putUint32 body.length ++ body

/-- writeFrame: the bytes it writes, or none for a body over the limit. -/
def writeFrame {α : Type} (json : Json α) (v : α) (limit : Nat) : Option (List Byte) :=
  if limit < (json.marshal v).length then none else some (framed (json.marshal v))

/-- What a read of the pipe finds next: bytes, at least one, or a deadline that has passed; at last it
finds EOF. A read error comes with no bytes. -/
inductive Arrival
  | bytes (first : Byte) (rest : List Byte)
  | deadline
  deriving DecidableEq, Repr

/-- One read of up to `room` bytes. -/
def readPipe (room : Nat) : List Arrival → List Byte × Option ReadErr × List Arrival
  | [] => ([], some .eof, [])
  | .deadline :: rest => ([], some .deadline, rest)
  | .bytes b more :: rest =>
    match (b :: more).drop room with
    | [] => (b :: more, none, rest)
    | c :: left => ((b :: more).take room, none, .bytes c left :: rest)

structure StreamSrc where
  pending : List Byte
  r : List Arrival

def StreamSrc.read (s : StreamSrc) (room : Nat) : List Byte × Option ReadErr × StreamSrc :=
  if s.pending = [] then
    let (got, err, r) := readPipe room s.r
    (got, err, { s with r := r })
  else (s.pending.take room, none, { s with pending := s.pending.drop room })

/-- `bufio.Reader` over a source: the pipe itself at the handshake, a streamSrc in the loop. Its
error is returned by the read that met it, since it comes with no bytes. -/
structure Bufio (σ : Type) where
  buffered : List Byte
  src : σ

namespace Bufio

def defaultSize : Nat := 4096

def read (br : Bufio StreamSrc) (room : Nat) : List Byte × Option ReadErr × Bufio StreamSrc :=
  if br.buffered = [] then
    if defaultSize ≤ room then
      let (got, err, src) := br.src.read room
      (got, err, ⟨[], src⟩)
    else
      let (got, err, src) := br.src.read defaultSize
      (got.take room, err, ⟨got.drop room, src⟩)
  else (br.buffered.take room, none, { br with buffered := br.buffered.drop room })

/-- The loop of `io.ReadFull` and of `io.ReadAll` on a limited reader: read until `n` bytes are
there or a read fails. -/
def fetch (br : Bufio StreamSrc) (n : Nat) : List Byte × Option ReadErr × Bufio StreamSrc :=
  if n = 0 then ([], none, br)
  else
    let (got, err, next) := br.read n
    if _ : got = [] then ([], err, next)
    else
      let (more, err, last) := next.fetch (n - got.length)
      (got ++ more, err, last)
termination_by n
decreasing_by
  have one : 0 < got.length := List.length_pos_iff.mpr ‹got ≠ []›
  omega

end Bufio

/-- A failed readFrame: its error, and the bytes of the frame that it had copied out. -/
structure FrameErr where
  err : ReadErr
  consumed : List Byte
  deriving DecidableEq, Repr

/-- readFrame. A failure with nothing consumed is not a frameError in the source. -/
def readFrame {α : Type} (json : Json α) (br : Bufio StreamSrc) (limit : Nat) :
    Except FrameErr α × Bufio StreamSrc :=
  let (hdr, err, br) := br.fetch 4
  match err with
  | some err =>
    (.error ⟨if hdr ≠ [] ∧ err = .eof then .unexpectedEOF else err, hdr⟩, br)
  | none =>
    let length := uint32 hdr
    if limit < length then (.error ⟨.tooLarge length, []⟩, br)
    else
      let (body, err, br) := br.fetch length
      if body.length = length then
        match json.unmarshal body with
        | some v => (.ok v, br)
        | none => (.error ⟨.json, []⟩, br)
      else
        let err := match err with
          | none | some .eof => .unexpectedEOF
          | some err => err
        (.error ⟨err, hdr ++ body⟩, br)

/-- detachBufio: the unread bytes go back in front of what is pending, and the reader is a new one
over `src`. Of the old reader only its unread bytes are kept, whatever it read from. -/
def detachBufio {σ : Type} (br : Bufio σ) (src : StreamSrc) : Bufio StreamSrc :=
  ⟨[], { src with pending := br.buffered ++ src.pending }⟩

/-- What is still to come of a pipe, byte by byte; `none` is where the deadline fires. -/
def arrived : List Arrival → List (Option Byte)
  | [] => []
  | .deadline :: rest => none :: arrived rest
  | .bytes b more :: rest => (b :: more).map some ++ arrived rest

def Bufio.items (br : Bufio StreamSrc) : List (Option Byte) :=
  (br.buffered ++ br.src.pending).map some ++ arrived br.src.r

/-- What one read takes from the front of what is to come. -/
inductive Reads (room : Nat) (before : List (Option Byte)) :
    List Byte → Option ReadErr → List (Option Byte) → Prop
  | some {got : List Byte} {after : List (Option Byte)} : got ≠ [] → got.length ≤ room →
      before = got.map .some ++ after → Reads room before got none after
  | deadline {after : List (Option Byte)} : before = none :: after →
      Reads room before [] (some .deadline) after
  | eof {after : List (Option Byte)} : before = [] → after = [] →
      Reads room before [] (some .eof) after

theorem take_reads {room : Nat} (positive : 0 < room) {b : List Byte} (full : b ≠ [])
    (after : List (Option Byte)) :
    Reads room (b.map some ++ after) (b.take room) none ((b.drop room).map some ++ after) := by
  have whole : b.map some ++ after =
      (b.take room).map some ++ ((b.drop room).map some ++ after) := by
    rw [← List.append_assoc, ← List.map_append, List.take_append_drop]
  refine .some ?_ (List.length_take_le _ _) whole
  intro empty
  rcases List.take_eq_nil_iff.mp empty with zero | nil
  · omega
  · exact full nil

theorem readPipe_reads {room : Nat} (positive : 0 < room) (r : List Arrival) :
    Reads room (arrived r) (readPipe room r).1 (readPipe room r).2.1
      (arrived (readPipe room r).2.2) := by
  cases r with
  | nil => exact .eof rfl rfl
  | cons a rest =>
    cases a with
    | deadline => exact .deadline rfl
    | bytes b more =>
      have reads := take_reads positive (List.cons_ne_nil b more) (arrived rest)
      cases left : (b :: more).drop room with
      | nil =>
        have short := List.drop_eq_nil_iff.mp left
        rw [left, List.take_of_length_le short] at reads
        simp only [readPipe, left, arrived]
        exact reads
      | cons c later =>
        rw [left] at reads
        simp only [readPipe, left, arrived]
        exact reads

/-- A read that fails leaves nothing pending: the pipe is read last. -/
theorem StreamSrc.read_reads {room : Nat} (positive : 0 < room) (s : StreamSrc) :
    Reads room (s.pending.map some ++ arrived s.r) (s.read room).1 (s.read room).2.1
      ((s.read room).2.2.pending.map some ++ arrived (s.read room).2.2.r) ∧
    ((s.read room).2.1 ≠ none → (s.read room).2.2.pending = []) := by
  unfold read
  split
  · rename_i empty
    simp only [empty, List.map_nil, List.nil_append, implies_true, and_true]
    exact readPipe_reads positive s.r
  · rename_i full
    exact ⟨take_reads positive full _, fun never => absurd rfl never⟩

namespace Bufio

theorem read_reads {room : Nat} (positive : 0 < room) (br : Bufio StreamSrc) :
    Reads room br.items (br.read room).1 (br.read room).2.1 (br.read room).2.2.items ∧
    ((br.read room).2.1 ≠ none →
      (br.read room).2.2.buffered = [] ∧ (br.read room).2.2.src.pending = []) := by
  unfold read
  split
  · rename_i empty
    split
    · obtain ⟨reads, clear⟩ := br.src.read_reads positive
      simp only [items, empty, List.nil_append]
      exact ⟨reads, fun failed => ⟨trivial, clear failed⟩⟩
    · obtain ⟨reads, clear⟩ := br.src.read_reads (show 0 < defaultSize by decide)
      simp only [items, empty, List.nil_append]
      generalize br.src.read defaultSize = r at reads clear ⊢
      obtain ⟨got, err, src⟩ := r
      simp only at reads clear ⊢
      cases reads with
      | some full short bytes =>
        rw [bytes, List.map_append, List.append_assoc]
        exact ⟨take_reads positive full _, fun never => absurd rfl never⟩
      | deadline stops =>
        simp only [List.take_nil, List.drop_nil, List.nil_append]
        exact ⟨.deadline stops, fun failed => ⟨trivial, clear failed⟩⟩
      | eof ends rest =>
        simp only [List.take_nil, List.drop_nil, List.nil_append]
        exact ⟨.eof ends rest, fun failed => ⟨trivial, clear failed⟩⟩
  · rename_i full
    simp only [items, List.map_append, List.append_assoc]
    exact ⟨take_reads positive full _, fun never => absurd rfl never⟩

/-- What fetch takes: all that was asked for, or what comes before the deadline or the end. -/
inductive Fetches (n : Nat) (before : List (Option Byte)) :
    List Byte → Option ReadErr → Bufio StreamSrc → Prop
  | whole {got : List Byte} {after : Bufio StreamSrc} : got.length = n →
      before = got.map some ++ after.items → Fetches n before got none after
  | deadline {got : List Byte} {after : Bufio StreamSrc} : got.length < n →
      before = got.map some ++ none :: after.items → after.buffered = [] → after.src.pending = [] →
      Fetches n before got (some .deadline) after
  | eof {got : List Byte} {after : Bufio StreamSrc} : got.length < n → before = got.map some →
      after.items = [] → Fetches n before got (some .eof) after

theorem fetch_fetches (br : Bufio StreamSrc) (n : Nat) :
    Fetches n br.items (br.fetch n).1 (br.fetch n).2.1 (br.fetch n).2.2 := by
  induction n using Nat.strongRecOn generalizing br with
  | ind n ih =>
    rw [fetch]
    split
    · rename_i done
      exact .whole done.symm rfl
    · rename_i more
      obtain ⟨reads, clear⟩ := read_reads (Nat.pos_of_ne_zero more) br
      generalize br.read n = r at reads clear ⊢
      obtain ⟨got, err, next⟩ := r
      simp only at reads clear ⊢
      cases reads with
      | some full short bytes =>
        have one := List.length_pos_iff.mpr full
        have rest := ih (n - got.length) (by omega) next
        rw [dif_neg full]
        generalize next.fetch (n - got.length) = f at rest ⊢
        obtain ⟨later, err, last⟩ := f
        simp only at rest ⊢
        cases rest with
        | whole length after =>
          refine .whole (by rw [List.length_append]; omega) ?_
          rw [bytes, after, List.map_append, List.append_assoc]
        | deadline length after buffered pending =>
          refine .deadline (by rw [List.length_append]; omega) ?_ buffered pending
          rw [bytes, after, List.map_append, List.append_assoc]
        | eof length after nothing =>
          refine .eof (by rw [List.length_append]; omega) ?_ nothing
          rw [bytes, after, List.map_append]
      | deadline stops =>
        obtain ⟨buffered, pending⟩ := clear (by simp)
        simp only [dite_true]
        exact .deadline (Nat.pos_of_ne_zero more) stops buffered pending
      | eof ends rest =>
        simp only [dite_true]
        exact .eof (Nat.pos_of_ne_zero more) ends rest

section fetch
variable {br : Bufio StreamSrc} {n : Nat} {p : List Byte} {V : List (Option Byte)}

theorem getElem?_bytes (p : List Byte) (V : List (Option Byte)) {i : Nat} (inside : i < p.length) :
    ∃ b, (p.map some ++ V)[i]? = some (some b) :=
  ⟨p[i], by rw [List.getElem?_append_left (by simpa using inside)]; simp [inside]⟩

theorem getElem?_stop (p : List Byte) (V : List (Option Byte)) :
    (p.map some ++ none :: V)[p.length]? = some none := by
  rw [List.getElem?_append_right (by simp)]
  simp

/-- Two ways to say where the deadline is are the same. -/
theorem stop_unique {q : List Byte} {W : List (Option Byte)}
    (same : p.map some ++ none :: V = q.map some ++ none :: W) : p = q ∧ V = W := by
  have length : p.length = q.length := by
    rcases Nat.lt_trichotomy p.length q.length with less | equal | more
    · obtain ⟨b, there⟩ := getElem?_bytes q (none :: W) less
      rw [← same, getElem?_stop] at there
      cases there
    · exact equal
    · obtain ⟨b, there⟩ := getElem?_bytes p (none :: V) more
      rw [same, getElem?_stop] at there
      cases there
  obtain ⟨front, back⟩ := List.append_inj same (by simpa using length)
  exact ⟨List.map_injective_iff.mpr (Option.some_injective _) front, List.tail_eq_of_cons_eq back⟩

theorem fetch_whole (bytes : br.items = p.map some ++ V) (length : p.length = n) :
    ∃ after, br.fetch n = (p, none, after) ∧ after.items = V := by
  have fetches := br.fetch_fetches n
  generalize br.fetch n = f at fetches ⊢
  obtain ⟨got, err, after⟩ := f
  simp only at fetches
  rw [bytes] at fetches
  cases fetches with
  | whole count same =>
    obtain ⟨front, back⟩ := List.append_inj same (by simp; omega)
    have equal := List.map_injective_iff.mpr (Option.some_injective _) front
    exact ⟨after, by rw [equal], back.symm⟩
  | deadline short same =>
    obtain ⟨b, there⟩ := getElem?_bytes p V (i := got.length) (by omega)
    rw [same, getElem?_stop] at there
    cases there
  | eof short same =>
    have count := congrArg List.length same
    simp only [List.length_append, List.length_map] at count
    omega

theorem fetch_stops (bytes : br.items = p.map some ++ none :: V) (short : p.length < n) :
    ∃ after, br.fetch n = (p, some .deadline, after) ∧ after.items = V ∧
      after.buffered = [] ∧ after.src.pending = [] := by
  have fetches := br.fetch_fetches n
  generalize br.fetch n = f at fetches ⊢
  obtain ⟨got, err, after⟩ := f
  simp only at fetches
  rw [bytes] at fetches
  cases fetches with
  | whole count same =>
    obtain ⟨b, there⟩ := getElem?_bytes got after.items (i := p.length) (by omega)
    rw [← same, getElem?_stop] at there
    cases there
  | deadline _ same buffered pending =>
    obtain ⟨equal, rest⟩ := stop_unique same
    exact ⟨after, by rw [equal], rest.symm, buffered, pending⟩
  | eof _ same =>
    have there := getElem?_stop p V
    rw [same, List.getElem?_map] at there
    cases byte : got[p.length]? <;> simp [byte] at there

theorem fetch_ends (bytes : br.items = p.map some) (short : p.length < n) :
    ∃ after, br.fetch n = (p, some .eof, after) ∧ after.items = [] := by
  have fetches := br.fetch_fetches n
  generalize br.fetch n = f at fetches ⊢
  obtain ⟨got, err, after⟩ := f
  simp only at fetches
  rw [bytes] at fetches
  cases fetches with
  | whole count same =>
    have lengths := congrArg List.length same
    simp only [List.length_append, List.length_map] at lengths
    omega
  | deadline _ same =>
    have there := getElem?_stop got after.items
    rw [← same, List.getElem?_map] at there
    cases byte : p[got.length]? <;> simp [byte] at there
  | eof _ same nothing =>
    have equal := List.map_injective_iff.mpr (Option.some_injective _) same
    exact ⟨after, by rw [equal], nothing⟩

end fetch

end Bufio

section readFrame
variable {α : Type} (json : Json α) {br : Bufio StreamSrc} {limit : Nat} {V : List (Option Byte)}

theorem length_framed (body : List Byte) : (framed body).length = 4 + body.length := by
  simp [framed, length_putUint32]

/-- A whole frame is decoded, and the reader is left right behind it. -/
theorem readFrame_whole {v : α} (fits : (json.marshal v).length ≤ limit) (small : limit < 2 ^ 32)
    (bytes : br.items = (framed (json.marshal v)).map some ++ V) :
    ∃ after, readFrame json br limit = (.ok v, after) ∧ after.items = V := by
  have header : br.items = (putUint32 (json.marshal v).length).map some ++
      ((json.marshal v).map some ++ V) := by
    rw [bytes, framed, List.map_append, List.append_assoc]
  obtain ⟨mid, first, rest⟩ := Bufio.fetch_whole header (length_putUint32 _)
  obtain ⟨after, second, left⟩ := Bufio.fetch_whole rest rfl
  refine ⟨after, ?_, left⟩
  have declared := uint32_put (Nat.lt_of_le_of_lt fits small)
  simp only [readFrame, first, declared, if_neg (Nat.not_lt_of_le fits), second, if_true, json.back]

/-- A length over the limit is refused with only the header read. -/
theorem readFrame_tooLarge {hdr : List Byte} (bytes : br.items = hdr.map some ++ V)
    (four : hdr.length = 4) (halted : limit < uint32 hdr) :
    ∃ after, readFrame json br limit = (.error ⟨.tooLarge (uint32 hdr), []⟩, after) ∧
      after.items = V := by
  obtain ⟨after, first, rest⟩ := Bufio.fetch_whole bytes four
  exact ⟨after, by simp only [readFrame, first, if_pos halted], rest⟩

/-- Where a frame is cut: in its header, or in its body. -/
theorem cut_framed {body a : List Byte} (part : a <+: framed body)
    (short : a.length < (framed body).length) :
    a.length < 4 ∨ ∃ b, a = putUint32 body.length ++ b ∧ b.length < body.length := by
  rcases Nat.lt_or_ge a.length 4 with few | enough
  · exact .inl few
  · right
    obtain ⟨c, whole⟩ := part
    have front : a.take 4 = putUint32 body.length := by
      have cut := congrArg (List.take 4) whole
      rwa [List.take_append_of_le_length enough, framed, List.take_left' (length_putUint32 _)] at cut
    refine ⟨a.drop 4, ?_, ?_⟩
    · rw [← front, List.take_append_drop]
    · rw [length_framed] at short
      rw [List.length_drop]
      omega

/-- The deadline inside a frame: every byte read of it is given back. -/
theorem readFrame_stops {body a : List Byte} (fits : body.length ≤ limit) (small : limit < 2 ^ 32)
    (part : a <+: framed body) (short : a.length < (framed body).length)
    (bytes : br.items = a.map some ++ none :: V) :
    ∃ after, readFrame json br limit = (.error ⟨.deadline, a⟩, after) ∧ after.items = V ∧
      after.buffered = [] ∧ after.src.pending = [] := by
  rcases cut_framed part short with few | ⟨b, rfl, less⟩
  · obtain ⟨after, first, rest, clear⟩ := Bufio.fetch_stops bytes few
    exact ⟨after, by simp [readFrame, first], rest, clear⟩
  · have header : br.items = (putUint32 body.length).map some ++ (b.map some ++ none :: V) := by
      rw [bytes, List.map_append, List.append_assoc]
    obtain ⟨mid, first, rest⟩ := Bufio.fetch_whole header (length_putUint32 _)
    obtain ⟨after, second, left, clear⟩ := Bufio.fetch_stops rest less
    have declared := uint32_put (Nat.lt_of_le_of_lt fits small)
    refine ⟨after, ?_, left, clear⟩
    simp only [readFrame, first, declared, if_neg (Nat.not_lt_of_le fits), second,
      if_neg (Nat.ne_of_lt less)]

/-- The end of the stream: EOF between frames, an unexpected one inside. -/
theorem readFrame_ends {body a : List Byte} (fits : body.length ≤ limit) (small : limit < 2 ^ 32)
    (part : a <+: framed body) (short : a.length < (framed body).length)
    (bytes : br.items = a.map some) :
    ∃ after, readFrame json br limit =
      (.error ⟨if a = [] then .eof else .unexpectedEOF, a⟩, after) := by
  rcases cut_framed part short with few | ⟨b, rfl, less⟩
  · obtain ⟨after, first, _⟩ := Bufio.fetch_ends bytes few
    refine ⟨after, ?_⟩
    by_cases empty : a = [] <;> simp [readFrame, first, empty]
  · have header : br.items = (putUint32 body.length).map some ++ b.map some := by
      rw [bytes, List.map_append]
    obtain ⟨mid, first, rest⟩ := Bufio.fetch_whole header (length_putUint32 _)
    obtain ⟨after, second, _⟩ := Bufio.fetch_ends rest less
    have declared := uint32_put (Nat.lt_of_le_of_lt fits small)
    refine ⟨after, ?_⟩
    simp only [readFrame, first, declared, if_neg (Nat.not_lt_of_le fits), second,
      if_neg (Nat.ne_of_lt less)]
    simp [putUint32]

end readFrame

end Gusset.Isolate
