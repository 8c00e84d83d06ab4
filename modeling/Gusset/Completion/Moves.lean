import Gusset.Completion.Program

/-! What one step of a worker or of the reader can do. -/
namespace Gusset.Completion
open Foundation Wire Gusset.Ring

/-- A write to the pipe: who writes, which record, and where the worker stands after it. -/
inductive Writes (cfg : Config) : Worker → Record → Worker → Prop
  | record (j : Job) : Writes cfg (.write j) (j.record cfg) .idle
  | token : Writes cfg .token .token .idle
  | spill (j : Job) : Writes cfg (.spill j) (j.spilled cfg) .note

/-- What one step of worker `i` can do. -/
inductive WorkerMove (cfg : Config) (s : State) (i : Nat) : State → Prop
  | direct (j : Job) (here : s.workers[i]? = some (.start j)) (alone : cfg.ring = none) :
    WorkerMove cfg s i { s with
      results := s.insertResult j ((j.record cfg).data = none)
      workers := s.workers.set i (.write j) }
  | begin (c : Capacity) (j : Job) (here : s.workers[i]? = some (.start j))
      (ring : cfg.ring = some c) :
    WorkerMove cfg s i { s with
      results := s.insertResult j ((j.record cfg).data = none)
      workers := s.workers.set i (.publish j (.load (j.record cfg))) }
  | stall : WorkerMove cfg s i s
  | write (w : Worker) (r : Record) (after : Worker) (here : s.workers[i]? = some w)
      (writes : Writes cfg w r after) (room : s.pipe.length + r.size ≤ cfg.pipeBytes) :
    WorkerMove cfg s i { s with
      pipe := s.pipe ++ r.encode cfg.endian, sent := s.sent ++ [r]
      workers := s.workers.set i after }
  | publish (c : Capacity) (j : Job) (p : Producer) (weak : Bool) (m : Memory) (p' : Producer)
      (claim : Option Record) (here : s.workers[i]? = some (.publish j p))
      (ring : cfg.ring = some c)
      (moved : p.step cfg.endian c s.mem s.log.length weak = some (m, p', claim)) :
    WorkerMove cfg s i { s with
      mem := m, log := s.log ++ claim.toList, workers := s.workers.set i (State.published j p') }
  | load (here : s.workers[i]? = some .load) :
    WorkerMove cfg s i { s with
      workers := s.workers.set i (if s.waiting then .swap else .idle) }
  | swap (here : s.workers[i]? = some .swap) :
    WorkerMove cfg s i { s with
      waiting := false, taken := s.taken || s.waiting
      workers := s.workers.set i (if s.waiting then .token else .idle) }
  | full (j : Job) (here : s.workers[i]? = some (.full j)) :
    WorkerMove cfg s i { s with
      results := s.insertResult j (j.demoted cfg), workers := s.workers.set i (.spill j) }
  | note (here : s.workers[i]? = some .note) :
    WorkerMove cfg s i { s with
      overflow := s.overflow + 1, workers := s.workers.set i .idle }

variable {cfg : Config} {s t : State} {i : Nat}

theorem workerStep_moves {weak : Bool} (went : s.workerStep cfg i weak = some t) :
    WorkerMove cfg s i t := by
  -- A write either lands or is tried again.
  have lands : ∀ {w r after}, s.workers[i]? = some w → Writes cfg w r after →
      WorkerMove cfg s i (s.writeCompletion cfg i r after) := by
    intro w r after here writes
    unfold State.writeCompletion
    split
    · rename_i room
      exact .write w r after here writes room
    · exact .stall
  unfold State.workerStep at went
  split at went
  · rename_i j here
    cases ring : cfg.ring with
    | none =>
      rw [ring] at went
      cases went
      exact .direct j here ring
    | some c =>
      rw [ring] at went
      cases went
      exact .begin c j here ring
  · rename_i j here
    cases went
    exact lands here (.record j)
  · rename_i j p here
    obtain ⟨c, ring, moved⟩ := Option.bind_eq_some_iff.mp went
    obtain ⟨⟨m, p', claim⟩, stepped, rfl⟩ := Option.map_eq_some_iff.mp moved
    exact .publish c j p weak m p' claim here ring stepped
  · rename_i here
    cases went
    exact .load here
  · rename_i here
    cases went
    exact .swap here
  · rename_i here
    cases went
    exact lands here .token
  · rename_i j here
    cases went
    exact .full j here
  · rename_i j here
    cases went
    exact lands here (.spill j)
  · rename_i here
    cases went
    exact .note here
  · cases went

/-- The reader's steps that only load, or only look at its own state: from where to where. -/
inductive Turn (cfg : Config) (s : State) : ReaderPc → ReaderPc → Prop
  | ready (c : Capacity) (ring : cfg.ring = some c)
      (yes : ringReady c s.mem s.reader.head = true) : Turn cfg s .next (.pop .word)
  | unready (c : Capacity) (ring : cfg.ring = some c)
      (no : ringReady c s.mem s.reader.head = false) : Turn cfg s .next .parse
  | none (empty : parseBuffered cfg.endian s.reader.held = .none) : Turn cfg s .parse .pending
  | corrupt (n : Word) (bad : parseBuffered cfg.endian s.reader.held = .corrupt n) :
    Turn cfg s .parse .failed
  | drain : Turn cfg s .pending (.drain (s.reader.start + s.reader.held.length))
  | wait (none : s.reader.tokensOwed = 0) : Turn cfg s .pending s.waitRing
  | arrived (i : Nat) : Turn cfg s (.poll i) .next
  | quiet (i : Nat) : Turn cfg s (.poll i) (.pollOverflow i)
  | spilled (i : Nat) : Turn cfg s (.pollOverflow i) .next
  | again (i : Nat) : Turn cfg s (.pollOverflow i) (.poll (i + 1))
  | spent (i : Nat) : Turn cfg s (.pollOverflow i) .announce
  | meanwhile : Turn cfg s .recheck (.retract false)
  | still (c : Capacity) (ring : cfg.ring = some c)
      (no : ringReady c s.mem s.reader.head = false) : Turn cfg s .recheck .recheckOverflow
  | overflowed : Turn cfg s .recheckOverflow (.retract false)
  | park : Turn cfg s .recheckOverflow .park
  | pipeNone (empty : parseBuffered cfg.endian s.reader.held = .none) :
    Turn cfg s (.parsePipe false) .fill
  | pipeFailed : Turn cfg s (.parsePipe true) .failed
  | pipeCorrupt (failed : Bool) (n : Word)
      (bad : parseBuffered cfg.endian s.reader.held = .corrupt n) :
    Turn cfg s (.parsePipe failed) .failed

/-- A `fillMode` call: from where, how many bytes it got, and where to. -/
inductive Fill (s : State) : ReaderPc → Nat → ReaderPc → Prop
  | noticed (before n : Nat) (differs : s.reader.held.length + n ≠ before) :
    Fill s (.drain before) n .next
  | missed (before n : Nat) (same : s.reader.held.length + n = before) :
    Fill s (.drain before) n s.waitRing
  | drainEof (before : Nat) (full : bufBytes ≤ s.reader.held.length) :
    Fill s (.drain before) 0 .failed
  | parked (n : Nat) : Fill s .park n (.retract false)
  | parkEof (full : bufBytes ≤ s.reader.held.length) : Fill s .park 0 (.retract true)
  | piped (n : Nat) : Fill s .fill n (.parsePipe false)
  | pipeEof (full : bufBytes ≤ s.reader.held.length) : Fill s .fill 0 (.parsePipe true)

/-- What one step of the reader can do. -/
inductive ReaderMove (cfg : Config) (s : State) : State → Prop
  | turn (pc : ReaderPc) (turn : Turn cfg s s.reader.pc pc) : ReaderMove cfg s (s.goto pc)
  | read (c : Capacity) (k k' : Consumer) (m : Memory) (head : Word) (here : s.reader.pc = .pop k)
      (ring : cfg.ring = some c)
      (moved : k.step cfg.endian c s.mem s.reader.head = some (m, head, k', none)) :
    ReaderMove cfg s { s with
      mem := m, reader := { s.reader with head := head, pc := .pop k' } }
  | pop (c : Capacity) (k k' : Consumer) (m : Memory) (head : Word) (p : Popped)
      (here : s.reader.pc = .pop k) (ring : cfg.ring = some c)
      (moved : k.step cfg.endian c s.mem s.reader.head = some (m, head, k', some p)) :
    ReaderMove cfg s { s with
      mem := m, popped := s.popped ++ [p], returned := s.returned ++ [p]
      reader := { s.reader with head := head, stamped := true, pc := .next } }
  | token (size : Nat) (here : s.reader.pc = .parse)
      (found : parseBuffered cfg.endian s.reader.held = .whole 0 none size) :
    ReaderMove cfg s { s.consume size with
      reader := { (s.consume size).reader with
        tokensOwed := s.reader.tokensOwed - 1, pc := .next } }
  | record (p : Popped) (size : Nat) (seen : Word) (pc : ReaderPc)
      (here : s.reader.pc = .parse ∧ pc = .next ∧ ¬ (p.ticket = 0 ∧ p.data = none) ∨
        ∃ failed, s.reader.pc = .parsePipe failed ∧ pc = .parsePipe false)
      (found : parseBuffered cfg.endian s.reader.held = .whole p.ticket p.data size) :
    ReaderMove cfg s (State.deliver { s.consume size with
      reader := { (s.consume size).reader with overflowSeen := seen } } pc p)
  | fill (n : Nat) (pc : ReaderPc)
      (fits : s.reader.held.length + n ≤ max bufBytes s.reader.held.length)
      (some_bytes : n ≤ s.pipe.length) (fill : Fill s s.reader.pc n pc) :
    ReaderMove cfg s (s.filled n pc)
  | announce (here : s.reader.pc = .announce) :
    ReaderMove cfg s { s.goto .recheck with waiting := true, taken := false }
  | retract (failed : Bool) (here : s.reader.pc = .retract failed) :
    ReaderMove cfg s { s with
      waiting := false, taken := false
      reader := { s.reader with
        tokensOwed := s.reader.tokensOwed + if s.waiting then 0 else 1
        pc := if failed then .failed else .next } }

theorem readOnce_bytes {now : Bool} {n m : Nat} (got : s.readOnce now n = .bytes m) :
    m ≤ s.pipe.length ∧ s.reader.held.length + m ≤ bufBytes := by
  unfold State.readOnce at got
  split at got
  · cases got
  · split at got
    · split at got
      · cases got
        omega
      · cases got
    · rename_i full unread
      have some_byte := List.length_pos_iff.mpr unread
      cases got
      omega

theorem readOnce_eof {now : Bool} {n : Nat} (ended : s.readOnce now n = .eof) :
    bufBytes ≤ s.reader.held.length := by
  unfold State.readOnce at ended
  split at ended
  · assumption
  · split at ended
    · split at ended <;> cases ended
    · cases ended

/-- The three ways a `fillMode` call ends. -/
theorem fill_moves {now : Bool} {n : Nat} (ended : ReaderPc) (got : Nat → ReaderPc)
    (went : (match s.readOnce now n with
      | .blocked => none
      | .eof => some (s.filled 0 ended)
      | .bytes m => some (s.filled m (got m))) = some t)
    (eof : bufBytes ≤ s.reader.held.length → Fill s s.reader.pc 0 ended)
    (bytes : ∀ m, Fill s s.reader.pc m (got m)) : ReaderMove cfg s t := by
  split at went
  · cases went
  · rename_i outcome
    cases went
    exact .fill 0 ended (by omega) (Nat.zero_le _) (eof (readOnce_eof outcome))
  · rename_i m outcome
    cases went
    obtain ⟨few, room⟩ := readOnce_bytes outcome
    exact .fill m (got m) (by omega) few (bytes m)

theorem readerStep_moves {c : Capacity} (ring : cfg.ring = some c) {n : Nat} {spent : Bool}
    (went : s.readerStep cfg c n spent = some t) : ReaderMove cfg s t := by
  unfold State.readerStep at went
  cases place : s.reader.pc with
  | next =>
    simp only [place, Option.some.injEq] at went
    subst went
    split
    · rename_i yes
      exact .turn _ (place ▸ .ready c ring yes)
    · rename_i no
      exact .turn _ (place ▸ .unready c ring (Bool.eq_false_iff.mpr no))
  | pop k =>
    simp only [place] at went
    obtain ⟨⟨m, head, k', out⟩, moved, rfl⟩ := Option.map_eq_some_iff.mp went
    cases out with
    | none =>
      simp only [Option.toList_none, List.append_nil]
      exact .read c k k' m head place ring moved
    | some p => exact .pop c k k' m head p place ring moved
  | parse =>
    simp only [place] at went
    split at went
    · rename_i empty
      cases went
      exact .turn _ (place ▸ .none empty)
    · rename_i n bad
      cases went
      exact .turn _ (place ▸ .corrupt n bad)
    · rename_i ticket data size found
      split at went
      · rename_i wake
        cases went
        exact .token size place (by rw [found, wake.1, wake.2])
      · rename_i completion
        cases went
        exact .record ⟨ticket, data⟩ size _ .next (.inl ⟨place, rfl, completion⟩) found
  | pending =>
    simp only [place] at went
    split at went
    · cases went
      exact .turn _ (place ▸ .drain)
    · rename_i quiet
      cases went
      exact .turn _ (place ▸ .wait (by omega))
  | drain before =>
    simp only [place] at went
    apply fill_moves .failed _ went
    · intro full
      exact place ▸ .drainEof before full
    · intro m
      rw [place]
      split
      · rename_i same
        exact .missed before m same
      · rename_i differs
        exact .noticed before m differs
  | poll i =>
    simp only [place, Option.some.injEq] at went
    subst went
    split
    · exact .turn _ (place ▸ .arrived i)
    · exact .turn _ (place ▸ .quiet i)
  | pollOverflow i =>
    simp only [place] at went
    split at went
    · cases went
      exact .turn _ (place ▸ .spilled i)
    · cases went
      split
      · exact .turn _ (place ▸ .spent i)
      · exact .turn _ (place ▸ .again i)
  | announce =>
    simp only [place, Option.some.injEq] at went
    subst went
    exact .announce place
  | recheck =>
    simp only [place, Option.some.injEq] at went
    subst went
    split
    · exact .turn _ (place ▸ .meanwhile)
    · rename_i no
      exact .turn _ (place ▸ .still c ring (Bool.eq_false_iff.mpr no))
  | recheckOverflow =>
    simp only [place, Option.some.injEq] at went
    subst went
    split
    · exact .turn _ (place ▸ .overflowed)
    · exact .turn _ (place ▸ .park)
  | park =>
    simp only [place] at went
    apply fill_moves (.retract true) (fun _ => .retract false) went
    · intro full
      exact place ▸ .parkEof full
    · intro m
      exact place ▸ .parked m
  | retract failed =>
    simp only [place, Option.some.injEq] at went
    have move : ReaderMove cfg s _ := .retract failed place
    subst went
    cases flag : s.waiting with
    | true => simpa [flag, State.goto] using move
    | false => simpa [flag, State.goto] using move
  | parsePipe failed => simp [place] at went
  | fill => simp [place] at went
  | failed => simp [place] at went

theorem pipeReaderStep_moves {n : Nat} (went : s.pipeReaderStep cfg n = some t) :
    ReaderMove cfg s t := by
  unfold State.pipeReaderStep at went
  split at went
  · rename_i failed place
    split at went
    · rename_i empty
      cases went
      cases failed with
      | true => exact .turn _ (place ▸ .pipeFailed)
      | false => exact .turn _ (place ▸ .pipeNone empty)
    · rename_i n bad
      cases went
      exact .turn _ (place ▸ .pipeCorrupt failed n bad)
    · rename_i ticket data size found
      cases went
      exact .record ⟨ticket, data⟩ size s.reader.overflowSeen _ (.inr ⟨failed, place, rfl⟩) found
  · rename_i place
    apply fill_moves (.parsePipe true) (fun _ => .parsePipe false) went
    · intro full
      exact place ▸ .pipeEof full
    · intro m
      exact place ▸ .piped m
  · cases went

/-- What one step of the whole can do. -/
inductive Move (cfg : Config) (s : State) : State → Prop
  | spawn : Move cfg s { s with workers := s.workers ++ [.idle] }
  | complete (i : Nat) (j : Job) (here : s.workers[i]? = some .idle)
      (new : ∀ k ∈ s.begun, k.ticket ≠ j.ticket) :
    Move cfg s { s with workers := s.workers.set i (.start j), begun := s.begun ++ [j] }
  | worker (i : Nat) {t : State} (move : WorkerMove cfg s i t) : Move cfg s t
  | reader {t : State} (move : ReaderMove cfg s t) : Move cfg s t
  | take (k : Word) (r : JobResult) (found : s.results.lookup k = some r) :
    Move cfg s { s with results := s.results.erase k, takes := s.takes ++ [k] }
  | missing : Move cfg s s

theorem step_moves {a : Act} (went : s.step cfg a = some t) : Move cfg s t := by
  cases a with
  | spawn =>
    cases went
    exact .spawn
  | complete i j =>
    simp only [State.step] at went
    split at went
    · rename_i allowed
      cases went
      exact .complete i j allowed.1 allowed.2
    · cases went
  | worker i weak => exact .worker i (workerStep_moves went)
  | reader n spent =>
    simp only [State.step] at went
    split at went
    · rename_i c ring
      exact .reader (readerStep_moves ring went)
    · exact .reader (pipeReaderStep_moves went)
  | take k =>
    simp only [State.step] at went
    split at went
    · rename_i r found
      cases went
      exact .take k r found
    · cases went
      exact .missing

/-- What the reader leaves alone. -/
structure ReaderFrame (s t : State) : Prop where
  workers : t.workers = s.workers
  overflow : t.overflow = s.overflow
  results : t.results = s.results
  begun : t.begun = s.begun
  log : t.log = s.log
  sent : t.sent = s.sent
  takes : t.takes = s.takes

theorem ReaderMove.frame (move : ReaderMove cfg s t) : ReaderFrame s t := by
  cases move <;> exact ⟨rfl, rfl, rfl, rfl, rfl, rfl, rfl⟩

end Gusset.Completion
