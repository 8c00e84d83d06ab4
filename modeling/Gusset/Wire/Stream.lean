import Gusset.Wire.Codec

/-! A stream of records, cut anywhere: what the bytes read so far parse to. -/
namespace Gusset.Wire
open Foundation

variable (e : Endian)

/-- The bytes of records written one after the other. -/
def stream (l : List Record) : List Byte := l.flatMap (Record.encode e)

@[simp] theorem stream_nil : stream e [] = [] := rfl

@[simp] theorem stream_cons (r : Record) (l : List Record) :
    stream e (r :: l) = r.encode e ++ stream e l := by
  simp [stream]

theorem stream_append (l m : List Record) : stream e (l ++ m) = stream e l ++ stream e m := by
  simp [stream]

theorem length_stream_le {l : List Record} {b : Nat} (sizes : ∀ r ∈ l, r.size ≤ b) :
    (stream e l).length ≤ l.length * b := by
  induction l with
  | nil => exact Nat.zero_le _
  | cons r rest ih =>
    have first := sizes r List.mem_cons_self
    have others := ih fun r member => sizes r (List.mem_cons_of_mem _ member)
    rw [stream_cons, List.length_append, r.length_encode, List.length_cons, Nat.succ_mul]
    omega

/-- How many records at the front have all their bytes among the first `n`. -/
def whole (n : Nat) : List Record → Nat
  | [] => 0
  | r :: rest => if r.size ≤ n then whole (n - r.size) rest + 1 else 0

variable {e} {held pipe : List Byte} {r : Record} {rest : List Record}

/-- With the whole of a record read, the reader parses that record. -/
theorem parse_whole (bytes : held ++ pipe = stream e (r :: rest)) (all : r.size ≤ held.length) :
    parseBuffered e held = .whole r.ticket r.data r.size ∧
      held.drop r.size ++ pipe = stream e rest := by
  rw [stream_cons] at bytes
  have length := r.length_encode e
  have front : held.take r.size = r.encode e := by
    have cut := congrArg (List.take r.size) bytes
    rwa [List.take_append_of_le_length all, List.take_left' length] at cut
  have back : held.drop r.size ++ pipe = stream e rest := by
    have cut := congrArg (List.drop r.size) bytes
    rwa [List.drop_append_of_le_length all, List.drop_left' length] at cut
  refine ⟨?_, back⟩
  rw [← List.take_append_drop r.size held, front]
  exact r.parse_encode e _

/-- With less than a record read, it parses nothing. -/
theorem parse_part (bytes : held ++ pipe = stream e (r :: rest)) (few : held.length < r.size) :
    parseBuffered e held = .none := by
  rw [stream_cons] at bytes
  apply r.parse_cut e _ few
  have cut := congrArg (List.take held.length) bytes
  rw [List.take_left' rfl, List.take_append_of_le_length (by rw [r.length_encode e]; omega)] at cut
  exact cut

/-- What a parse of the bytes read so far says about the records written. -/
theorem parse_stream {unread : List Record} (bytes : held ++ pipe = stream e unread) :
    parseBuffered e held = .none ∨ ∃ r rest, unread = r :: rest ∧
      parseBuffered e held = .whole r.ticket r.data r.size ∧
      held.drop r.size ++ pipe = stream e rest := by
  cases unread with
  | nil =>
    have empty : held = [] := (List.append_eq_nil_iff.mp bytes).1
    rw [empty]
    exact .inl rfl
  | cons r rest =>
    rcases Nat.lt_or_ge held.length r.size with few | all
    · exact .inl (parse_part bytes few)
    · exact .inr ⟨r, rest, rfl, parse_whole bytes all⟩

/-- Nothing to parse means less than one record. -/
theorem parse_none_short (none : parseBuffered e held = .none) : held.length < inlineRecordMax := by
  unfold parseBuffered at none
  unfold inlineRecordMax inlineHeaderBytes inlineResultMax at *
  split at none
  · omega
  · simp only at none
    split at none
    · cases none
    · split at none
      · omega
      · split at none
        · cases none
        · rename_i short
          split at none
          · have most := padded_mono (Nat.le_of_not_gt short)
            have top : padded 48 = 48 := rfl
            omega
          · cases none

end Gusset.Wire
