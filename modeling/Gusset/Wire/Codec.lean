import Gusset.Foundation.Words

/-! Completion records: how complete builds them and how the reader parses them. -/
namespace Gusset.Wire
open Foundation

def inlineResultMax : Nat := 48

-- The ticket word and the length word.
def inlineHeaderBytes : Nat := 16

def inlineRecordMax : Nat := inlineHeaderBytes + inlineResultMax

def inlineRecordFlag : Word := BitVec.twoPow 64 63

def padded (n : Nat) : Nat := (n + 7) / 8 * 8

def inlineRecord (e : Endian) (ticket : Word) (data : List Byte) : List Byte :=
  e.bytes (ticket ||| inlineRecordFlag) ++ (e.bytes (.ofNat 64 data.length) ++
    (data ++ List.replicate (padded data.length - data.length) 0))

/-- A record complete can build: a bare ticket, or a ticket with a small result. Tickets stay below
`2 ^ 63`, so the flag is free. -/
structure Record where
  ticket : Word
  data : Option (List Byte)
  low : ticket.toNat < 2 ^ 63
  short : ∀ d, data = some d → d.length ≤ inlineResultMax
  deriving DecidableEq

namespace Record

def encode (e : Endian) (r : Record) : List Byte :=
  match r.data with
  | none => e.bytes r.ticket
  | some d => inlineRecord e r.ticket d

/-- The words of a record, as a slot of the ring holds them. -/
def words (e : Endian) (r : Record) : List Word := e.words (r.encode e)

theorem short_none (d : List Byte) (inline : none = some d) : d.length ≤ inlineResultMax := by
  cases inline

/-- The wake token: ticket 0, which is never issued. -/
def token : Record := ⟨0, none, by decide, short_none⟩

def size (r : Record) : Nat :=
  match r.data with
  | none => 8
  | some d => inlineHeaderBytes + padded d.length

end Record

inductive Parsed
  | none
  | corrupt (length : Word)
  | whole (ticket : Word) (data : Option (List Byte)) (size : Nat)
  deriving DecidableEq, Repr

/-- One whole record at the front of the bytes read so far, if there is one. -/
def parseBuffered (e : Endian) (b : List Byte) : Parsed :=
  if b.length < 8 then .none
  else
    let w := e.word (b.take 8)
    if w &&& inlineRecordFlag = 0 then .whole w none 8
    else if b.length < inlineHeaderBytes then .none
    else
      let n := e.word ((b.drop 8).take 8)
      if inlineResultMax < n.toNat then .corrupt n
      else if b.length < inlineHeaderBytes + padded n.toNat then .none
      else .whole (w &&& ~~~inlineRecordFlag) (some ((b.drop inlineHeaderBytes).take n.toNat))
        (inlineHeaderBytes + padded n.toNat)

theorem le_padded (n : Nat) : n ≤ padded n ∧ padded n < n + 8 := by
  unfold padded
  omega

theorem padded_mono {n m : Nat} (le : n ≤ m) : padded n ≤ padded m := by
  unfold padded
  omega

theorem flag_unset {w : Word} (low : w.toNat < 2 ^ 63) : w.getLsbD 63 = false := by
  rw [BitVec.getLsbD, Nat.testBit_lt_two_pow low]

theorem and_flag {w : Word} (low : w.toNat < 2 ^ 63) : w &&& inlineRecordFlag = 0 := by
  unfold inlineRecordFlag
  rw [BitVec.and_twoPow, flag_unset low]
  simp

theorem or_flag (w : Word) : (w ||| inlineRecordFlag) &&& inlineRecordFlag ≠ 0 := by
  have set : (w ||| inlineRecordFlag).getLsbD 63 = true := by
    simp [inlineRecordFlag]
  unfold inlineRecordFlag at set ⊢
  rw [BitVec.and_twoPow, set]
  decide

theorem clear_flag {w : Word} (low : w.toNat < 2 ^ 63) :
    (w ||| inlineRecordFlag) &&& ~~~inlineRecordFlag = w := by
  apply BitVec.eq_of_getLsbD_eq
  intro i bound
  unfold inlineRecordFlag
  by_cases top : i = 63
  · subst top
    have unset := flag_unset low
    simpa using unset
  · simp [top, bound]

namespace Record

variable (e : Endian) (r : Record)

theorem length_encode : (r.encode e).length = r.size := by
  unfold encode size
  split
  · exact e.length_bytes _
  · rename_i d _
    have pad := le_padded d.length
    simp only [inlineRecord, List.length_append, Endian.length_bytes, List.length_replicate,
      inlineHeaderBytes]
    omega

theorem size_pos : 8 ≤ r.size ∧ r.size ≤ inlineRecordMax := by
  unfold size
  split
  · exact ⟨Nat.le_refl _, by decide⟩
  · rename_i d data
    have short := r.short d data
    have pad := padded_mono short
    have most : padded inlineResultMax = inlineResultMax := rfl
    simp only [inlineHeaderBytes, inlineRecordMax]
    omega

/-- The next record is parsed whole, whatever follows it. -/
theorem parse_encode (rest : List Byte) :
    parseBuffered e (r.encode e ++ rest) = .whole r.ticket r.data r.size := by
  cases data : r.data with
  | none =>
    simp only [encode, size, data, parseBuffered, List.length_append, Endian.length_bytes]
    rw [if_neg (by omega), List.take_left' (e.length_bytes _), e.word_bytes, if_pos (and_flag r.low)]
  | some d =>
    have short := r.short d data
    have pad := le_padded d.length
    have count : (BitVec.ofNat 64 d.length).toNat = d.length := by
      rw [BitVec.toNat_ofNat, Nat.mod_eq_of_lt]
      unfold inlineResultMax at short
      omega
    simp only [encode, size, data, inlineRecord, List.append_assoc]
    unfold parseBuffered
    rw [List.take_left' (e.length_bytes _), List.drop_left' (e.length_bytes _),
      List.take_left' (e.length_bytes _), e.word_bytes, e.word_bytes]
    simp only [List.length_append, Endian.length_bytes, List.length_replicate, count,
      inlineHeaderBytes]
    rw [if_neg (by omega), if_neg (or_flag _), if_neg (by omega), if_neg (by omega),
      if_neg (by omega), clear_flag r.low]
    have body : (e.bytes (r.ticket ||| inlineRecordFlag) ++ (e.bytes (.ofNat 64 d.length) ++
        (d ++ (List.replicate (padded d.length - d.length) 0 ++ rest)))).drop 16 =
        d ++ (List.replicate (padded d.length - d.length) 0 ++ rest) := by
      rw [← List.append_assoc]
      exact List.drop_left' (by simp)
    rw [body, List.take_left' rfl]

/-- A record cut short is not parsed, and not taken for a corrupt one. -/
theorem parse_cut {b : List Byte} {cut : Nat} (part : b = (r.encode e).take cut)
    (short : cut < r.size) : parseBuffered e b = .none := by
  have length : b.length = cut := by
    rw [part, List.length_take, length_encode]
    omega
  unfold parseBuffered
  by_cases few : cut < 8
  · rw [if_pos (by omega)]
  · rw [if_neg (by omega)]
    have first : b.take 8 = (r.encode e).take 8 := by
      rw [part, List.take_take, Nat.min_eq_left (by omega)]
    cases data : r.data with
    | none =>
      simp only [size, data] at short
      omega
    | some d =>
      have small := r.short d data
      have count : (BitVec.ofNat 64 d.length).toNat = d.length := by
        rw [BitVec.toNat_ofNat, Nat.mod_eq_of_lt]
        unfold inlineResultMax at small
        omega
      have head : (r.encode e).take 8 = e.bytes (r.ticket ||| inlineRecordFlag) := by
        simp only [encode, data, inlineRecord]
        exact List.take_left' (e.length_bytes _)
      simp only [first, head, e.word_bytes, if_neg (or_flag _)]
      split
      · rfl
      · rename_i enough
        have second : (b.drop 8).take 8 = e.bytes (.ofNat 64 d.length) := by
          rw [part, List.drop_take, List.take_take, Nat.min_eq_left (by
            unfold inlineHeaderBytes at enough
            omega)]
          simp only [encode, data, inlineRecord]
          rw [List.drop_left' (e.length_bytes _)]
          exact List.take_left' (e.length_bytes _)
        simp only [size, data] at short
        rw [second, e.word_bytes, count, if_neg (by omega), if_pos (by omega)]

theorem words_bare (bare : r.data = none) : r.words e = [r.ticket] := by
  have whole := e.words_append (e.bytes r.ticket) [] (e.length_bytes _)
  simp only [words, encode, bare]
  rw [List.append_nil, e.word_bytes] at whole
  exact whole

/-- The words of an inline record: ticket with the flag, length, and the result in whole words. -/
theorem words_inline {d : List Byte} (data : r.data = some d) :
    ∃ body, r.words e = (r.ticket ||| inlineRecordFlag) :: .ofNat 64 d.length :: body ∧
      body.length = padded d.length / 8 ∧ (body.flatMap e.bytes).take d.length = d := by
  have pad := le_padded d.length
  have turns : padded d.length = 8 * (padded d.length / 8) := by
    unfold padded
    omega
  obtain ⟨same, count⟩ := e.bytes_words (padded d.length / 8)
    (d ++ List.replicate (padded d.length - d.length) 0) (by
      rw [List.length_append, List.length_replicate]
      omega)
  refine ⟨_, ?_, count, ?_⟩
  · simp only [words, encode, data, inlineRecord]
    rw [e.words_append _ _ (e.length_bytes _), e.words_append _ _ (e.length_bytes _),
      e.word_bytes, e.word_bytes]
  · rw [same, List.take_left' rfl]

end Record

end Gusset.Wire
