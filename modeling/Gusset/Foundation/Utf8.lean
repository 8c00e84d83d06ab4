import Mathlib

/-! Texts as their UTF-8 bytes, and where such bytes may be cut. -/
namespace Gusset.Foundation.Utf8

def encode (text : List Char) : List UInt8 := text.flatMap String.utf8EncodeChar

def Valid (bytes : List UInt8) : Prop := ∃ text, bytes = encode text

-- A continuation byte is 10xxxxxx.
def continues (b : UInt8) : Bool := b &&& 0xC0 == 0x80

def newline : UInt8 := 10

theorem encode_append (a b : List Char) : encode (a ++ b) = encode a ++ encode b :=
  List.flatMap_append

theorem valid_nil : Valid [] := ⟨[], rfl⟩

theorem Valid.append {a b : List UInt8} (first : Valid a) (second : Valid b) : Valid (a ++ b) := by
  obtain ⟨x, rfl⟩ := first
  obtain ⟨y, rfl⟩ := second
  exact ⟨x ++ y, (encode_append x y).symm⟩

theorem valid_newline : Valid [newline] := ⟨['\n'], rfl⟩

theorem forall_byte {P : UInt8 → Prop} (all : ∀ n < 256, P (.ofNat n)) (b : UInt8) : P b := by
  have here := all b.toNat b.toNat_lt
  rwa [UInt8.ofNat_toNat] at here

theorem continues_tail : ∀ b : UInt8, continues (b &&& 0x3f ||| 0x80) = true :=
  forall_byte (by decide +kernel)

theorem leads_one : ∀ b : UInt8, b.toNat < 128 → continues b = false :=
  forall_byte (by decide +kernel)

theorem leads_two : ∀ b : UInt8, continues (b &&& 0x1f ||| 0xc0) = false ∧
    b &&& 0x1f ||| 0xc0 ≠ newline :=
  forall_byte (by decide +kernel)

theorem leads_three : ∀ b : UInt8, continues (b &&& 0x0f ||| 0xe0) = false ∧
    b &&& 0x0f ||| 0xe0 ≠ newline :=
  forall_byte (by decide +kernel)

theorem leads_four : ∀ b : UInt8, continues (b &&& 0x07 ||| 0xf0) = false ∧
    b &&& 0x07 ||| 0xf0 ≠ newline :=
  forall_byte (by decide +kernel)

/-- The bytes of one character: a leading byte, then up to three that continue it. A newline is a
character of its own. -/
structure Shape (lead : UInt8) (rest : List UInt8) : Prop where
  leads : continues lead = false
  tails : ∀ b ∈ rest, continues b = true
  few : rest.length ≤ 3
  alone : lead = newline → rest = []

theorem encodeChar_shape (c : Char) :
    ∃ lead rest, String.utf8EncodeChar c = lead :: rest ∧ Shape lead rest := by
  rcases c.utf8Size_eq with one | two | three | four
  · refine ⟨_, [], String.utf8EncodeChar_eq_singleton one, ?_, nofun, Nat.zero_le 3, fun _ => rfl⟩
    have small : c.val.toNat ≤ 127 := UInt32.le_iff_toNat_le.mp (Char.utf8Size_eq_one_iff.mp one)
    apply leads_one
    rw [UInt32.toNat_toUInt8]
    omega
  · refine ⟨_, _, String.utf8EncodeChar_eq_cons_cons two, (leads_two _).1, ?_, by simp,
      fun lead => absurd lead (leads_two _).2⟩
    simp [continues_tail]
  · refine ⟨_, _, String.utf8EncodeChar_eq_cons_cons_cons three, (leads_three _).1, ?_, by simp,
      fun lead => absurd lead (leads_three _).2⟩
    simp [continues_tail]
  · refine ⟨_, _, String.utf8EncodeChar_eq_cons_cons_cons_cons four, (leads_four _).1, ?_, by simp,
      fun lead => absurd lead (leads_four _).2⟩
    simp [continues_tail]

theorem encode_cons (c : Char) (text : List Char) :
    ∃ lead rest, encode (c :: text) = (lead :: rest) ++ encode text ∧ Shape lead rest ∧
      Valid (lead :: rest) := by
  obtain ⟨lead, rest, bytes, shape⟩ := encodeChar_shape c
  refine ⟨lead, rest, ?_, shape, [c], ?_⟩
  · rw [← bytes]
    rfl
  · simp [encode, bytes]

/-- No character is split in front of byte `i`. -/
def Boundary (bytes : List UInt8) (i : Nat) : Prop := ∀ b, bytes[i]? = some b → continues b = false

theorem boundary_length (bytes : List UInt8) : Boundary bytes bytes.length := by
  intro b here
  simp at here

theorem boundary_zero (text : List Char) : Boundary (encode text) 0 := by
  intro b here
  cases text with
  | nil => cases here
  | cons c text =>
    obtain ⟨lead, rest, bytes, shape, _⟩ := encode_cons c text
    rw [bytes] at here
    have first : lead = b := by simpa using here
    exact first ▸ shape.leads

/-- Past the first character a boundary is one of the rest. -/
theorem boundary_append {a b : List UInt8} {i : Nat} (past : a.length ≤ i) :
    Boundary (a ++ b) i ↔ Boundary b (i - a.length) := by
  unfold Boundary
  rw [List.getElem?_append_right past]

theorem Valid.cut {bytes : List UInt8} {i : Nat} (valid : Valid bytes) (whole : Boundary bytes i) :
    Valid (bytes.take i) ∧ Valid (bytes.drop i) := by
  obtain ⟨text, rfl⟩ := valid
  induction text generalizing i with
  | nil =>
    simp only [encode, List.flatMap_nil, List.take_nil, List.drop_nil]
    exact ⟨valid_nil, valid_nil⟩
  | cons c text ih =>
    obtain ⟨lead, rest, bytes, shape, first⟩ := encode_cons c text
    rw [bytes] at whole ⊢
    by_cases inside : i < (lead :: rest).length
    · cases i with
      | zero => exact ⟨valid_nil, first.append ⟨text, rfl⟩⟩
      | succ j =>
        have below : j < rest.length := by simpa using inside
        have here : ((lead :: rest) ++ encode text)[j + 1]? = some rest[j] := by
          rw [List.getElem?_append_left inside, List.getElem?_cons_succ,
            List.getElem?_eq_getElem below]
        have led := whole _ here
        rw [shape.tails _ (List.getElem_mem below)] at led
        cases led
    · have past : (lead :: rest).length ≤ i := by omega
      have later := ih ((boundary_append past).mp whole)
      rw [List.take_append, List.drop_append, List.take_of_length_le past,
        List.drop_of_length_le past]
      exact ⟨first.append later.1, later.2⟩

/-- Right behind a newline. -/
theorem Valid.boundary_newline {bytes : List UInt8} {i : Nat} (valid : Valid bytes)
    (here : bytes[i]? = some newline) : Boundary bytes (i + 1) := by
  obtain ⟨text, rfl⟩ := valid
  induction text generalizing i with
  | nil => cases here
  | cons c text ih =>
    obtain ⟨lead, rest, bytes, shape, _⟩ := encode_cons c text
    rw [bytes] at here ⊢
    by_cases inside : i < (lead :: rest).length
    · rw [List.getElem?_append_left inside] at here
      cases i with
      | zero =>
        have same : lead = newline := by simpa using here
        rw [shape.alone same, boundary_append (by simp)]
        exact boundary_zero text
      | succ j =>
        rw [List.getElem?_cons_succ] at here
        have led := shape.tails _ (List.mem_of_getElem? here)
        cases led
    · have past : (lead :: rest).length ≤ i := by omega
      rw [List.getElem?_append_right past] at here
      rw [boundary_append (by omega),
        show i + 1 - (lead :: rest).length = i - (lead :: rest).length + 1 by omega]
      exact ih here

/-- A character ends within the first four bytes. -/
theorem Valid.boundary_early {bytes : List UInt8} (valid : Valid bytes) (some_one : bytes ≠ []) :
    ∃ i, 0 < i ∧ i ≤ 4 ∧ Boundary bytes i := by
  obtain ⟨text, rfl⟩ := valid
  cases text with
  | nil => exact absurd rfl some_one
  | cons c text =>
    obtain ⟨lead, rest, bytes, shape, _⟩ := encode_cons c text
    rw [bytes]
    have few := shape.few
    refine ⟨(lead :: rest).length, by simp, by rw [List.length_cons]; omega, ?_⟩
    rw [boundary_append (Nat.le_refl _), Nat.sub_self]
    exact boundary_zero text

def decodeRune (b : List UInt8) : Option Char := b.toByteArray.utf8DecodeChar? 0

-- U+FFFD.
def replacement : List UInt8 := [0xEF, 0xBF, 0xBD]

/-- A text made valid: each byte that starts no character becomes a replacement character. -/
def coerce : List UInt8 → List UInt8
  | [] => []
  | lead :: rest =>
    match decodeRune (lead :: rest) with
    | some c => String.utf8EncodeChar c ++ coerce (rest.drop (c.utf8Size - 1))
    | none => replacement ++ coerce rest
termination_by b => b.length
decreasing_by all_goals (simp only [List.length_cons, List.length_drop]; omega)

theorem decodeRune_encode (c : Char) (rest : List UInt8) :
    decodeRune (String.utf8EncodeChar c ++ rest) = some c := by
  unfold decodeRune
  rw [List.toByteArray_append]
  exact ByteArray.utf8DecodeChar?_utf8EncodeChar_append

theorem decodeRune_some {b : List UInt8} {c : Char} (decoded : decodeRune b = some c) :
    b = String.utf8EncodeChar c ++ b.drop c.utf8Size := by
  obtain ⟨tail, whole⟩ := ByteArray.exists_of_utf8DecodeChar?_eq_some decoded
  have front : b = String.utf8EncodeChar c ++ tail.data.toList := by
    apply List.toByteArray_inj.mp
    rw [List.toByteArray_append, whole]
    congr 1
    apply ByteArray.ext
    simp
  rw [front, List.drop_left' (String.length_utf8EncodeChar c)]

theorem coerce_encode (c : Char) (rest : List UInt8) :
    coerce (String.utf8EncodeChar c ++ rest) = String.utf8EncodeChar c ++ coerce rest := by
  have decoded := decodeRune_encode c rest
  have length := String.length_utf8EncodeChar c
  obtain ⟨lead, tail, bytes, _⟩ := encodeChar_shape c
  have after : (tail ++ rest).drop (c.utf8Size - 1) = rest := by
    apply List.drop_left'
    rw [← length, bytes, List.length_cons]
    omega
  rw [bytes, List.cons_append] at decoded ⊢
  rw [coerce, decoded]
  simp only [after, bytes, List.cons_append]

/-- A valid text is kept as it is. -/
theorem coerce_valid {b : List UInt8} (valid : Valid b) : coerce b = b := by
  obtain ⟨text, rfl⟩ := valid
  induction text with
  | nil => rw [encode, List.flatMap_nil, coerce]
  | cons c text ih =>
    have front : encode (c :: text) = String.utf8EncodeChar c ++ encode text := by simp [encode]
    rw [front, coerce_encode, ih]

/-- Any other text carries a replacement character afterwards. -/
theorem coerce_invalid (b : List UInt8) (invalid : ¬ Valid b) : 0xEF ∈ coerce b := by
  induction b using coerce.induct with
  | case1 => exact absurd valid_nil invalid
  | case2 lead rest c decoded ih =>
    rw [coerce, decoded]
    apply List.mem_append_right
    apply ih
    intro valid
    have whole := decodeRune_some decoded
    have size : (lead :: rest).drop c.utf8Size = rest.drop (c.utf8Size - 1) := by
      obtain ⟨n, size⟩ := Nat.exists_eq_add_of_lt c.utf8Size_pos
      rw [size]
      simp
    rw [size] at whole
    rw [whole] at invalid
    exact invalid (Valid.append ⟨[c], by simp [encode]⟩ valid)
  | case3 lead rest decoded ih =>
    rw [coerce, decoded]
    exact List.mem_append_left _ List.mem_cons_self

/-- A text of characters below U+F000 comes only from itself. -/
theorem coerce_eq_iff {b target : List UInt8} (valid : Valid target) (plain : 0xEF ∉ target) :
    coerce b = target ↔ b = target := by
  constructor
  · intro same
    by_cases fine : Valid b
    · rw [← same, coerce_valid fine]
    · exact absurd (same ▸ coerce_invalid b fine) plain
  · rintro rfl
    exact coerce_valid valid

end Gusset.Foundation.Utf8
