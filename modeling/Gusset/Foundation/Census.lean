import Mathlib

/-! Counting over a population of threads. Each thread contributes a number that depends
only on where it stands; a step moves one thread, so every count changes by the
difference of two contributions and nothing else has to be inspected. -/
namespace Gusset.Foundation

variable {α : Type u}

/-- The sum of the contributions of all members. -/
def census (f : α → Nat) (l : List α) : Nat := (l.map f).sum

@[simp] theorem census_nil (f : α → Nat) : census f [] = 0 := rfl

@[simp] theorem census_cons (f : α → Nat) (a : α) (l : List α) :
    census f (a :: l) = f a + census f l := by
  simp [census]

theorem census_append (f : α → Nat) (l m : List α) :
    census f (l ++ m) = census f l + census f m := by
  simp [census]

@[simp] theorem census_concat (f : α → Nat) (l : List α) (a : α) :
    census f (l ++ [a]) = census f l + f a := by
  simp [census_append]

theorem census_map {β : Type v} (f : α → Nat) (g : β → α) (l : List β) :
    census f (l.map g) = census (fun b => f (g b)) l := by
  simp [census, Function.comp_def]

theorem census_add (f g : α → Nat) (l : List α) :
    census (fun a => f a + g a) l = census f l + census g l := by
  induction l with
  | nil => rfl
  | cons x l ih =>
    simp only [census_cons, ih]
    omega

/-- Moving one member changes the count by the difference of its two contributions.
Stated without subtraction so that it can be used in either direction. -/
theorem census_set (f : α → Nat) {l : List α} {i : Nat} {a : α} (member : l[i]? = some a)
    (b : α) : census f (l.set i b) + f a = census f l + f b := by
  induction l generalizing i with
  | nil => simp at member
  | cons x l ih =>
    cases i with
    | zero =>
      have same : x = a := by simpa using member
      subst same
      simp only [List.set_cons_zero, census_cons]
      omega
    | succ i =>
      have rest := ih (by simpa using member)
      simp only [List.set_cons_succ, census_cons]
      omega

/-- A move that keeps the contribution keeps the count. -/
theorem census_set_same (f : α → Nat) {l : List α} {i : Nat} {a b : α}
    (member : l[i]? = some a) (same : f b = f a) : census f (l.set i b) = census f l := by
  have h := census_set f member b
  omega

theorem le_census (f : α → Nat) {l : List α} {i : Nat} {a : α} (member : l[i]? = some a) :
    f a ≤ census f l := by
  induction l generalizing i with
  | nil => simp at member
  | cons x l ih =>
    cases i with
    | zero =>
      have same : x = a := by simpa using member
      subst same
      simp
    | succ i =>
      have rest := ih (by simpa using member)
      simp only [census_cons]
      omega

theorem le_census_of_mem (f : α → Nat) {l : List α} {a : α} (member : a ∈ l) :
    f a ≤ census f l := by
  obtain ⟨i, hi⟩ := List.mem_iff_getElem?.mp member
  exact le_census f hi

theorem census_le (f g : α → Nat) {l : List α} (below : ∀ a ∈ l, f a ≤ g a) :
    census f l ≤ census g l := by
  induction l with
  | nil => simp
  | cons x l ih =>
    have head := below x List.mem_cons_self
    have tail := ih fun a ha => below a (List.mem_cons_of_mem x ha)
    simp only [census_cons]
    omega

theorem census_eq_zero (f : α → Nat) {l : List α} (empty : ∀ a ∈ l, f a = 0) :
    census f l = 0 := by
  have h := census_le f (fun _ => 0) fun a ha => Nat.le_of_eq (empty a ha)
  have zero : census (fun _ : α => 0) l = 0 := by simp [census]
  omega

theorem exists_of_census_pos (f : α → Nat) {l : List α} (positive : 0 < census f l) :
    ∃ (i : Nat) (a : α), l[i]? = some a ∧ 0 < f a := by
  induction l with
  | nil => simp at positive
  | cons x l ih =>
    by_cases here : 0 < f x
    · exact ⟨0, x, rfl, here⟩
    · simp only [census_cons] at positive
      obtain ⟨i, a, hi, ha⟩ := ih (by omega)
      exact ⟨i + 1, a, by simpa using hi, ha⟩

/-- Two different members count together. -/
theorem add_le_census (f : α → Nat) {l : List α} {i j : Nat} {a b : α} (hi : l[i]? = some a)
    (hj : l[j]? = some b) (differ : i ≠ j) : f a + f b ≤ census f l := by
  induction l generalizing i j with
  | nil => simp at hi
  | cons x l ih =>
    simp only [census_cons]
    cases i with
    | zero =>
      cases j with
      | zero => exact absurd rfl differ
      | succ j =>
        have same : x = a := by simpa using hi
        have rest : f b ≤ census f l := le_census f (by simpa using hj)
        rw [same]
        omega
    | succ i =>
      cases j with
      | zero =>
        have same : x = b := by simpa using hj
        have rest : f a ≤ census f l := le_census f (by simpa using hi)
        rw [same]
        omega
      | succ j =>
        have both := ih (i := i) (j := j) (by simpa using hi) (by simpa using hj) (by omega)
        omega

/-- Where at most one unit is held in total, two members holding one are the same member. -/
theorem index_unique (f : α → Nat) {l : List α} {i j : Nat} {a b : α} (one : census f l ≤ 1)
    (hi : l[i]? = some a) (hj : l[j]? = some b) (ha : 0 < f a) (hb : 0 < f b) : i = j := by
  by_contra differ
  have both := add_le_census f hi hj differ
  omega

theorem length_filter_range (f : α → Bool) (l : List α) :
    ((List.range l.length).filter fun i => (l[i]?.map f).getD false).length =
      census (fun a => (f a).toNat) l := by
  induction l using List.reverseRecOn with
  | nil => rfl
  | append_singleton l a ih =>
    have front : ((List.range l.length).filter fun i => ((l ++ [a])[i]?.map f).getD false) =
        (List.range l.length).filter fun i => (l[i]?.map f).getD false := by
      apply List.filter_congr
      intro i below
      rw [List.getElem?_append_left (List.mem_range.mp below)]
    rw [List.length_append, List.length_singleton, List.range_succ, List.filter_append,
      List.length_append, front, ih, census_concat]
    cases yes : f a <;> simp [yes]

/-- Different members that all count for one are no more than the count. -/
theorem length_le_census (f : α → Bool) {l : List α} {ids : List Nat} (different : ids.Nodup)
    (each : ∀ i ∈ ids, (l[i]?.map f).getD false = true) :
    ids.length ≤ census (fun a => (f a).toNat) l := by
  rw [← length_filter_range]
  apply (different.subperm _).length_le
  intro i member
  apply List.mem_filter.mpr
  refine ⟨List.mem_range.mpr ?_, each i member⟩
  by_contra outside
  have none := each i member
  rw [List.getElem?_eq_none (Nat.le_of_not_lt outside)] at none
  cases none

/-- A move that a view does not see leaves the view of the whole population. -/
theorem map_set_same {β : Type v} (f : α → β) {l : List α} {i : Nat} {a b : α}
    (member : l[i]? = some a) (same : f b = f a) : (l.set i b).map f = l.map f := by
  induction l generalizing i with
  | nil => simp at member
  | cons x l ih =>
    cases i with
    | zero =>
      have here : x = a := by simpa using member
      simp [here, same]
    | succ i =>
      have rest := ih (i := i) (by simpa using member)
      rw [List.set_cons_succ, List.map_cons, rest, List.map_cons]

theorem getElem?_set_cases {l : List α} {i j : Nat} {a b : α}
    (found : (l.set i b)[j]? = some a) : (j = i ∧ a = b) ∨ (j ≠ i ∧ l[j]? = some a) := by
  by_cases same : j = i
  · subst same
    left
    rw [List.getElem?_set] at found
    split at found
    · split at found
      · exact ⟨rfl, (Option.some.inj found).symm⟩
      · contradiction
    · contradiction
  · right
    rw [List.getElem?_set_ne (Ne.symm same)] at found
    exact ⟨same, found⟩

theorem getElem?_set_of_some {l : List α} {i : Nat} {a : α} (member : l[i]? = some a) (b : α)
    (j : Nat) : (l.set i b)[j]? = if j = i then some b else l[j]? := by
  have inside := (List.getElem?_eq_some_iff.mp member).1
  by_cases same : j = i
  · subst same
    simp [inside]
  · simp [same, List.getElem?_set_ne (Ne.symm same)]

theorem getElem?_concat_cases {l : List α} {j : Nat} {a b : α} (found : (l ++ [a])[j]? = some b) :
    l[j]? = some b ∨ (j = l.length ∧ b = a) := by
  rcases Nat.lt_or_ge j l.length with inside | outside
  · rw [List.getElem?_append_left inside] at found
    exact .inl found
  · right
    have last := (List.getElem?_eq_some_iff.mp found).1
    rw [List.length_append, List.length_singleton] at last
    have here : j = l.length := by omega
    subst here
    rw [List.getElem?_concat_length] at found
    exact ⟨rfl, (Option.some.inj found).symm⟩

theorem mem_set_cases {l : List α} {i : Nat} {a b : α} (found : a ∈ l.set i b) :
    a = b ∨ ∃ j, j ≠ i ∧ l[j]? = some a := by
  obtain ⟨j, hj⟩ := List.mem_iff_getElem?.mp found
  rcases getElem?_set_cases hj with ⟨_, same⟩ | ⟨differ, old⟩
  · exact .inl same
  · exact .inr ⟨j, differ, old⟩

end Gusset.Foundation
