import Mathlib

/-! Runs of a transition system: what holds initially and is kept by every step holds in
every state a run reaches, and a map that carries steps to steps or to nothing carries runs
to runs. -/
namespace Gusset.Foundation

variable {σ : Type u} {τ : Type v}

/-- Some run from an initial state ends in this state. -/
def Reachable (init : σ → Prop) (step : σ → σ → Prop) (s : σ) : Prop :=
  ∃ a, init a ∧ Relation.ReflTransGen step a s

variable {init : σ → Prop} {step : σ → σ → Prop}

theorem Reachable.start {s : σ} (h : init s) : Reachable init step s :=
  ⟨s, h, .refl⟩

theorem Reachable.next {s t : σ} (h : Reachable init step s) (move : step s t) :
    Reachable init step t := by
  obtain ⟨a, ha, run⟩ := h
  exact ⟨a, ha, run.tail move⟩

/-- Induction along a run. The step case may use that the state before it is reachable. -/
theorem Reachable.induction {inv : σ → Prop} (base : ∀ s, init s → inv s)
    (keep : ∀ s t, Reachable init step s → inv s → step s t → inv t) {s : σ}
    (h : Reachable init step s) : inv s := by
  obtain ⟨a, ha, run⟩ := h
  induction run with
  | refl => exact base a ha
  | tail before move ih => exact keep _ _ ⟨a, ha, before⟩ ih move

/-- The invariant rule. -/
theorem Reachable.invariant {inv : σ → Prop} (base : ∀ s, init s → inv s)
    (keep : ∀ s t, inv s → step s t → inv t) {s : σ} (h : Reachable init step s) : inv s :=
  h.induction base fun s t _ => keep s t

/-- Every step allowed here is allowed there, in the states a run passes through. -/
theorem Reachable.mono {init' : σ → Prop} {step' : σ → σ → Prop} (starts : ∀ s, init s → init' s)
    (allowed : ∀ s t, Reachable init step s → step s t → step' s t) {s : σ}
    (h : Reachable init step s) : Reachable init' step' s :=
  h.induction (fun s hs => .start (starts s hs))
    fun s t reach ih move => ih.next (allowed s t reach move)

/-- A run is carried to a run by a map that carries each of its steps to some steps. -/
theorem Reachable.simulate {init' : τ → Prop} {step' : τ → τ → Prop} (f : σ → τ)
    (starts : ∀ s, init s → init' (f s))
    (steps : ∀ s t, Reachable init step s → step s t →
      Relation.ReflTransGen step' (f s) (f t)) {s : σ}
    (h : Reachable init step s) : Reachable init' step' (f s) := by
  obtain ⟨a, ha, run⟩ := h
  induction run with
  | refl => exact .start (starts a ha)
  | tail before move ih =>
    obtain ⟨b, hb, carried⟩ := ih
    exact ⟨b, hb, carried.trans (steps _ _ ⟨a, ha, before⟩ move)⟩

/-- A run given by its actions. -/
def follow {α : Type w} (act : σ → α → Option σ) (s : σ) : List α → Option σ
  | [] => some s
  | a :: rest => (act s a).bind fun t => follow act t rest

theorem follow_cons {α : Type w} {act : σ → α → Option σ} {s t : σ} {a : α} {rest : List α}
    (went : act s a = some t) : follow act s (a :: rest) = follow act t rest := by
  simp only [follow, went, Option.bind_some]

theorem follow_append {α : Type w} (act : σ → α → Option σ) (s : σ) (first second : List α) :
    follow act s (first ++ second) = (follow act s first).bind fun t => follow act t second := by
  induction first generalizing s with
  | nil => rfl
  | cons a rest ih =>
    simp only [List.cons_append, follow, Option.bind_assoc]
    congr 1
    funext t
    exact ih t

theorem Reachable.follow {α : Type w} {act : σ → α → Option σ}
    (allowed : ∀ s a t, act s a = some t → step s t) {s t : σ} {acts : List α}
    (reach : Reachable init step s) (run : follow act s acts = some t) :
    Reachable init step t := by
  induction acts generalizing s with
  | nil =>
    cases run
    exact reach
  | cons a rest ih =>
    obtain ⟨mid, went, later⟩ := Option.bind_eq_some_iff.mp run
    exact ih (reach.next (allowed s a mid went)) later

end Gusset.Foundation
