import Gusset.Handle.Refinement

/-! What holds in every state a handle reaches, read off the ledger. -/
namespace Gusset.Handle
open Foundation

namespace Ledger

variable {cap : Nat} {allowed other : Guard} {L L' : Ledger}

structure Books (cap : Nat) (L : Ledger) : Prop where
  reader : L.ReaderSound
  desk : L.desk.Sound
  permits : Permits cap L

theorem opened_books : Books cap opened where
  reader := by
    constructor <;> simp [opened, Shared.opened, History.empty]
  desk := by
    constructor <;>
      simp [desk, opened, Shared.opened, History.empty, GoMap.lookup]
  permits := by
    constructor <;>
      simp [opened, Shared.opened, History.empty, has, ReaderRole.permits, ReaderRole.owes,
        CloserRole.permits, CloserRole.owes, CloserRole.locked, CloserRole.readerGone]

theorem Move.books (move : Move cap allowed L L') (books : Books cap L) : Books cap L' where
  reader := move.reader_sound books.reader
  desk := move.desk_sound books.reader books.desk
  permits := move.permits books.reader books.desk books.permits

theorem reachable_books (reach : Reachable (· = opened) (Move cap allowed) L) : Books cap L := by
  apply reach.invariant
  · rintro _ rfl
    exact opened_books
  · exact fun L L' books move => move.books books

theorem opened_lifecycle : opened.Lifecycle := by
  intro t
  constructor <;> simp [slip, opened, Shared.opened, History.empty, GoMap.lookup]

theorem reachable_lifecycle (reach : Reachable (· = opened) (Move cap settled) L) :
    L.Lifecycle := by
  refine Reachable.induction ?_ ?_ reach
  · rintro _ rfl
    exact opened_lifecycle
  · intro L L' before life move
    have books := reachable_books before
    exact move.lifecycle books.reader books.desk books.permits life

theorem Move.mono (weaker : ∀ t, allowed L t → other L t) (move : Move cap allowed L L') :
    Move cap other L L' := by
  cases move with
  | claim i t sink res id owes sh here may done =>
    exact .claim L i t sink res id owes sh here (weaker t may) done
  | register i t op here may live => exact .register L i t op here (weaker t may) live
  | discard i t here may live => exact .discard L i t here (weaker t may) live
  | collect i op t c res id owes sh here done =>
    exact .collect L i op t c res id owes sh here done
  | _ => constructor <;> assumption

/-- Callers claim only what a Submit has returned. -/
def returnedOnly : Guard := fun L t => t ∈ L.hist.returned

instance (L : Ledger) (t : Ticket) : Decidable (returnedOnly L t) :=
  inferInstanceAs (Decidable (t ∈ L.hist.returned))

instance (L : Ledger) (t : Ticket) : Decidable (settled L t) :=
  inferInstanceAs (Decidable (census (Role.window t) L.roles = 0))

theorem Permits.settled_of_returned (p : Permits cap L) {t : Ticket}
    (returned : t ∈ L.hist.returned) : settled L t := by
  have total := p.window t
  rw [has_of_mem returned, has_of_mem (p.returned_accepted returned)] at total
  unfold settled
  omega

theorem reachable_settled (reach : Reachable (· = opened) (Move cap returnedOnly) L) :
    Reachable (· = opened) (Move cap settled) L := by
  apply reach.mono (fun _ start => start)
  intro L L' before move
  have books := reachable_books before
  exact move.mono fun t returned => books.permits.settled_of_returned returned

end Ledger

namespace State

variable {cfg : Config} {allowed : Ledger.Guard} {s : State}

/-- The states of a handle's runs, as far as the guard lets callers claim tickets. -/
abbrev Reaches (cfg : Config) (allowed : Ledger.Guard) : State → Prop :=
  Reachable (· = opened) (Step cfg allowed)

theorem reaches_gates (reach : Reaches cfg allowed s) : s.Gates := by
  apply reach.invariant
  · rintro _ rfl
    exact opened_gates
  · rintro s s' gates ⟨a, went, _⟩
    exact gates.step went

theorem reaches_ledger (reach : Reaches cfg allowed s) :
    Reachable (· = Ledger.opened) (Ledger.Move cfg.poolSize allowed) s.ledger := by
  apply reach.simulate
  · rintro _ rfl
    rfl
  · intro s s' before moved
    exact step_moves (reaches_gates before) moved

theorem reaches_books (reach : Reaches cfg allowed s) : Ledger.Books cfg.poolSize s.ledger :=
  Ledger.reachable_books (reaches_ledger reach)

theorem reaches_lifecycle (reach : Reaches cfg Ledger.settled s) : s.ledger.Lifecycle :=
  Ledger.reachable_lifecycle (reaches_ledger reach)

theorem returned_lifecycle (reach : Reaches cfg Ledger.returnedOnly s) : s.ledger.Lifecycle :=
  Ledger.reachable_lifecycle (Ledger.reachable_settled (reaches_ledger reach))

/-- A run given by its actions. -/
def follows (cfg : Config) (allowed : Ledger.Guard) [∀ L t, Decidable (allowed L t)] (s : State)
    (acts : List Act) : Option State :=
  follow (fun s a => if ∀ t ∈ s.claims a, allowed s.ledger t then s.step cfg a else none) s acts

theorem follows_reaches [∀ L t, Decidable (allowed L t)] {s' : State} {acts : List Act}
    (reach : Reaches cfg allowed s) (run : follows cfg allowed s acts = some s') :
    Reaches cfg allowed s' := by
  apply reach.follow _ run
  intro s a t went
  obtain ⟨may, moved⟩ := Option.ite_none_right_eq_some.mp went
  exact ⟨a, moved, may⟩

end State

end Gusset.Handle
