import Gusset.Buffer.Program
import Gusset.Handle.Guarantees
import Gusset.Handle.Locks

/-! A run of the buffers is a run of their handle, except that NewBuffer may set `poisoned`, which
no lock and no map depends on. -/
namespace Gusset.Buffer
open Foundation
open Handle (Ticket TakeId Bytes Err anyTicket)
open Relation (ReflTransGen)

/-- A step of the handle, or the latch of NewBuffer. -/
def Latched (cfg : Handle.Config) (s t : Handle.State) : Prop :=
  Handle.State.Step cfg anyTicket s t ∨ t = { s with poisoned := true }

abbrev Reaches (cfg : Config) : State → Prop :=
  Reachable (· = .opened) fun s t => ∃ a, s.step cfg a = some t

variable {cfg : Config} {s s' : State} {b b' : Handle.State} {i : Nat} {pc pc' : Pc}

/-- A crossing is only written down. -/
theorem cross_kept (s : State) (x : Option Crossing) : (s.cross x).base = s.base ∧
    (s.cross x).bufs = s.bufs ∧ (s.cross x).bufBytes = s.bufBytes ∧ (s.cross x).users = s.users := by
  unfold State.cross
  split
  · split <;> exact ⟨rfl, rfl, rfl, rfl⟩
  all_goals exact ⟨rfl, rfl, rfl, rfl⟩

theorem cross_base (x : Option Crossing) : (s.cross x).base = s.base := (cross_kept s x).1

theorem cross_bufs (x : Option Crossing) : (s.cross x).bufs = s.bufs := (cross_kept s x).2.1

theorem cross_bufBytes (x : Option Crossing) : (s.cross x).bufBytes = s.bufBytes :=
  (cross_kept s x).2.2.1

theorem cross_users (x : Option Crossing) : (s.cross x).users = s.users := (cross_kept s x).2.2.2

/-- Everything a step of a call on the buffers can do. -/
inductive Moves (cfg : Config) (s : State) : Pc → State → Pc → Prop
  | badArg {n : Int} : Moves cfg s (.size n) s (.done (.err .badArg))
  | sized {n : Int} (low : 0 < n) (high : n ≤ maxBufferBytes) :
      Moves cfg s (.size n) s (.closed n.toNat)
  | isClosed {n : Nat} : Moves cfg s (.closed n) s (.done (.err .closed))
  | isOpen {n : Nat} : Moves cfg s (.closed n) s (.poisoned n)
  | isPoisoned {n : Nat} : Moves cfg s (.poisoned n) s (.done (.err .poisoned))
  | isSound {n : Nat} : Moves cfg s (.poisoned n) s (.reserve n)
  | unlimited {n : Nat} (none : cfg.bufBudget = 0) :
      Moves cfg s (.reserve n) s (.enterClosed (.alloc n 0))
  | tooMuch {n : Nat} : Moves cfg s (.reserve n) s (.done (.err .budget))
  | load {n : Nat} (budget : cfg.bufBudget ≠ 0) (room : int64 (s.bufBytes + n) ≤ cfg.bufBudget) :
      Moves cfg s (.reserve n) s (.exchange n s.bufBytes)
  | reserve {n : Nat} : Moves cfg s (.exchange n s.bufBytes)
      { s with bufBytes := int64 (s.bufBytes + n) } (.enterClosed (.alloc n n))
  | retry {n : Nat} {cur : Int} : Moves cfg s (.exchange n cur) s (.reserve n)
  | tooLate {n charge : Nat} :
      Moves cfg s (.inside (.alloc n charge)) s (.unlock (.refund charge (.err .poisoned)))
  | ask {n charge : Nat} : Moves cfg s (.inside (.alloc n charge)) s (.bufAlloc n charge)
  | allocated {n charge : Nat} {id : TakeId} {data : Bytes} (whole : data.length = n) :
      Moves cfg s (.bufAlloc n charge) (s.cross (some (.bufAlloc id)))
        (.unlock (.make id data charge))
  | refuse {n charge : Nat} {e : Err} :
      Moves cfg s (.bufAlloc n charge) s (.unlock (.refused charge e))
  | refused {charge : Nat} {e : Err} {pc' : Pc}
      (next : pc' = .latch e ∨ pc' = .done (.err (.rust e))) :
      Moves cfg s (.refused charge e) { s with bufBytes := int64 (s.bufBytes - charge) } pc'
  | latch {e : Err} : Moves cfg s (.latch e)
      { s with base := { s.base with poisoned := true } } (.done (.err (.rust e)))
  | make {id : TakeId} {data : Bytes} {charge : Nat} : Moves cfg s (.make id data charge)
      { s with bufs := s.bufs ++ [⟨id, some data, false, charge, false⟩] }
      (.done (.buffer s.bufs.length))
  | heap {b : Nat} : Moves cfg s (.heap b) s (.done (.view (s.view b)))
  | view {b : Nat} : Moves cfg s (.inside (.bytes b)) s (.unlock (.done (.view (s.view b))))
  | second {b : Nat} {x : Buf} (here : s.bufs[b]? = some x) (gone : x.freed = true) :
      Moves cfg s (.swap b) s (.done .ok)
  | claim {b : Nat} {x : Buf} {pc' : Pc} (here : s.bufs[b]? = some x) (mine : x.freed = false)
      (next : pc' = .refund x.budgeted .ok ∨ pc' = .enterClosed (.free x.id x.budgeted)) :
      Moves cfg s (.swap b) { s with bufs := s.bufs.set b x.withdraw } pc'
  | freed {id : TakeId} {charge : Nat} {out : Answer}
      (next : out = .ok ∨ ∃ e, out = .err (.rust e)) : Moves cfg s (.inside (.free id charge))
        (s.cross (some (.bufFree id))) (.unlock (.refund charge out))
  | refund {charge : Nat} {out : Answer} : Moves cfg s (.refund charge out)
      { s with bufBytes := int64 (s.bufBytes - charge) } (.done out)
  | shut {v : Visit} : Moves cfg s (.enterClosed v) s v.failed
  | enter {v : Visit} (isOpen : s.base.sh.closed = false) :
      Moves cfg s (.enterClosed v) s (.tryRLock v)
  | busy {v : Visit} : Moves cfg s (.tryRLock v) s v.failed
  | lock {v : Visit} (free : s.base.writer = .none) : Moves cfg s (.tryRLock v) s (.enterPtr v)
  | cleared {v : Visit} : Moves cfg s (.enterPtr v) s (.unlock v.failed)
  | inside {v : Visit} (isOpen : s.base.sh.closed = false) : Moves cfg s (.enterPtr v) s (.inside v)
  | unlock {after : Pc} : Moves cfg s (.unlock after) s after

theorem alloc_moves {c : Choice} (went : s.allocStep cfg pc c = some (s', pc')) :
    Moves cfg s pc s' pc' := by
  unfold State.allocStep at went
  split at went
  · cases went
    split
    · exact .badArg
    · rename_i fits
      exact .sized (by omega) (by omega)
  · cases went
    split
    · exact .isClosed
    · exact .isOpen
  · cases went
    split
    · exact .isPoisoned
    · exact .isSound
  · split at went
    · rename_i none
      cases went
      exact .unlimited none
    · rename_i budget
      split at went
      · cases went
        exact .tooMuch
      · rename_i within
        cases went
        exact .load budget (by omega)
  · split at went
    · rename_i same
      cases went
      subst same
      exact .reserve
    · cases went
      exact .retry
  · cases went
    split
    · exact .tooLate
    · exact .ask
  · split at went
    · rename_i fresh
      cases went
      exact .allocated fresh.2.2
    · cases went
  · cases went
    exact .refuse
  · cases went
    refine .refused ?_
    split
    · exact .inl rfl
    · exact .inr rfl
  · cases went
    exact .latch
  · cases went
    exact .make
  · cases went

theorem owner_moves {c : Choice} (went : s.ownerStep pc c = some (s', pc')) :
    Moves cfg s pc s' pc' := by
  unfold State.ownerStep at went
  split at went
  · cases went
    exact .heap
  · cases went
    exact .view
  · split at went
    · cases went
    · rename_i x here
      split at went
      · rename_i gone
        cases went
        exact .second here gone
      · rename_i mine
        cases went
        refine .claim here (by simpa using mine) ?_
        split
        · exact .inl rfl
        · exact .inr rfl
  · rename_i e
    cases went
    refine .freed ?_
    cases e with
    | none => exact .inl rfl
    | some e => exact .inr ⟨e, rfl⟩
  · cases went
    exact .refund
  · cases went

theorem cgo_moves {c : Choice} (went : s.cgoStep pc c = some (s', pc')) :
    Moves cfg s pc s' pc' := by
  unfold State.cgoStep at went
  split at went
  · cases went
    split
    · exact .shut
    · rename_i isOpen
      exact .enter (by simpa using isOpen)
  · cases went
    split
    · rename_i free
      exact .lock free
    · exact .busy
  · cases went
    split
    · exact .cleared
    · rename_i isOpen
      exact .inside (by simpa using fun closed => isOpen (.inl closed))
  · cases went
    exact .unlock
  · cases went

theorem user_moves {c : Choice} (went : s.userStep cfg pc c = some (s', pc')) :
    Moves cfg s pc s' pc' := by
  simp only [State.userStep, Option.or_eq_some_iff] at went
  rcases went with alloc | ⟨_, owner | ⟨_, cgo⟩⟩
  · exact alloc_moves alloc
  · exact owner_moves owner
  · exact cgo_moves cgo

theorem Moves.base (moves : Moves cfg s pc s' pc') :
    s'.base = s.base ∨ s'.base = { s.base with poisoned := true } := by
  cases moves with
  | allocated | freed => exact .inl (cross_base _)
  | latch => exact .inr rfl
  | _ => exact .inl rfl

theorem Moves.users (moves : Moves cfg s pc s' pc') : s'.users = s.users := by
  cases moves with
  | allocated | freed => exact cross_users _
  | _ => rfl

theorem step_base {a : Act} (went : s.step cfg a = some s') :
    ReflTransGen (Latched cfg.handle) s.base s'.base := by
  cases a with
  | base a =>
    simp only [State.step, Option.ite_none_right_eq_some, Option.map_eq_some_iff] at went
    obtain ⟨_, b, moved, rfl⟩ := went
    exact .single (.inl ⟨a, moved, fun _ _ => trivial⟩)
  | newBuffer n =>
    cases went
    exact .refl
  | bytes b | free b | collect b =>
    have same : s'.base = s.base := by
      unfold State.step at went
      grind -ring -linarith
    rw [same]
  | user i c =>
    simp only [State.step, Option.bind_eq_some_iff, Option.map_eq_some_iff] at went
    obtain ⟨pc, _, r, moved, rfl⟩ := went
    rcases (user_moves moved).base with same | latched
    · simp only [same]
      exact .refl
    · exact .single (.inr latched)

theorem reaches_latched (reach : Reaches cfg s) :
    Reachable (· = .opened) (Latched cfg.handle) s.base := by
  apply reach.simulate State.base
  · rintro _ rfl
    rfl
  · rintro s s' _ ⟨a, went⟩
    exact step_base went

theorem latched_gates (reach : Reachable (· = .opened) (Latched cfg.handle) b) : b.Gates := by
  apply reach.invariant
  · rintro _ rfl
    exact Handle.State.opened_gates
  · rintro s s' gates (⟨a, went, _⟩ | rfl)
    · exact gates.step went
    · exact { gates with }

theorem latched_locks (reach : Reachable (· = .opened) (Latched cfg.handle) b) : b.Locks := by
  apply reach.induction
  · rintro _ rfl
    exact Handle.State.opened_locks
  · rintro s s' before locks (⟨a, went, _⟩ | rfl)
    · exact locks.step (latched_gates before) went
    · exact { locks with }

theorem latched_books (reach : Reachable (· = .opened) (Latched cfg.handle) b) :
    Handle.Ledger.Books cfg.handle.poolSize b.ledger := by
  apply Handle.Ledger.reachable_books
  apply reach.simulate Handle.State.ledger
  · rintro _ rfl
    rfl
  · rintro s s' before (moved | rfl)
    · exact Handle.State.step_moves (latched_gates before) moved
    · exact .refl

theorem reaches_gates (reach : Reaches cfg s) : s.base.Gates := latched_gates (reaches_latched reach)

theorem reaches_locks (reach : Reaches cfg s) : s.base.Locks := latched_locks (reaches_latched reach)

theorem reaches_books (reach : Reaches cfg s) :
    Handle.Ledger.Books cfg.handle.poolSize s.base.ledger := latched_books (reaches_latched reach)

/-- A run given by its actions. -/
def follows (cfg : Config) (s : State) (acts : List Act) : Option State :=
  follow (fun s a => s.step cfg a) s acts

theorem follows_reaches {acts : List Act} (reach : Reaches cfg s)
    (run : follows cfg s acts = some s') : Reaches cfg s' :=
  reach.follow (fun _ a _ went => ⟨a, went⟩) run

end Gusset.Buffer
