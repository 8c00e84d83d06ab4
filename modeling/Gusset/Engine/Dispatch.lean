import Gusset.Foundation.Reach

/-! Which engine a job runs: the opcode that `callHeaderIDs` puts in the header, and the registry of
engine.rs behind its two locks, with any number of threads that install, register, clear and
dispatch. -/
namespace Gusset.Engine
open Foundation

/-- A context value: an integer of a signed or an unsigned kind, or something else. -/
inductive OpValue
  | signed (n : Int64) | unsigned (n : UInt64) | other
  deriving DecidableEq

def maxUint32 : Nat := 2 ^ 32 - 1

def opcodeFromContext : OpValue → Option UInt32
  | .signed n =>
    if n.toInt < 0 ∨ (maxUint32 : Int) < n.toInt then none else some (.ofNat n.toInt.toNat)
  | .unsigned n => if maxUint32 < n.toNat then none else some (.ofNat n.toNat)
  | .other => none

/-- The integer a value holds. -/
def OpValue.value : OpValue → Option Int
  | .signed n => some n.toInt
  | .unsigned n => some n.toNat
  | .other => none

/-- The opcode of the header: that of the context, or else of the handle. -/
def headerOpcode (defaultOpcode : UInt32) : Option OpValue → Option UInt32
  | some v => opcodeFromContext v
  | none => some defaultOpcode

variable {ε : Type}

/-- What `default_dispatch` does with a job. -/
inductive Ran (ε : Type)
  | engine (f : ε) | diagnostic | refused

/-- What happened, for the record: no line of the program reads it. -/
inductive Event (ε : Type)
  | installed (f : ε)
  | registered (opcode : UInt32) (f : ε)
  | clearedGlobal
  | clearedRegistry
  | dispatched (opcode : UInt32) (context : Option OpValue) (diagnostic : Bool) (ran : Ran ε)

/-- `GLOBAL_ENGINE`, `ENGINE_REGISTRY`, whether a `clear_engine_handlers` holds the first lock, and
what happened, newest first. -/
structure Registry (ε : Type) where
  globalEngine : Option ε
  engineRegistry : Option (List (UInt32 × ε))
  clearing : Bool
  past : List (Event ε)

namespace Registry

def new : Registry ε := ⟨none, none, false, []⟩

def lookup (r : Registry ε) (opcode : UInt32) : Option ε :=
  r.engineRegistry.bind fun map => map.lookup opcode

/-- `default_dispatch`: the engine that the locks show, and what is done with it. -/
def dispatch (r : Registry ε) (opcode : UInt32) (diagnostic : Bool) : Ran ε :=
  if opcode ≠ 0 then
    match r.lookup opcode with
    | some f => .engine f
    | none => .refused
  else
    match r.globalEngine with
    | some f => .engine f
    | none => if diagnostic then .diagnostic else .refused

end Registry

inductive Act (ε : Type)
  | setEngineHandler (f : ε)
  | registerEngine (opcode : UInt32) (f : ε)
  | clearGlobal
  | clearRegistry
  | submit (defaultOpcode : UInt32) (context : Option OpValue) (diagnostic : Bool)

/-- One access under a lock. `clear_engine_handlers` keeps the lock of the global engine while it
takes the other one, so nobody else gets at the global engine in between. -/
def step (r : Registry ε) : Act ε → Option (Registry ε)
  | .setEngineHandler f =>
    if r.clearing then none
    else some { r with globalEngine := some f, past := .installed f :: r.past }
  | .registerEngine opcode f =>
    if opcode = 0 then some r
    else
      let map := r.engineRegistry.getD []
      if (map.lookup opcode).isSome then some { r with engineRegistry := some map }
      else some { r with
        engineRegistry := some ((opcode, f) :: map), past := .registered opcode f :: r.past }
  | .clearGlobal =>
    if r.clearing then none
    else some { r with globalEngine := none, clearing := true, past := .clearedGlobal :: r.past }
  | .clearRegistry =>
    if r.clearing then
      some { r with engineRegistry := none, clearing := false, past := .clearedRegistry :: r.past }
    else none
  | .submit defaultOpcode context diagnostic =>
    match headerOpcode defaultOpcode context with
    | none => some r
    | some opcode =>
      if opcode = 0 ∧ r.clearing = true then none
      else some { r with
        past := .dispatched opcode context diagnostic (r.dispatch opcode diagnostic) :: r.past }

def Reaches : Registry ε → Prop :=
  Reachable (· = .new) fun r r' => ∃ act, step r act = some r'

/-- The engine registered for an opcode since the registry was last cleared. -/
def boundTo (opcode : UInt32) : List (Event ε) → Option ε
  | [] => none
  | .clearedRegistry :: _ => none
  | .registered other f :: past => if opcode = other then some f else boundTo opcode past
  | _ :: past => boundTo opcode past

/-- The global engine installed last, unless it was cleared since. -/
def installed : List (Event ε) → Option ε
  | [] => none
  | .installed f :: _ => some f
  | .clearedGlobal :: _ => none
  | _ :: past => installed past

/-- A dispatch as it should be after what came before it: the opcode is the integer that the context
holds, a nonzero one runs the engine registered for it or nothing, and opcode 0 runs the global
engine, or the diagnostic one if the caller asked for that and there is none. -/
def Rightly (past : List (Event ε)) : Event ε → Prop
  | .registered opcode _ => opcode ≠ 0 ∧ boundTo opcode past = none
  | .dispatched opcode context diagnostic ran =>
    (∀ v, context = some v → v.value = some (opcode.toNat : Int)) ∧
      (opcode ≠ 0 → ran = ((boundTo opcode past).map Ran.engine).getD .refused) ∧
      (opcode = 0 → ran = ((installed past).map Ran.engine).getD
        (if diagnostic then .diagnostic else .refused))
  | _ => True

/-- Everything that happened was right at its time. -/
def AllRightly : List (Event ε) → Prop
  | [] => True
  | event :: past => Rightly past event ∧ AllRightly past

theorem opcode_exact {v : OpValue} {opcode : UInt32} (fits : opcodeFromContext v = some opcode) :
    v.value = some (opcode.toNat : Int) := by
  have width : maxUint32 = 4294967295 := rfl
  cases v with
  | signed n =>
    simp only [opcodeFromContext] at fits
    split at fits
    · cases fits
    · rename_i inside
      cases fits
      have small : n.toInt.toNat < UInt32.size := by
        simp only [UInt32.size]
        omega
      have same := UInt32.toNat_ofNat_of_lt' small
      simp only [OpValue.value, same]
      congr 1
      omega
  | unsigned n =>
    simp only [opcodeFromContext] at fits
    split at fits
    · cases fits
    · rename_i inside
      cases fits
      have small : n.toNat < UInt32.size := by
        simp only [UInt32.size]
        omega
      have same := UInt32.toNat_ofNat_of_lt' small
      simp only [OpValue.value, same]
  | other => cases fits

/-- The registry is what the past makes it. -/
structure Sound (r : Registry ε) : Prop where
  globals : r.globalEngine = installed r.past
  opcodes : ∀ opcode, r.lookup opcode = boundTo opcode r.past
  rightly : AllRightly r.past

theorem Sound.submit {r : Registry ε} (sound : Sound r) {opcode : UInt32}
    {context : Option OpValue} (diagnostic : Bool)
    (exact : ∀ v, context = some v → v.value = some (opcode.toNat : Int)) :
    Sound { r with
      past := .dispatched opcode context diagnostic (r.dispatch opcode diagnostic) :: r.past } := by
  refine ⟨sound.globals, sound.opcodes, ⟨exact, ?_, ?_⟩, sound.rightly⟩
  · intro nonzero
    unfold Registry.dispatch
    rw [if_pos nonzero, sound.opcodes]
    cases boundTo opcode r.past <;> rfl
  · intro zero
    unfold Registry.dispatch
    rw [if_neg (fun nonzero => nonzero zero), sound.globals]
    cases installed r.past <;> rfl

theorem Sound.register {r : Registry ε} (sound : Sound r) {opcode : UInt32} (f : ε)
    (nonzero : opcode ≠ 0) (free : ((r.engineRegistry.getD []).lookup opcode).isSome = false) :
    Sound { r with
      engineRegistry := some ((opcode, f) :: r.engineRegistry.getD [])
      past := .registered opcode f :: r.past } := by
  have same (other : UInt32) : (r.engineRegistry.getD []).lookup other = r.lookup other := by
    unfold Registry.lookup
    cases r.engineRegistry <;> rfl
  refine ⟨sound.globals, ?_, ⟨nonzero, ?_⟩, sound.rightly⟩
  · intro other
    simp only [Registry.lookup, Option.bind_some, List.lookup_cons, boundTo]
    by_cases here : other = opcode
    · rw [if_pos here, here, beq_self_eq_true]
    · rw [if_neg here, beq_false_of_ne here, ← sound.opcodes, ← same]
  · rw [← sound.opcodes, ← same]
    exact Option.not_isSome_iff_eq_none.mp (by rw [free]; exact Bool.false_ne_true)

theorem Sound.step {r r' : Registry ε} {act : Act ε} (sound : Sound r)
    (went : step r act = some r') : Sound r' := by
  cases act with
  | setEngineHandler f =>
    simp only [Engine.step] at went
    split at went
    · cases went
    · cases went
      exact ⟨rfl, sound.opcodes, trivial, sound.rightly⟩
  | registerEngine opcode f =>
    simp only [Engine.step] at went
    split at went
    · cases went
      exact sound
    · rename_i nonzero
      split at went
      · cases went
        refine ⟨sound.globals, ?_, sound.rightly⟩
        intro other
        rw [← sound.opcodes]
        unfold Registry.lookup
        cases r.engineRegistry <;> rfl
      · rename_i free
        cases went
        exact sound.register f nonzero (Bool.eq_false_iff.mpr free)
  | clearGlobal =>
    simp only [Engine.step] at went
    split at went
    · cases went
    · cases went
      exact ⟨rfl, sound.opcodes, trivial, sound.rightly⟩
  | clearRegistry =>
    simp only [Engine.step] at went
    split at went
    · cases went
      exact ⟨sound.globals, fun _ => rfl, trivial, sound.rightly⟩
    · cases went
  | submit defaultOpcode context diagnostic =>
    simp only [Engine.step] at went
    split at went
    · cases went
      exact sound
    · rename_i opcode header
      split at went
      · cases went
      · cases went
        apply sound.submit
        rintro v rfl
        exact opcode_exact header

theorem AllRightly.at {later past : List (Event ε)} {event : Event ε}
    (rightly : AllRightly (later ++ event :: past)) : Rightly past event := by
  induction later with
  | nil => exact rightly.1
  | cons first rest ih => exact ih rightly.2

/-- In every order of installs, registrations, clears and jobs, a job runs by the integer in its
context: a nonzero opcode runs the engine that was registered for exactly it since the last clear,
or is refused, whatever the global and the diagnostic engine are; opcode 0 never reaches the
registry. A registration that succeeded was not for opcode 0 and replaced none. -/
theorem dispatched_rightly {r : Registry ε} (reach : Reaches r) {later past : List (Event ε)}
    {event : Event ε} (happened : r.past = later ++ event :: past) : Rightly past event := by
  have sound : Sound r := by
    apply Reachable.invariant _ _ reach
    · rintro _ rfl
      exact ⟨rfl, fun _ => rfl, trivial⟩
    · rintro u v sound ⟨act, went⟩
      exact sound.step went
  exact AllRightly.at (happened ▸ sound.rightly)

/-- Engine 1 is global and engine 2 registered for opcode 9; a job asks for opcode 9. -/
def routed : Option (Registry Nat) :=
  follow step .new [.setEngineHandler 1, .registerEngine 9 2, .submit 0 (some (.unsigned 9)) true]

theorem routed_runs : routed.isSome = true := by decide

theorem dispatched_rightly_routed :
    Rightly [.registered 9 2, .installed 1]
      (.dispatched 9 (some (.unsigned 9)) true (.engine (2 : Nat))) := by
  have start : Reaches (.new : Registry Nat) := .start rfl
  have reach : Reaches (routed.get routed_runs) :=
    start.follow (fun _ act _ went => ⟨act, went⟩) (Option.some_get routed_runs).symm
  have happened : (routed.get routed_runs).past =
      [] ++ .dispatched 9 (some (.unsigned 9)) true (.engine 2) ::
        ([.registered 9 2, .installed 1] : List (Event Nat)) := rfl
  exact dispatched_rightly reach happened

end Gusset.Engine
