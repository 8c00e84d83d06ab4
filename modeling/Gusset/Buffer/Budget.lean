import Gusset.Buffer.Runs
import Gusset.Foundation.Census

/-! The buffer budget: `bufBytes` is the sum of the charges of the buffers that are out and of the
calls in progress, and no charge is released twice. -/
namespace Gusset.Buffer
open Foundation

/-! ### Who holds a charge -/

def Visit.charge : Visit → Nat
  | .alloc _ charge | .free _ charge => charge
  | .bytes _ => 0

/-- What a call has reserved, or taken over from a buffer, and not given back or handed on. -/
def Pc.holds : Pc → Nat
  | .bufAlloc _ charge | .make _ _ charge | .refund charge _ | .refused charge _ => charge
  | .enterClosed v | .tryRLock v | .enterPtr v | .inside v => v.charge
  | .unlock after => after.holds
  | _ => 0

/-- What a buffer holds until it is freed or cleaned up. -/
def Buf.held (x : Buf) : Nat := if x.freed || x.collected then 0 else x.budgeted

def State.charged (s : State) : Nat := census Buf.held s.bufs + census Pc.holds s.users

-- What a call does after its RUnlock.
def Pc.tail : Pc → Bool
  | .refund _ _ | .make _ _ _ | .refused _ _ | .done (.view _) => true
  | _ => false

/-- What the place of a call promises: a size has passed its check, a sum read for the exchange has
passed its own, and a `*Buffer` that Free is about to swap is reachable. -/
def Promises (cfg : Config) (s : State) : Pc → Prop
  | .closed n | .poisoned n | .reserve n => (n : Int) ≤ maxBufferBytes
  | .exchange n cur => (n : Int) ≤ maxBufferBytes ∧ int64 (cur + n) ≤ cfg.bufBudget
  | .unlock after => after.tail = true
  | .swap b => ∀ x, s.bufs[b]? = some x → x.collected = false
  | _ => True

-- Free before its swap, and NewBuffer after it has made its buffer.
def Pc.marked : Pc → Bool
  | .swap _ | .done (.buffer _) => true
  | _ => false

@[simp] theorem failed_holds (v : Visit) : v.failed.holds = v.charge := by
  cases v <;> rfl

/-- Everything a step of a call can do to the charges. -/
inductive Spends (cfg : Config) (s : State) : Pc → State → Pc → Prop
  | still {pc s' pc'} (bytes : s'.bufBytes = s.bufBytes) (bufs : s'.bufs = s.bufs)
      (same : pc'.holds = pc.holds) (promises : Promises cfg s pc') (plain : pc'.marked = false) :
      Spends cfg s pc s' pc'
  | reserve {n : Nat} {s'} (bytes : s'.bufBytes = int64 (s.bufBytes + n)) (bufs : s'.bufs = s.bufs) :
      Spends cfg s (.exchange n s.bufBytes) s' (.enterClosed (.alloc n n))
  | hand {id data charge s'} (bytes : s'.bufBytes = s.bufBytes)
      (bufs : s'.bufs = s.bufs ++ [⟨id, some data, false, charge, false⟩]) :
      Spends cfg s (.make id data charge) s' (.done (.buffer s.bufs.length))
  | claim {b x s' pc'} (here : s.bufs[b]? = some x) (mine : x.freed = false)
      (bytes : s'.bufBytes = s.bufBytes) (bufs : s'.bufs = s.bufs.set b x.withdraw)
      (next : pc' = .refund x.budgeted .ok ∨ pc' = .enterClosed (.free x.id x.budgeted)) :
      Spends cfg s (.swap b) s' pc'
  | release {pc s' pc'} (bytes : s'.bufBytes = int64 (s.bufBytes - pc.holds))
      (bufs : s'.bufs = s.bufs)
      (next : (∃ out, pc = .refund pc.holds out ∧ pc' = .done out) ∨
        ∃ e, pc = .refused pc.holds e ∧ (pc' = .latch e ∨ pc' = .done (.err (.rust e)))) :
      Spends cfg s pc s' pc'

variable {cfg : Config} {s s' : State} {pc pc' : Pc} {c : Choice}

theorem tail_plain (cfg : Config) (s : State) {after : Pc} (tail : after.tail = true) :
    Promises cfg s after ∧ after.marked = false := by
  unfold Pc.tail at tail
  split at tail
  all_goals first | exact ⟨trivial, rfl⟩ | cases tail

theorem failed_tail (v : Visit) : v.failed.tail = true := by
  cases v <;> rfl

theorem Moves.spends (moves : Moves cfg s pc s' pc') (promises : Promises cfg s pc) :
    Spends cfg s pc s' pc' := by
  have failed (v : Visit) := tail_plain cfg s (failed_tail v)
  cases moves with
  | badArg | isClosed | isPoisoned | tooMuch | latch | heap | second | enter | lock | inside | ask |
    unlimited =>
    exact .still rfl rfl rfl trivial rfl
  | tooLate | refuse | view => exact .still rfl rfl rfl rfl rfl
  | sized low high => exact .still rfl rfl rfl (by simp only [Promises]; omega) rfl
  | isOpen | isSound => exact .still rfl rfl rfl promises rfl
  | load _ room => exact .still rfl rfl rfl ⟨promises, room⟩ rfl
  | reserve => exact .reserve rfl rfl
  | retry => exact .still rfl rfl rfl promises.1 rfl
  | allocated | freed => exact .still (cross_bufBytes _) (cross_bufs _) rfl rfl rfl
  | refused next => exact .release rfl rfl (.inr ⟨_, rfl, next⟩)
  | refund => exact .release rfl rfl (.inl ⟨_, rfl, rfl⟩)
  | make => exact .hand rfl rfl
  | claim here mine next => exact .claim here mine rfl rfl next
  | shut | busy => exact .still rfl rfl (failed_holds _) (failed _).1 (failed _).2
  | cleared => exact .still rfl rfl (failed_holds _) (failed_tail _) rfl
  | unlock =>
    have plain := tail_plain cfg s promises
    exact .still rfl rfl rfl plain.1 plain.2

/-! ### The sum -/

theorem withdraw_held (x : Buf) : x.withdraw.held = 0 := rfl

/-- Small enough for an `int64`: the charges are below 2^62, or the budget leaves room for one more
buffer. -/
def Fits (cfg : Config) (s : State) : Prop :=
  s.charged < 2 ^ 62 ∨ cfg.bufBudget + maxBufferBytes < 2 ^ 63

structure Exact (cfg : Config) (s : State) : Prop where
  sum : s.bufBytes = s.charged
  within : s.charged ≤ cfg.bufBudget
  promises : ∀ pc ∈ s.users, Promises cfg s pc

theorem int64_same {x : Int} (low : 0 ≤ x) (high : x < 2 ^ 63) : int64 x = x := by
  unfold int64
  rw [Int.bmod_eq_of_le] <;> omega

/-- What a step of one call does to the sum of all charges. -/
theorem Spends.charged {i : Nat} (spends : Spends cfg s pc s' pc') (here : s.users[i]? = some pc)
    (promises : Promises cfg s pc) (users : s'.users = s.users.set i pc') :
    (s'.bufBytes = s.bufBytes ∧ s'.charged = s.charged) ∨
    (∃ n : Nat, (n : Int) ≤ maxBufferBytes ∧ int64 (s.bufBytes + n) ≤ cfg.bufBudget ∧
      s'.bufBytes = int64 (s.bufBytes + n) ∧ s'.charged = s.charged + n) ∨
    ∃ n : Nat, s'.bufBytes = int64 (s.bufBytes - n) ∧ s'.charged + n = s.charged := by
  have moved := census_set Pc.holds here pc'
  unfold State.charged
  rw [users]
  cases spends with
  | still bytes bufs same _ _ =>
    rw [bytes, bufs]
    exact .inl ⟨rfl, by omega⟩
  | @reserve n _ bytes bufs =>
    rw [bytes, bufs]
    refine .inr (.inl ⟨n, promises.1, promises.2, rfl, ?_⟩)
    simp only [Pc.holds, Visit.charge] at moved
    omega
  | hand bytes bufs =>
    rw [bytes, bufs, census_concat]
    simp only [Pc.holds] at moved
    refine .inl ⟨rfl, ?_⟩
    simp only [Buf.held, Bool.or_false, Bool.false_eq_true, if_false]
    omega
  | @claim b x _ _ found mine bytes bufs next =>
    rw [bytes, bufs]
    have taken := census_set Buf.held found x.withdraw
    have held : x.held = x.budgeted := by simp [Buf.held, mine, promises x found]
    have holds : pc'.holds = x.budgeted := by rcases next with rfl | rfl <;> rfl
    rw [withdraw_held] at taken
    simp only [Pc.holds] at moved
    exact .inl ⟨rfl, by omega⟩
  | release bytes bufs next =>
    rw [bytes, bufs]
    have none : pc'.holds = 0 := by
      rcases next with ⟨_, _, rfl⟩ | ⟨_, _, rfl | rfl⟩ <;> rfl
    exact .inr (.inr ⟨pc.holds, rfl, by omega⟩)

/-- No buffer becomes unreachable. -/
def Keeps (s s' : State) : Prop :=
  ∀ (b : Nat) (x : Buf), s'.bufs[b]? = some x → x.collected = true →
    ∃ y, s.bufs[b]? = some y ∧ y.collected = true

theorem Promises.keep (keeps : Keeps s s') (promises : Promises cfg s pc) : Promises cfg s' pc := by
  cases pc with
  | swap b =>
    intro x found
    by_contra gone
    obtain ⟨y, old, collected⟩ := keeps b x found (by simpa using gone)
    rw [promises y old] at collected
    cases collected
  | _ => exact promises

theorem keeps_concat {x : Buf} (fresh : x.collected = false) (bufs : s'.bufs = s.bufs ++ [x]) :
    Keeps s s' := by
  intro b y found collected
  rw [bufs] at found
  rcases getElem?_concat_cases found with old | ⟨_, rfl⟩
  · exact ⟨y, old, collected⟩
  · rw [fresh] at collected
    cases collected

theorem Spends.keeps (spends : Spends cfg s pc s' pc') : Keeps s s' := by
  cases spends with
  | still bytes bufs _ _ _ | reserve bytes bufs | release bytes bufs _ =>
    intro b x found collected
    exact ⟨x, bufs ▸ found, collected⟩
  | hand bytes bufs => exact keeps_concat rfl bufs
  | @claim b x _ _ here mine bytes bufs next =>
    intro b' y found collected
    rw [bufs] at found
    rcases getElem?_set_cases found with ⟨rfl, rfl⟩ | ⟨_, old⟩
    · exact ⟨x, here, collected⟩
    · exact ⟨y, old, collected⟩

theorem Spends.promised (spends : Spends cfg s pc s' pc') : Promises cfg s' pc' := by
  have keeps := spends.keeps
  cases spends with
  | still _ _ _ promises _ => exact promises.keep keeps
  | reserve => trivial
  | hand => trivial
  | claim _ _ _ _ next => rcases next with rfl | rfl <;> trivial
  | release _ _ next => rcases next with ⟨_, _, rfl⟩ | ⟨_, _, rfl | rfl⟩ <;> trivial

theorem Exact.user {i : Nat} (exact : Exact cfg s) (fits : Fits cfg s)
    (small : cfg.bufBudget < 2 ^ 63)
    (here : s.users[i]? = some pc) (spends : Spends cfg s pc s' pc')
    (users : s'.users = s.users.set i pc') : Exact cfg s' := by
  have mine := exact.promises pc (List.mem_of_getElem? here)
  have within := exact.within
  have sum := exact.sum
  have most : maxBufferBytes = 2 ^ 30 := rfl
  have promises : ∀ pc ∈ s'.users, Promises cfg s' pc := by
    intro other member
    rw [users] at member
    rcases mem_set_cases member with rfl | ⟨_, _, old⟩
    · exact spends.promised
    · exact (exact.promises other (List.mem_of_getElem? old)).keep spends.keeps
  rcases spends.charged here mine users with
    ⟨bytes, same⟩ | ⟨n, size, checked, bytes, more⟩ | ⟨n, bytes, less⟩
  · exact ⟨by omega, by omega, promises⟩
  · have room : s.bufBytes + n < 2 ^ 63 := by
      rcases fits with few | room <;> omega
    have whole := int64_same (by omega) room
    exact ⟨by omega, by omega, promises⟩
  · have whole : int64 (s.bufBytes - n) = s.bufBytes - n := int64_same (by omega) (by omega)
    exact ⟨by omega, by omega, promises⟩

/-! ### One step of the handle and its buffers -/

/-- A buffer nobody is charged for and everybody can reach. -/
def Buf.uncharged (x : Buf) : Prop := x.budgeted = 0 ∧ x.freed = false ∧ x.collected = false

-- Where a new call starts.
def Pc.starts (s : State) : Act → Pc → Prop
  | .newBuffer n, pc => pc = .size n
  | .bytes b, pc => ∃ x, s.bufs[b]? = some x ∧ (pc = .heap b ∨ pc = .enterClosed (.bytes b))
  | .free b, pc => ∃ x, s.bufs[b]? = some x ∧ x.collected = false ∧ pc = .swap b
  | _, _ => False

/-- Everything a step can do to the charges. -/
inductive Turn (cfg : Config) (s : State) : Act → State → Prop
  | base {a s'} (bytes : s'.bufBytes = s.bufBytes) (users : s'.users = s.users) (more : List Buf)
      (bufs : s'.bufs = s.bufs ++ more) (free : ∀ x ∈ more, x.uncharged) : Turn cfg s (.base a) s'
  | call {a s'} (pc : Pc) (starts : pc.starts s a) (bytes : s'.bufBytes = s.bufBytes)
      (bufs : s'.bufs = s.bufs) (users : s'.users = s.users ++ [pc]) : Turn cfg s a s'
  | collect {b s'} (x : Buf) (here : s.bufs[b]? = some x) (held : x.freed = false)
      (first : x.collected = false) (idle : ∀ pc ∈ s.users, pc ≠ .swap b)
      (bytes : s'.bufBytes = s.bufBytes)
      (bufs : s'.bufs = s.bufs.set b { x with collected := true })
      (users : s'.users = s.users ++ [.enterClosed (.free x.id x.budgeted)]) :
      Turn cfg s (.collect b) s'
  | user {i c s'} (pc : Pc) (s'' : State) (pc' : Pc) (here : s.users[i]? = some pc)
      (went : Moves cfg s pc s'' pc') (bytes : s'.bufBytes = s''.bufBytes)
      (bufs : s'.bufs = s''.bufs) (users : s'.users = s.users.set i pc') :
      Turn cfg s (.user i c) s'

theorem made_uncharged (s : Handle.State) (pc : Handle.Pc) : ∀ x ∈ made s pc, x.uncharged := by
  intro x member
  unfold made at member
  split at member
  · rw [List.mem_singleton.mp member]
    exact ⟨rfl, rfl, rfl⟩
  · split at member
    · cases member
    · rw [List.mem_singleton.mp member]
      exact ⟨rfl, rfl, rfl⟩
  · cases member

theorem madeBy_uncharged (s : State) (a : Handle.Act) : ∀ x ∈ s.madeBy a, x.uncharged := by
  unfold State.madeBy
  split
  · rename_i i c
    cases s.base.threads[i]? with
    | none => exact fun x member => nomatch member
    | some th => exact made_uncharged s.base th.pc
  · exact fun x member => nomatch member

theorem step_turn {a : Act} (went : s.step cfg a = some s') : Turn cfg s a s' := by
  cases a with
  | base a =>
    simp only [State.step, Option.ite_none_right_eq_some, Option.map_eq_some_iff] at went
    obtain ⟨_, base, _, rfl⟩ := went
    exact .base (cross_bufBytes _) (cross_users _) _ rfl (madeBy_uncharged s a)
  | newBuffer n =>
    cases went
    exact .call (.size n) rfl rfl rfl rfl
  | bytes b =>
    simp only [State.step] at went
    split at went
    · cases went
    · rename_i x here
      split at went
      · cases went
      · cases went
        refine .call _ ⟨x, here, ?_⟩ rfl rfl rfl
        split
        · exact .inl rfl
        · exact .inr rfl
  | free b =>
    simp only [State.step] at went
    split at went
    · cases went
    · rename_i x here
      split at went
      · cases went
      · rename_i kept
        cases went
        exact .call (.swap b) ⟨x, here, by simpa using kept, rfl⟩ rfl rfl rfl
  | collect b =>
    simp only [State.step] at went
    split at went
    · cases went
    · rename_i x here
      split at went
      · cases went
      · rename_i lost
        simp only [not_or, Bool.not_eq_true, List.any_eq_false] at lost
        obtain ⟨_, held, first, idle⟩ := lost
        cases went
        refine .collect x here held first ?_ rfl rfl rfl
        rintro _ member rfl
        have refers := idle _ member
        simp [Pc.refers] at refers
  | user i c =>
    simp only [State.step, Option.bind_eq_some_iff, Option.map_eq_some_iff] at went
    obtain ⟨pc, here, ⟨s'', pc'⟩, moved, rfl⟩ := went
    have moves := user_moves moved
    exact .user pc s'' pc' here moves rfl rfl (by rw [moves.users])

theorem Spends.congr {u : State} (spends : Spends cfg s pc u pc') (bytes : s'.bufBytes = u.bufBytes)
    (bufs : s'.bufs = u.bufs) : Spends cfg s pc s' pc' := by
  cases spends with
  | still bytes' bufs' same promises plain =>
    exact .still (bytes.trans bytes') (bufs.trans bufs') same promises plain
  | reserve bytes' bufs' => exact .reserve (bytes.trans bytes') (bufs.trans bufs')
  | hand bytes' bufs' => exact .hand (bytes.trans bytes') (bufs.trans bufs')
  | claim here mine bytes' bufs' next =>
    exact .claim here mine (bytes.trans bytes') (bufs.trans bufs') next
  | release bytes' bufs' next => exact .release (bytes.trans bytes') (bufs.trans bufs') next

theorem charged_append {more : List Buf} (bufs : s'.bufs = s.bufs ++ more)
    (free : ∀ x ∈ more, x.uncharged) (users : s'.users = s.users) : s'.charged = s.charged := by
  have none : census Buf.held more = 0 := by
    apply census_eq_zero
    intro x member
    obtain ⟨budgeted, freed, collected⟩ := free x member
    simp [Buf.held, budgeted]
  rw [State.charged, State.charged, bufs, users, census_append, none]
  rfl

theorem keeps_append {more : List Buf} (bufs : s'.bufs = s.bufs ++ more)
    (free : ∀ x ∈ more, x.uncharged) : Keeps s s' := by
  intro b x found collected
  rw [bufs] at found
  rcases Nat.lt_or_ge b s.bufs.length with inside | outside
  · rw [List.getElem?_append_left inside] at found
    exact ⟨x, found, collected⟩
  · rw [List.getElem?_append_right outside] at found
    rw [(free x (List.mem_of_getElem? found)).2.2] at collected
    cases collected

theorem starts_plain (cfg : Config) {a : Act} (starts : pc.starts s a) :
    pc.holds = 0 ∧ Promises cfg s pc := by
  cases a with
  | newBuffer n => exact starts ▸ ⟨rfl, trivial⟩
  | bytes b =>
    obtain ⟨x, _, rfl | rfl⟩ := starts
    · exact ⟨rfl, trivial⟩
    · exact ⟨rfl, trivial⟩
  | free b =>
    obtain ⟨x, here, kept, rfl⟩ := starts
    refine ⟨rfl, fun y found => ?_⟩
    cases here.symm.trans found
    exact kept
  | base a | collect b | user i c => exact starts.elim

/-- The sum of the charges stays `bufBytes`, and within the budget. -/
theorem Exact.step {a : Act} (exact : Exact cfg s) (fits : Fits cfg s)
    (small : cfg.bufBudget < 2 ^ 63) (turn : Turn cfg s a s') : Exact cfg s' := by
  have sum := exact.sum
  have within := exact.within
  cases turn with
  | base bytes users more bufs free =>
    have same := charged_append bufs free users
    refine ⟨by omega, by omega, ?_⟩
    intro pc member
    exact (exact.promises pc (users ▸ member)).keep (keeps_append bufs free)
  | call pc starts bytes bufs users =>
    obtain ⟨holds, promises⟩ := starts_plain cfg starts
    have same : s'.charged = s.charged := by
      rw [State.charged, State.charged, bufs, users, census_concat, holds]
      rfl
    have keeps : Keeps s s' := fun b x found collected => ⟨x, bufs ▸ found, collected⟩
    refine ⟨by omega, by omega, ?_⟩
    intro other member
    rw [users] at member
    rcases List.mem_append.mp member with old | new
    · exact (exact.promises other old).keep keeps
    · rw [List.mem_singleton.mp new]
      exact promises.keep keeps
  | @collect b _ x here held first idle bytes bufs users =>
    have same : s'.charged = s.charged := by
      have taken := census_set Buf.held here { x with collected := true }
      have before : x.held = x.budgeted := by simp [Buf.held, held, first]
      have after : Buf.held { x with collected := true } = 0 := by simp [Buf.held]
      rw [State.charged, State.charged, bufs, users, census_concat]
      simp only [Pc.holds, Visit.charge]
      omega
    refine ⟨by omega, by omega, ?_⟩
    intro other member
    rw [users] at member
    rcases List.mem_append.mp member with old | new
    · have before := exact.promises other old
      cases other with
      | swap b' =>
        intro y found
        rw [bufs] at found
        rcases getElem?_set_cases found with ⟨rfl, _⟩ | ⟨_, old'⟩
        · exact absurd rfl (idle _ old)
        · exact before y old'
      | _ => exact before
    · rw [List.mem_singleton.mp new]
      trivial
  | user pc s'' pc' here went bytes bufs users =>
    have spends := went.spends (exact.promises pc (List.mem_of_getElem? here))
    exact exact.user fits small here (spends.congr bytes bufs) users

end Gusset.Buffer
