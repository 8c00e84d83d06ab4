import Gusset.Buffer.Budget

/-! The books of every call on the budget: what each has added to `bufBytes` or taken off it, and
from them that a charge is released once and that a call that fails leaves nothing behind. -/
namespace Gusset.Buffer
open Foundation

/-! ### Whose step it is -/

inductive Kind | newBuffer (n : Int) | bytes (b : Nat) | free (b : Nat) | cleanup (b : Nat)
  deriving DecidableEq, Repr

/-- The buffer a call is to release. -/
def Kind.releases : Kind → Option Nat
  | .free b | .cleanup b => some b
  | _ => none

def Visit.allocates : Visit → Bool
  | .alloc _ _ => true
  | _ => false

def Visit.views : Visit → Bool
  | .bytes _ => true
  | _ => false

def Visit.releases : Visit → Bool
  | .free _ _ => true
  | _ => false

def Answer.failed : Answer → Bool
  | .err _ => true
  | _ => false

def Answer.released : Answer → Bool
  | .ok | .err _ => true
  | _ => false

-- The places of NewBuffer.
def Pc.allocates : Pc → Bool
  | .size _ | .closed _ | .poisoned _ | .reserve _ | .exchange _ _ | .bufAlloc _ _ | .make _ _ _
  | .refused _ _ | .latch _ | .done (.buffer _) => true
  | .enterClosed v | .tryRLock v | .enterPtr v | .inside v => v.allocates
  | .unlock after => after.allocates
  | .refund _ out | .done out => out.failed
  | .heap _ | .swap _ => false

-- The places of Bytes.
def Pc.views : Pc → Bool
  | .heap _ | .done (.view _) => true
  | .enterClosed v | .tryRLock v | .enterPtr v | .inside v => v.views
  | .unlock after => after.views
  | _ => false

-- The places of Free after its swap, and of the cleanup.
def Pc.releases : Pc → Bool
  | .enterClosed v | .tryRLock v | .enterPtr v | .inside v => v.releases
  | .unlock after => after.releases
  | .refund _ out | .done out => out.released
  | _ => false

def Kind.fits : Kind → Pc → Bool
  | .newBuffer _, pc => pc.allocates
  | .bytes _, pc => pc.views
  | .free b, pc => pc.releases || pc == .swap b
  | .cleanup _, pc => pc.releases

variable {cfg : Config} {s s' : State} {pc pc' : Pc} {c : Choice}

theorem failed_allocates (v : Visit) : v.failed.allocates = v.allocates := by
  cases v <;> rfl

theorem failed_views (v : Visit) (views : v.views = true) : v.failed.views = true := by
  cases v <;> first | rfl | cases views

theorem failed_releases (v : Visit) (releases : v.releases = true) : v.failed.releases = true := by
  cases v <;> first | rfl | cases releases

theorem done_allocates {out : Answer} (failed : out.failed = true) :
    (Pc.done out).allocates = true := by
  cases out <;> first | rfl | cases failed

theorem Moves.allocates (moves : Moves cfg s pc s' pc') (fits : pc.allocates = true) :
    pc'.allocates = true := by
  cases moves with
  | heap | view | second | claim | freed => cases fits
  | refused next =>
    rcases next with rfl | rfl
    · rfl
    · rfl
  | refund => exact done_allocates fits
  | shut | busy | cleared => exact (failed_allocates _).trans fits
  | enter | lock | inside | unlock => exact fits
  | _ => rfl

theorem Moves.views (moves : Moves cfg s pc s' pc') (fits : pc.views = true) :
    pc'.views = true := by
  cases moves with
  | heap | view => rfl
  | shut | busy | cleared => exact failed_views _ fits
  | enter | lock | inside | unlock => exact fits
  | _ => cases fits

theorem Moves.releases (moves : Moves cfg s pc s' pc')
    (fits : pc.releases = true ∨ ∃ b, pc = .swap b) : pc'.releases = true := by
  have later (other : ∀ b, pc ≠ .swap b) : pc.releases = true :=
    fits.resolve_right fun ⟨b, same⟩ => other b same
  cases moves with
  | second => rfl
  | claim _ _ next =>
    rcases next with rfl | rfl
    · rfl
    · rfl
  | freed next =>
    rcases next with rfl | ⟨e, rfl⟩
    · rfl
    · rfl
  | refund | enter | lock | inside | unlock => exact later fun b same => by cases same
  | shut | busy | cleared => exact failed_releases _ (later fun b same => by cases same)
  | _ => cases later fun b same => by cases same

theorem views_charge (v : Visit) (views : v.views = true) : v.charge = 0 := by
  cases v <;> first | rfl | cases views

theorem views_holds (views : pc.views = true) : pc.holds = 0 := by
  induction pc with
  | enterClosed v | tryRLock v | enterPtr v | inside v => exact views_charge v views
  | unlock after ih => exact ih views
  | heap b | done out => rfl
  | _ => cases views

theorem Moves.fits {kind : Kind} (moves : Moves cfg s pc s' pc') (fits : kind.fits pc = true) :
    kind.fits pc' = true := by
  cases kind with
  | newBuffer n => exact moves.allocates fits
  | bytes b => exact moves.views fits
  | free b =>
    simp only [Kind.fits, Bool.or_eq_true, beq_iff_eq] at fits ⊢
    exact .inl (moves.releases (fits.imp_right fun same => ⟨b, same⟩))
  | cleanup b => exact moves.releases (.inl fits)

/-! ### The books -/

/-- A call and what its steps have done to `bufBytes` so far. -/
structure Call where
  kind : Kind
  net : Int
  deriving DecidableEq, Repr

/-- The state, and the books of every call in `users`, which no line of the program reads. -/
structure Audit where
  core : State
  calls : List Call

def Act.opens : Act → List Call
  | .newBuffer n => [⟨.newBuffer n, 0⟩]
  | .bytes b => [⟨.bytes b, 0⟩]
  | .free b => [⟨.free b, 0⟩]
  | .collect b => [⟨.cleanup b, 0⟩]
  | _ => []

def Call.move (call : Call) (delta : Int) : Call := { call with net := call.net + delta }

namespace Audit

def opened : Audit := ⟨.opened, []⟩

def record (calls : List Call) (delta : Int) : Act → List Call
  | .user i _ => calls.modify i fun call => call.move delta
  | a => calls ++ a.opens

def step (cfg : Config) (a : Audit) (act : Act) : Option Audit :=
  (a.core.step cfg act).map fun core =>
    ⟨core, record a.calls (core.bufBytes - a.core.bufBytes) act⟩

/-- Call `i` stands here, with these books. -/
def At (a : Audit) (i : Nat) (pc : Pc) (call : Call) : Prop :=
  a.core.users[i]? = some pc ∧ a.calls[i]? = some call

end Audit

/-- A run, as long as the sums are small enough for an `int64`. -/
def Audits (cfg : Config) : Audit → Prop :=
  Reachable (· = .opened) fun a a' => Fits cfg a.core ∧ ∃ act, a.step cfg act = some a'

/-- What NewBuffer has reserved is what it holds, and in the end what its buffer holds. -/
def Made (bufs : List Buf) (net : Int) : Pc → Prop
  | .done (.buffer b) => ∃ x, bufs[b]? = some x ∧ net = x.budgeted
  | pc => net = pc.holds

/-- What a call on a buffer has taken over from it. -/
def Call.took (call : Call) (pc : Pc) : Int := pc.holds - call.net

/-- No call on the buffer has taken its charge. -/
def Untouched (a : Audit) (b : Nat) : Prop :=
  ∀ i pc call, a.At i pc call → call.kind.releases = some b → call.took pc = 0

/-- One call on the buffer has taken its charge, and no other has. -/
def Taken (a : Audit) (b : Nat) (x : Buf) : Prop :=
  ∃ i pc call, a.At i pc call ∧ call.kind.releases = some b ∧ call.took pc = x.budgeted ∧
    ∀ k pc' call', a.At k pc' call' → call'.kind.releases = some b → k ≠ i → call'.took pc' = 0

structure Booked (a : Audit) : Prop where
  matched : a.calls.length = a.core.users.length
  fits : ∀ i pc call, a.At i pc call → call.kind.fits pc = true
  made : ∀ i pc call n, a.At i pc call → call.kind = .newBuffer n → Made a.core.bufs call.net pc
  viewed : ∀ i pc call b, a.At i pc call → call.kind = .bytes b → call.net = 0
  paid : ∀ i pc call b, a.At i pc call → call.kind.releases = some b →
    b < a.core.bufs.length ∧ call.net ≤ 0 ∧ (call.net = 0 ∨ pc.holds = 0)
  held : ∀ b x, a.core.bufs[b]? = some x → x.freed = false → x.collected = false → Untouched a b
  gone : ∀ b x, a.core.bufs[b]? = some x → (x.freed = true ∨ x.collected = true) → Taken a b x

/-! ### One step -/

variable {a a' : Audit} {act : Act} {i k b : Nat} {call : Call}

theorem At.unique {pc' : Pc} {call' : Call} (here : a.At i pc call) (again : a.At i pc' call') :
    pc = pc' ∧ call = call' :=
  ⟨Option.some.inj (here.1.symm.trans again.1), Option.some.inj (here.2.symm.trans again.2)⟩

/-- Every call of the one audit is a call of the other that has taken as much; what is new has
taken nothing. -/
structure Follows (a a' : Audit) (b : Nat) : Prop where
  back : ∀ k pc call, a'.At k pc call → call.kind.releases = some b → call.took pc = 0 ∨
    ∃ pc' call', a.At k pc' call' ∧ call'.kind.releases = some b ∧ call.took pc = call'.took pc'
  forth : ∀ k pc call, a.At k pc call → call.kind.releases = some b →
    ∃ pc' call', a'.At k pc' call' ∧ call'.kind.releases = some b ∧ call'.took pc' = call.took pc

theorem Untouched.follow (follows : Follows a a' b) (untouched : Untouched a b) :
    Untouched a' b := by
  intro k pc call here on
  rcases follows.back k pc call here on with none | ⟨pc', call', before, on', same⟩
  · exact none
  · rw [same]
    exact untouched k pc' call' before on'

theorem Taken.follow {x y : Buf} (follows : Follows a a' b) (taken : Taken a b x)
    (same : y.budgeted = x.budgeted) : Taken a' b y := by
  obtain ⟨i, pc, call, here, on, took, others⟩ := taken
  obtain ⟨pc', call', here', on', took'⟩ := follows.forth i pc call here on
  refine ⟨i, pc', call', here', on', ?_, ?_⟩
  · rw [took', took, same]
  · intro k pc'' call'' there on'' differs
    rcases follows.back k pc'' call'' there on'' with none | ⟨p, c, before, on, took⟩
    · exact none
    · rw [took]
      exact others k p c before on differs

theorem at_concat {pc' : Pc} {call' : Call} (matched : a.calls.length = a.core.users.length)
    (users : a'.core.users = a.core.users ++ [pc']) (calls : a'.calls = a.calls ++ [call'])
    (here : a'.At i pc call) :
    a.At i pc call ∨ (i = a.core.users.length ∧ pc = pc' ∧ call = call') := by
  obtain ⟨user, book⟩ := here
  rw [users] at user
  rw [calls] at book
  rcases getElem?_concat_cases user with old | ⟨last, rfl⟩
  · rcases getElem?_concat_cases book with old' | ⟨last, _⟩
    · exact .inl ⟨old, old'⟩
    · have inside := (List.getElem?_eq_some_iff.mp old).1
      omega
  · rcases getElem?_concat_cases book with old | ⟨_, rfl⟩
    · have inside := (List.getElem?_eq_some_iff.mp old).1
      omega
    · exact .inr ⟨last, rfl, rfl⟩

theorem at_old {pc' : Pc} {call' : Call} (users : a'.core.users = a.core.users ++ [pc'])
    (calls : a'.calls = a.calls ++ [call']) (here : a.At i pc call) : a'.At i pc call := by
  obtain ⟨user, book⟩ := here
  have inside := (List.getElem?_eq_some_iff.mp user).1
  have inside' := (List.getElem?_eq_some_iff.mp book).1
  exact ⟨by rw [users, List.getElem?_append_left inside, user],
    by rw [calls, List.getElem?_append_left inside', book]⟩

theorem at_new {pc' : Pc} {call' : Call} (matched : a.calls.length = a.core.users.length)
    (users : a'.core.users = a.core.users ++ [pc']) (calls : a'.calls = a.calls ++ [call']) :
    a'.At a.core.users.length pc' call' := by
  constructor
  · rw [users, List.getElem?_concat_length]
  · rw [calls, ← matched, List.getElem?_concat_length]

/-- A new call that holds nothing. -/
theorem follows_concat {pc' : Pc} {call' : Call} (matched : a.calls.length = a.core.users.length)
    (users : a'.core.users = a.core.users ++ [pc']) (calls : a'.calls = a.calls ++ [call'])
    (none : call'.kind.releases = some b → call'.took pc' = 0) : Follows a a' b where
  back k pc call here on := by
    rcases at_concat matched users calls here with old | ⟨_, rfl, rfl⟩
    · exact .inr ⟨pc, call, old, on, rfl⟩
    · exact .inl (none on)
  forth k pc call here on := ⟨pc, call, at_old users calls here, on, rfl⟩

theorem at_set {delta : Int} {pc₀ pc₁ : Pc} {call₀ : Call} (here : a.At i pc₀ call₀)
    (users : a'.core.users = a.core.users.set i pc₁)
    (calls : a'.calls = a.calls.modify i fun call => call.move delta) (there : a'.At k pc call) :
    (k ≠ i ∧ a.At k pc call) ∨ (k = i ∧ pc = pc₁ ∧ call = call₀.move delta) := by
  obtain ⟨user, book⟩ := there
  rw [users] at user
  rw [calls, List.getElem?_modify] at book
  rcases getElem?_set_cases user with ⟨rfl, rfl⟩ | ⟨differs, old⟩
  · rw [here.2] at book
    have moved : call₀.move delta = call := by simpa using book
    exact .inr ⟨rfl, rfl, moved.symm⟩
  · exact .inl ⟨differs, old, by simpa [Ne.symm differs] using book⟩

theorem at_moved {delta : Int} {pc₀ pc₁ : Pc} {call₀ : Call} (here : a.At i pc₀ call₀)
    (users : a'.core.users = a.core.users.set i pc₁)
    (calls : a'.calls = a.calls.modify i fun call => call.move delta) :
    a'.At i pc₁ (call₀.move delta) := by
  constructor
  · rw [users, getElem?_set_of_some here.1, if_pos rfl]
  · rw [calls, List.getElem?_modify, here.2]
    simp

theorem at_other {delta : Int} {pc₁ : Pc} (users : a'.core.users = a.core.users.set i pc₁)
    (calls : a'.calls = a.calls.modify i fun call => call.move delta) (differs : k ≠ i)
    (there : a.At k pc call) : a'.At k pc call := by
  constructor
  · rw [users, List.getElem?_set_ne (Ne.symm differs), there.1]
  · rw [calls, List.getElem?_modify, there.2]
    simp [Ne.symm differs]

/-- A step of a call that gives back as much as it lets go of. -/
theorem follows_set {delta : Int} {pc₀ pc₁ : Pc} {call₀ : Call} (here : a.At i pc₀ call₀)
    (users : a'.core.users = a.core.users.set i pc₁)
    (calls : a'.calls = a.calls.modify i fun call => call.move delta)
    (same : call₀.kind.releases = some b → (pc₁.holds : Int) = pc₀.holds + delta) :
    Follows a a' b where
  back k pc call there on := by
    rcases at_set here users calls there with ⟨_, old⟩ | ⟨rfl, rfl, rfl⟩
    · exact .inr ⟨pc, call, old, on, rfl⟩
    · refine .inr ⟨pc₀, call₀, here, on, ?_⟩
      have moved := same on
      simp only [Call.took, Call.move]
      omega
  forth k pc call there on := by
    by_cases own : k = i
    · subst own
      obtain ⟨rfl, rfl⟩ := At.unique there here
      refine ⟨pc₁, call.move delta, at_moved here users calls, on, ?_⟩
      have moved := same on
      simp only [Call.took, Call.move]
      omega
    · exact ⟨pc, call, at_other users calls own there, on, rfl⟩

/-- What a step of a call does to the charges, in sums that did not wrap. -/
inductive Pays (s : State) : Pc → State → Pc → Int → Prop
  | still {pc : Pc} {s' : State} {pc' : Pc} (bufs : s'.bufs = s.bufs) (same : pc'.holds = pc.holds)
      (plain : pc'.marked = false) : Pays s pc s' pc' 0
  | reserve {n : Nat} {cur : Int} {s' : State} (bufs : s'.bufs = s.bufs) :
      Pays s (.exchange n cur) s' (.enterClosed (.alloc n n)) n
  | hand {id : Handle.TakeId} {data : Handle.Bytes} {charge : Nat} {s' : State}
      (bufs : s'.bufs = s.bufs ++ [⟨id, some data, false, charge, false⟩]) :
      Pays s (.make id data charge) s' (.done (.buffer s.bufs.length)) 0
  | claim {b : Nat} {x : Buf} {s' : State} {pc' : Pc} (here : s.bufs[b]? = some x)
      (mine : x.freed = false) (first : x.collected = false)
      (bufs : s'.bufs = s.bufs.set b x.withdraw)
      (holds : pc'.holds = x.budgeted) : Pays s (.swap b) s' pc' 0
  | release {pc : Pc} {s' : State} {pc' : Pc} (bufs : s'.bufs = s.bufs)
      (next : (∃ out, pc = .refund pc.holds out ∧ pc' = .done out) ∨
        ∃ e, pc = .refused pc.holds e ∧ (pc' = .latch e ∨ pc' = .done (.err (.rust e)))) :
      Pays s pc s' pc' (-pc.holds)

theorem Spends.pays (spends : Spends cfg s pc s' pc') (exact : Exact cfg s) (fits : Fits cfg s)
    (small : cfg.bufBudget < 2 ^ 63) (here : s.users[i]? = some pc) :
    Pays s pc s' pc' (s'.bufBytes - s.bufBytes) := by
  have promises := exact.promises pc (List.mem_of_getElem? here)
  have most : maxBufferBytes = 2 ^ 30 := rfl
  have sum := exact.sum
  have within := exact.within
  cases spends with
  | still bytes bufs same _ plain =>
    rw [bytes, Int.sub_self]
    exact .still bufs same plain
  | @reserve n _ bytes bufs =>
    have size : (n : Int) ≤ maxBufferBytes := promises.1
    have whole : int64 (s.bufBytes + n) = s.bufBytes + n := by
      refine int64_same (by omega) ?_
      rcases fits with few | room <;> omega
    have delta : s'.bufBytes - s.bufBytes = n := by omega
    rw [delta]
    exact .reserve bufs
  | hand bytes bufs =>
    rw [bytes, Int.sub_self]
    exact .hand bufs
  | claim found mine bytes bufs next =>
    rw [bytes, Int.sub_self]
    refine .claim found mine (promises _ found) bufs ?_
    rcases next with rfl | rfl <;> rfl
  | release bytes bufs next =>
    have held : pc.holds ≤ s.charged :=
      Nat.le_trans (le_census Pc.holds here) (Nat.le_add_left _ _)
    have whole : int64 (s.bufBytes - pc.holds) = s.bufBytes - pc.holds :=
      int64_same (by omega) (by omega)
    have delta : s'.bufBytes - s.bufBytes = -pc.holds := by omega
    rw [delta]
    exact .release bufs next

/-- Only a call of Free swaps, and only its own buffer. -/
theorem swap_releases {kind : Kind} (fits : kind.fits (.swap b) = true) :
    kind.releases = some b := by
  cases kind with
  | free b' =>
    have same : b = b' := by simpa [Kind.fits, Pc.releases] using fits
    rw [same]
    rfl
  | newBuffer n | bytes b' | cleanup b' => cases fits

/-- What a step of a call on a buffer does, unless it is the swap. -/
theorem Pays.releasing {delta : Int} {kind : Kind} (pays : Pays s pc s' pc' delta)
    (fits : kind.fits pc = true) (on : kind.releases = some b) (later : ∀ b, pc ≠ .swap b) :
    (delta = 0 ∧ pc'.holds = pc.holds) ∨ (delta = -pc.holds ∧ pc'.holds = 0) := by
  cases pays with
  | still bufs same plain => exact .inl ⟨rfl, same⟩
  | reserve => cases kind <;> simp_all [Kind.fits, Kind.releases, Pc.releases]
  | hand => cases kind <;> simp_all [Kind.fits, Kind.releases, Pc.releases]
  | claim => exact absurd rfl (later _)
  | release bufs next =>
    refine .inr ⟨rfl, ?_⟩
    rcases next with ⟨_, _, rfl⟩ | ⟨_, _, rfl | rfl⟩ <;> rfl

/-- The swap of Free: it takes the charge over, or another call of Free was first. -/
theorem Pays.swapping {delta : Int} (pays : Pays s (.swap b) s' pc' delta) :
    (delta = 0 ∧ pc'.holds = 0 ∧ s'.bufs = s.bufs) ∨
    ∃ x, s.bufs[b]? = some x ∧ x.freed = false ∧ x.collected = false ∧
      s'.bufs = s.bufs.set b x.withdraw ∧ pc'.holds = x.budgeted ∧ delta = 0 := by
  cases pays with
  | still bufs same plain => exact .inl ⟨rfl, same, bufs⟩
  | claim here mine first bufs holds => exact .inr ⟨_, here, mine, first, bufs, holds, rfl⟩
  | release bufs next => rcases next with ⟨_, same, _⟩ | ⟨_, same, _⟩ <;> cases same

/-- Where the buffers of a step that is no swap come from. -/
theorem Pays.bufs {delta : Int} (pays : Pays s pc s' pc' delta) (later : ∀ b, pc ≠ .swap b) :
    s'.bufs = s.bufs ∨ ∃ x, s'.bufs = s.bufs ++ [x] ∧ x.freed = false ∧ x.collected = false := by
  cases pays with
  | still bufs | reserve bufs | release bufs => exact .inl bufs
  | hand bufs => exact .inr ⟨_, bufs, rfl, rfl⟩
  | claim => exact absurd rfl (later _)

/-- The buffers there were keep their charges, and stay freed or collected. -/
def Lasting (bufs bufs' : List Buf) : Prop :=
  ∀ (b : Nat) (x : Buf), bufs[b]? = some x → ∃ y, bufs'[b]? = some y ∧ y.budgeted = x.budgeted ∧
    (x.freed = true → y.freed = true) ∧ (x.collected = true → y.collected = true)

theorem lasting_set {bufs : List Buf} {x y : Buf} (here : bufs[b]? = some x)
    (same : y.budgeted = x.budgeted) (freed : x.freed = true → y.freed = true)
    (collected : x.collected = true → y.collected = true) : Lasting bufs (bufs.set b y) := by
  intro b' z found
  by_cases own : b' = b
  · subst own
    cases here.symm.trans found
    exact ⟨y, by rw [getElem?_set_of_some here, if_pos rfl], same, freed, collected⟩
  · exact ⟨z, by rw [List.getElem?_set_ne (Ne.symm own), found], rfl, id, id⟩

theorem lasting_append (bufs more : List Buf) : Lasting bufs (bufs ++ more) := by
  intro b x found
  have inside := (List.getElem?_eq_some_iff.mp found).1
  exact ⟨x, by rw [List.getElem?_append_left inside, found], rfl, id, id⟩

theorem lasting_same {bufs bufs' : List Buf} (same : bufs' = bufs) : Lasting bufs bufs' :=
  fun _ x found => ⟨x, same ▸ found, rfl, id, id⟩

theorem Lasting.inside {bufs bufs' : List Buf} (lasting : Lasting bufs bufs')
    (below : b < bufs.length) : b < bufs'.length := by
  obtain ⟨y, found, _⟩ := lasting b _ (List.getElem?_eq_getElem below)
  exact (List.getElem?_eq_some_iff.mp found).1

theorem Pays.lasting {delta : Int} (pays : Pays s pc s' pc' delta) : Lasting s.bufs s'.bufs := by
  cases pays with
  | still bufs _ _ | reserve bufs | release bufs _ => exact lasting_same bufs
  | hand bufs =>
    rw [bufs]
    exact lasting_append _ _
  | claim here _ _ bufs _ =>
    rw [bufs]
    exact lasting_set here rfl (fun _ => rfl) id

theorem Made.last {bufs bufs' : List Buf} {net : Int} (lasting : Lasting bufs bufs')
    (made : Made bufs net pc) : Made bufs' net pc := by
  unfold Made at made ⊢
  split
  · rename_i b
    obtain ⟨x, found, same⟩ := made
    obtain ⟨y, found', same', _⟩ := lasting b x found
    exact ⟨y, found', by omega⟩
  · rename_i other
    split at made
    · rename_i b
      exact absurd rfl (other b)
    · exact made

theorem made_open {bufs : List Buf} {net : Int} (made : Made bufs net pc)
    (running : ∀ out, pc ≠ .done out) : net = pc.holds := by
  unfold Made at made
  split at made
  · rename_i b
    exact absurd rfl (running _)
  · exact made

theorem made_plain {bufs : List Buf} {net : Int} (plain : pc.marked = false)
    (same : net = pc.holds) : Made bufs net pc := by
  unfold Made
  split
  · cases plain
  · exact same

/-- NewBuffer has added to `bufBytes` what it holds, until it hands it to its buffer. -/
theorem Made.pays {delta net : Int} (made : Made s.bufs net pc) (fits : pc.allocates = true)
    (running : ∀ out, pc ≠ .done out) (pays : Pays s pc s' pc' delta) :
    Made s'.bufs (net + delta) pc' := by
  have same := made_open made running
  cases pays with
  | still bufs holds plain => exact made_plain plain (by omega)
  | reserve bufs => exact made_plain rfl (by simp only [Pc.holds, Visit.charge] at same ⊢; omega)
  | hand bufs =>
    refine ⟨_, by rw [bufs, List.getElem?_concat_length], ?_⟩
    rw [Int.add_zero]
    exact same
  | claim => cases fits
  | release bufs next =>
    have none : net + -(pc.holds : Int) = 0 := by omega
    rw [none]
    rcases next with ⟨out, isRefund, rfl⟩ | ⟨e, _, rfl | rfl⟩
    · rw [isRefund] at fits
      cases out with
      | err e => exact made_plain rfl rfl
      | _ => cases fits
    · exact made_plain rfl rfl
    · exact made_plain rfl rfl

/-- Bytes moves no charge. -/
theorem Pays.viewing {delta : Int} (pays : Pays s pc s' pc' delta) (views : pc.views = true) :
    delta = 0 := by
  cases pays with
  | still | hand | claim => rfl
  | reserve => cases views
  | release bufs next => rw [views_holds views]; rfl

section Step
variable {pc₀ pc₁ : Pc} {call₀ : Call} {delta : Int}

/-- A charge is where it was, or the call whose step it is has let go of it. -/
theorem Booked.follows (booked : Booked a) (here : a.At i pc₀ call₀)
    (pays : Pays a.core pc₀ a'.core pc₁ delta)
    (users : a'.core.users = a.core.users.set i pc₁)
    (calls : a'.calls = a.calls.modify i fun call => call.move delta)
    (other : pc₀ ≠ .swap b ∨ a'.core.bufs = a.core.bufs) : Follows a a' b := by
  have fits := booked.fits i pc₀ call₀ here
  refine follows_set here users calls fun on => ?_
  by_cases swap : ∃ b, pc₀ = .swap b
  · obtain ⟨b', rfl⟩ := swap
    have same : b' = b := Option.some.inj ((swap_releases fits).symm.trans on)
    subst same
    have still := other.resolve_left (fun no => no rfl)
    rcases pays.swapping with ⟨rfl, none, _⟩ | ⟨x, found, mine, _, bufs, _⟩
    · rw [none]
      rfl
    · rw [still] at bufs
      have again : a.core.bufs[b']? = some x.withdraw := by
        rw [bufs, getElem?_set_of_some found, if_pos rfl]
      rw [found] at again
      have freed := congrArg Buf.freed (Option.some.inj again)
      rw [mine] at freed
      cases freed
  · rcases pays.releasing fits on (fun b same => swap ⟨b, same⟩) with ⟨rfl, same⟩ | ⟨rfl, none⟩
    · omega
    · omega

/-- A call on a buffer gives back at most once what it holds. -/
theorem Booked.pays (booked : Booked a) (here : a.At i pc₀ call₀)
    (pays : Pays a.core pc₀ a'.core pc₁ delta) (on : call₀.kind.releases = some b) :
    (call₀.move delta).net ≤ 0 ∧ ((call₀.move delta).net = 0 ∨ pc₁.holds = 0) := by
  have fits := booked.fits i pc₀ call₀ here
  obtain ⟨_, sign, one⟩ := booked.paid i pc₀ call₀ b here on
  simp only [Call.move]
  by_cases swap : ∃ b, pc₀ = .swap b
  · obtain ⟨b', rfl⟩ := swap
    rcases pays.swapping with ⟨rfl, none, _⟩ | ⟨x, found, mine, first, _, _, rfl⟩
    · exact ⟨by omega, .inr none⟩
    · have took := booked.held b' x found mine first i _ call₀ here (swap_releases fits)
      simp only [Call.took, Pc.holds] at took
      exact ⟨by omega, .inl (by omega)⟩
  · rcases pays.releasing fits on (fun b same => swap ⟨b, same⟩) with ⟨rfl, same⟩ | ⟨rfl, none⟩
    · exact ⟨by omega, by omega⟩
    · exact ⟨by omega, .inr none⟩

/-- Where a buffer after the step was before it. -/
theorem Booked.source (booked : Booked a) (here : a.At i pc₀ call₀)
    (pays : Pays a.core pc₀ a'.core pc₁ delta)
    (users : a'.core.users = a.core.users.set i pc₁)
    (calls : a'.calls = a.calls.modify i fun call => call.move delta) {x : Buf}
    (found : a'.core.bufs[b]? = some x) :
    (a.core.bufs[b]? = some x ∧ Follows a a' b) ∨
    (b = a.core.bufs.length ∧ x.freed = false ∧ x.collected = false) ∨
    (pc₀ = .swap b ∧ ∃ y, a.core.bufs[b]? = some y ∧ y.freed = false ∧ y.collected = false ∧
      x = y.withdraw ∧ pc₁.holds = y.budgeted ∧ delta = 0) := by
  by_cases swap : ∃ b, pc₀ = .swap b
  · obtain ⟨b', rfl⟩ := swap
    rcases pays.swapping with ⟨_, _, bufs⟩ | ⟨y, old, mine, first, bufs, holds, none⟩
    · exact .inl ⟨bufs ▸ found, booked.follows here pays users calls (.inr bufs)⟩
    · rw [bufs] at found
      rcases getElem?_set_cases found with ⟨rfl, same⟩ | ⟨differs, still⟩
      · exact .inr (.inr ⟨rfl, y, old, mine, first, same, holds, none⟩)
      · refine .inl ⟨still, booked.follows here pays users calls (.inl ?_)⟩
        rintro same
        cases same
        exact differs rfl
  · have later : ∀ b, pc₀ ≠ .swap b := fun b same => swap ⟨b, same⟩
    have follows := booked.follows here pays users calls (.inl (later b))
    rcases pays.bufs later with bufs | ⟨y, bufs, freed, collected⟩
    · exact .inl ⟨bufs ▸ found, follows⟩
    · rw [bufs] at found
      rcases getElem?_concat_cases found with old | ⟨last, rfl⟩
      · exact .inl ⟨old, follows⟩
      · exact .inr (.inl ⟨last, freed, collected⟩)

/-- A step of one call keeps the books. -/
theorem Booked.user (booked : Booked a) (here : a.At i pc₀ call₀)
    (moves : Moves cfg a.core pc₀ s' pc₁) (pays : Pays a.core pc₀ a'.core pc₁ delta)
    (users : a'.core.users = a.core.users.set i pc₁)
    (calls : a'.calls = a.calls.modify i fun call => call.move delta) : Booked a' := by
  have fits := booked.fits i pc₀ call₀ here
  have lasting := pays.lasting
  have running : ∀ out, pc₀ ≠ .done out := by
    rintro out rfl
    cases moves
  constructor
  · rw [users, calls, List.length_modify, List.length_set]
    exact booked.matched
  · intro k pc call there
    rcases at_set here users calls there with ⟨_, old⟩ | ⟨rfl, rfl, rfl⟩
    · exact booked.fits k pc call old
    · exact moves.fits fits
  · intro k pc call n there kind
    rcases at_set here users calls there with ⟨_, old⟩ | ⟨rfl, rfl, rfl⟩
    · exact (booked.made k pc call n old kind).last lasting
    · have kind : call₀.kind = .newBuffer n := kind
      rw [kind] at fits
      exact (booked.made k pc₀ call₀ n here kind).pays fits running pays
  · intro k pc call b there kind
    rcases at_set here users calls there with ⟨_, old⟩ | ⟨rfl, rfl, rfl⟩
    · exact booked.viewed k pc call b old kind
    · have kind : call₀.kind = .bytes b := kind
      rw [kind] at fits
      simp only [Call.move, booked.viewed k pc₀ call₀ b here kind, pays.viewing fits]
      rfl
  · intro k pc call b there on
    rcases at_set here users calls there with ⟨_, old⟩ | ⟨rfl, rfl, rfl⟩
    · obtain ⟨below, sign, one⟩ := booked.paid k pc call b old on
      exact ⟨lasting.inside below, sign, one⟩
    · obtain ⟨below, sign, one⟩ := booked.paid k pc₀ call₀ b here on
      refine ⟨lasting.inside below, booked.pays here pays on⟩
  · intro b x found freed collected
    rcases booked.source here pays users calls found with
      ⟨old, follows⟩ | ⟨last, _, _⟩ | ⟨_, y, _, _, _, rfl, _⟩
    · exact (booked.held b x old freed collected).follow follows
    · intro k pc call there on
      have below : b < a.core.bufs.length := by
        rcases at_set here users calls there with ⟨_, old⟩ | ⟨rfl, rfl, rfl⟩
        · exact (booked.paid k pc call b old on).1
        · exact (booked.paid k pc₀ call₀ b here on).1
      omega
    · cases freed
  · intro b x found gone
    rcases booked.source here pays users calls found with
      ⟨old, follows⟩ | ⟨_, freed, collected⟩ | ⟨rfl, y, old, mine, first, rfl, holds, rfl⟩
    · exact (booked.gone b x old gone).follow follows rfl
    · rw [freed, collected] at gone
      simp at gone
    · have on := swap_releases fits
      have untouched := booked.held b y old mine first
      refine ⟨i, pc₁, call₀.move 0, at_moved here users calls, on, ?_, ?_⟩
      · have none := untouched i _ call₀ here on
        simp only [Call.took, Call.move, Pc.holds, Buf.withdraw] at none ⊢
        omega
      · intro k pc call there on' differs
        rcases at_set here users calls there with ⟨_, before⟩ | ⟨same, _⟩
        · exact untouched k pc call before on'
        · exact absurd same differs

end Step

section Calls
variable {pc₁ : Pc} {call₁ : Call}

/-- A new call holds nothing. -/
theorem Booked.begins (booked : Booked a) (users : a'.core.users = a.core.users ++ [pc₁])
    (calls : a'.calls = a.calls ++ [call₁]) (bufs : a'.core.bufs = a.core.bufs)
    (fits : call₁.kind.fits pc₁ = true) (holds : pc₁.holds = 0) (net : call₁.net = 0)
    (plain : pc₁.marked = false ∨ ∀ n, call₁.kind ≠ .newBuffer n)
    (inside : ∀ b, call₁.kind.releases = some b → b < a.core.bufs.length) : Booked a' := by
  have matched := booked.matched
  have follows (b : Nat) : Follows a a' b := by
    refine follows_concat matched users calls fun _ => ?_
    simp only [Call.took, holds, net]
    rfl
  constructor
  · rw [users, calls, List.length_append, List.length_append, matched]
    rfl
  · intro k pc call there
    rcases at_concat matched users calls there with old | ⟨_, rfl, rfl⟩
    · exact booked.fits k pc call old
    · exact fits
  · intro k pc call n there kind
    rw [bufs]
    rcases at_concat matched users calls there with old | ⟨_, rfl, rfl⟩
    · exact booked.made k pc call n old kind
    · exact made_plain (plain.resolve_right fun no => no n kind) (by rw [net, holds]; rfl)
  · intro k pc call b there kind
    rcases at_concat matched users calls there with old | ⟨_, rfl, rfl⟩
    · exact booked.viewed k pc call b old kind
    · exact net
  · intro k pc call b there on
    rw [bufs]
    rcases at_concat matched users calls there with old | ⟨_, rfl, rfl⟩
    · exact booked.paid k pc call b old on
    · exact ⟨inside b on, by omega, .inl net⟩
  · intro b x found freed collected
    exact (booked.held b x (bufs ▸ found) freed collected).follow (follows b)
  · intro b x found gone
    exact (booked.gone b x (bufs ▸ found) gone).follow (follows b) rfl

/-- The cleanup of a buffer nobody freed takes its charge over. -/
theorem Booked.collect {x : Buf} {id : Handle.TakeId} (booked : Booked a)
    (here : a.core.bufs[b]? = some x) (mine : x.freed = false) (first : x.collected = false)
    (bufs : a'.core.bufs = a.core.bufs.set b { x with collected := true })
    (users : a'.core.users = a.core.users ++ [.enterClosed (.free id x.budgeted)])
    (calls : a'.calls = a.calls ++ [⟨.cleanup b, 0⟩]) : Booked a' := by
  have matched := booked.matched
  have length : a'.core.bufs.length = a.core.bufs.length := by rw [bufs, List.length_set]
  have lasting : Lasting a.core.bufs a'.core.bufs :=
    bufs ▸ lasting_set here rfl (fun freed => freed) fun _ => rfl
  have follows (b' : Nat) (other : b' ≠ b) : Follows a a' b' := by
    refine follows_concat matched users calls fun on => ?_
    exact absurd (Option.some.inj on) (Ne.symm other)
  have untouched := booked.held b x here mine first
  constructor
  · rw [users, calls, List.length_append, List.length_append, matched]
    rfl
  · intro k pc call there
    rcases at_concat matched users calls there with old | ⟨_, rfl, rfl⟩
    · exact booked.fits k pc call old
    · rfl
  · intro k pc call n there kind
    rcases at_concat matched users calls there with old | ⟨_, rfl, rfl⟩
    · exact (booked.made k pc call n old kind).last lasting
    · cases kind
  · intro k pc call b there kind
    rcases at_concat matched users calls there with old | ⟨_, rfl, rfl⟩
    · exact booked.viewed k pc call b old kind
    · cases kind
  · intro k pc call b' there on
    rcases at_concat matched users calls there with old | ⟨_, rfl, rfl⟩
    · rw [length]
      exact booked.paid k pc call b' old on
    · cases on
      exact ⟨lasting.inside (List.getElem?_eq_some_iff.mp here).1, Int.le_refl _, .inl rfl⟩
  · intro b' y found freed collected
    rw [bufs] at found
    rcases getElem?_set_cases found with ⟨_, rfl⟩ | ⟨other, old⟩
    · cases collected
    · exact (booked.held b' y old freed collected).follow (follows b' other)
  · intro b' y found gone
    rw [bufs] at found
    rcases getElem?_set_cases found with ⟨rfl, rfl⟩ | ⟨other, old⟩
    · refine ⟨_, _, _, at_new matched users calls, rfl, Int.sub_zero _, ?_⟩
      intro k pc call there on differs
      rcases at_concat matched users calls there with before | ⟨last, _⟩
      · exact untouched k pc call before on
      · exact absurd last differs
    · exact (booked.gone b' y old gone).follow (follows b' other) rfl

/-- A step of the handle brings at most buffers nobody is charged for. -/
theorem Booked.base {more : List Buf} (booked : Booked a) (users : a'.core.users = a.core.users)
    (calls : a'.calls = a.calls) (bufs : a'.core.bufs = a.core.bufs ++ more)
    (free : ∀ x ∈ more, x.uncharged) : Booked a' := by
  have same (k : Nat) (pc : Pc) (call : Call) (there : a'.At k pc call) : a.At k pc call :=
    ⟨users ▸ there.1, calls ▸ there.2⟩
  have lasting : Lasting a.core.bufs a'.core.bufs := bufs ▸ lasting_append _ _
  have follows (b : Nat) : Follows a a' b := by
    constructor
    · intro k pc call there on
      exact .inr ⟨pc, call, same k pc call there, on, rfl⟩
    · intro k pc call there on
      exact ⟨pc, call, ⟨users ▸ there.1, calls ▸ there.2⟩, on, rfl⟩
  constructor
  · rw [users, calls]
    exact booked.matched
  · intro k pc call there
    exact booked.fits k pc call (same k pc call there)
  · intro k pc call n there kind
    exact (booked.made k pc call n (same k pc call there) kind).last lasting
  · intro k pc call b there kind
    exact booked.viewed k pc call b (same k pc call there) kind
  · intro k pc call b there on
    obtain ⟨below, paid⟩ := booked.paid k pc call b (same k pc call there) on
    exact ⟨lasting.inside below, paid⟩
  · intro b x found freed collected
    rw [bufs] at found
    rcases Nat.lt_or_ge b a.core.bufs.length with inside | outside
    · rw [List.getElem?_append_left inside] at found
      exact (booked.held b x found freed collected).follow (follows b)
    · intro k pc call there on
      exact absurd (booked.paid k pc call b (same k pc call there) on).1 (Nat.not_lt.mpr outside)
  · intro b x found gone
    rw [bufs] at found
    rcases Nat.lt_or_ge b a.core.bufs.length with inside | outside
    · rw [List.getElem?_append_left inside] at found
      exact (booked.gone b x found gone).follow (follows b) rfl
    · rw [List.getElem?_append_right outside] at found
      obtain ⟨_, freed, collected⟩ := free x (List.mem_of_getElem? found)
      rw [freed, collected] at gone
      simp at gone

end Calls

/-! ### What a call has done by where it stands -/

/-- What NewBuffer charges for `n` bytes. -/
def Config.charge (cfg : Config) (n : Int) : Int := if cfg.bufBudget = 0 then 0 else n

def Visit.sized (cfg : Config) (n : Int) : Visit → Prop
  | .alloc m charge => m = n ∧ charge = cfg.charge n
  | _ => False

/-- NewBuffer carries the size it was asked for, and its charge once it is reserved. -/
def Sized (cfg : Config) (n : Int) : Pc → Prop
  | .size m => m = n
  | .closed m | .poisoned m | .reserve m => m = n
  | .exchange m _ => m = n ∧ cfg.bufBudget ≠ 0
  | .enterClosed v | .tryRLock v | .enterPtr v | .inside v => v.sized cfg n
  | .bufAlloc m charge => m = n ∧ charge = cfg.charge n
  | .make _ data charge => data.length = n ∧ charge = cfg.charge n
  | .refund charge out => out.failed = true ∧ charge = cfg.charge n
  | .refused charge _ => charge = cfg.charge n
  | .unlock after => after.tail = true ∧ Sized cfg n after
  | .latch _ | .done _ => True
  | .heap _ | .swap _ => False

theorem failed_sized {n : Int} {v : Visit} (sized : v.sized cfg n) : Sized cfg n v.failed := by
  cases v with
  | alloc m charge => exact ⟨rfl, sized.2⟩
  | _ => exact sized.elim

theorem Visit.sized_charge {n : Int} {v : Visit} (sized : v.sized cfg n) :
    v.charge = cfg.charge n := by
  cases v with
  | alloc m charge => exact sized.2
  | _ => exact sized.elim

theorem Sized.holds {n : Int} (sized : Sized cfg n pc) :
    (pc.holds : Int) = 0 ∨ pc.holds = cfg.charge n := by
  induction pc with
  | enterClosed v | tryRLock v | enterPtr v | inside v => exact .inr (Visit.sized_charge sized)
  | bufAlloc m charge | make id data charge | refund charge out =>
    simp only [Sized] at sized
    exact .inr sized.2
  | refused charge e => exact .inr sized
  | unlock after ih => exact ih sized.2
  | heap b | swap b => exact sized.elim
  | _ => exact .inl rfl

theorem Moves.keeps_size {n : Int} (moves : Moves cfg s pc s' pc') (sized : Sized cfg n pc) :
    Sized cfg n pc' := by
  cases moves with
  | badArg | isClosed | isPoisoned | tooMuch | latch | refund => trivial
  | sized low high => exact (Int.toNat_of_nonneg (Int.le_of_lt low)).trans sized
  | isOpen | isSound | enter | lock | inside | ask => exact sized
  | unlimited none => exact ⟨sized, by simp [Config.charge, none]⟩
  | load budget _ => exact ⟨sized, budget⟩
  | reserve => exact ⟨sized.1, by simpa [Config.charge, sized.2] using sized.1⟩
  | retry => exact sized.1
  | tooLate => exact ⟨rfl, rfl, sized.2⟩
  | allocated whole => exact ⟨rfl, by rw [whole]; exact sized.1, sized.2⟩
  | refuse => exact ⟨rfl, sized.2⟩
  | refused next =>
    rcases next with rfl | rfl
    · trivial
    · trivial
  | make => trivial
  | shut | busy => exact failed_sized sized
  | cleared => exact ⟨failed_tail _, failed_sized sized⟩
  | unlock => exact sized.2
  | heap | view | second | claim | freed => exact sized.elim

/-- NewBuffer returns only the buffer it has made for its charge. -/
theorem Moves.returns {n : Int} (moves : Moves cfg s pc s' pc') (sized : Sized cfg n pc)
    (same : pc' = .done (.buffer b)) : ∃ x, s'.bufs[b]? = some x ∧ x.budgeted = cfg.charge n := by
  cases moves with
  | make =>
    cases same
    exact ⟨_, List.getElem?_concat_length, sized.2⟩
  | refund =>
    cases same
    cases sized.1
  | refused next => rcases next with rfl | rfl <;> cases same
  | @shut v | @busy v => cases v <;> cases same
  | unlock =>
    rw [same] at sized
    cases sized.1
  | heap | second | claim => exact sized.elim
  | _ => cases same

/-- After the swap of Free its buffer is freed, by this call or by the one that was first. -/
theorem Moves.swaps (moves : Moves cfg s (.swap b) s' pc') :
    ∃ x, s'.bufs[b]? = some x ∧ x.freed = true := by
  cases moves with
  | second here gone => exact ⟨_, here, gone⟩
  | claim here _ _ => exact ⟨_, by rw [getElem?_set_of_some here, if_pos rfl], rfl⟩

/-- What a call has done to the buffer it is about. -/
def Performs (cfg : Config) (bufs : List Buf) (pc : Pc) : Kind → Prop
  | .newBuffer n => Sized cfg n pc ∧
    ∀ b, pc = .done (.buffer b) → ∃ x, bufs[b]? = some x ∧ x.budgeted = cfg.charge n
  | .bytes _ => True
  | .free b => pc ≠ .swap b → ∃ x, bufs[b]? = some x ∧ x.freed = true
  | .cleanup b => ∃ x, bufs[b]? = some x ∧ x.collected = true

theorem Performs.last {bufs bufs' : List Buf} {kind : Kind} (performs : Performs cfg bufs pc kind)
    (lasting : Lasting bufs bufs') : Performs cfg bufs' pc kind := by
  cases kind with
  | newBuffer n =>
    refine ⟨performs.1, ?_⟩
    intro b here
    obtain ⟨x, found, charge⟩ := performs.2 b here
    obtain ⟨y, found', same, _⟩ := lasting b x found
    exact ⟨y, found', by rw [same, charge]⟩
  | bytes b => trivial
  | free b =>
    intro past
    obtain ⟨x, found, gone⟩ := performs past
    obtain ⟨y, found', _, freed, _⟩ := lasting b x found
    exact ⟨y, found', freed gone⟩
  | cleanup b =>
    obtain ⟨x, found, gone⟩ := performs
    obtain ⟨y, found', _, _, collected⟩ := lasting b x found
    exact ⟨y, found', collected gone⟩

theorem Performs.moves {kind : Kind} (performs : Performs cfg s.bufs pc kind)
    (moves : Moves cfg s pc s' pc') (lasting : Lasting s.bufs s'.bufs) :
    Performs cfg s'.bufs pc' kind := by
  cases kind with
  | newBuffer n => exact ⟨moves.keeps_size performs.1, fun b here => moves.returns performs.1 here⟩
  | bytes b => trivial
  | free b =>
    intro past
    by_cases swap : pc = .swap b
    · subst swap
      exact moves.swaps
    · exact performs.last lasting swap
  | cleanup b => exact performs.last lasting

def Performed (cfg : Config) (a : Audit) : Prop :=
  ∀ i pc call, a.At i pc call → Performs cfg a.core.bufs pc call.kind

theorem Turn.lasting (turn : Turn cfg s act s') (exact : Exact cfg s) : Lasting s.bufs s'.bufs := by
  cases turn with
  | base _ _ more bufs _ => exact bufs ▸ lasting_append _ _
  | call pc _ _ bufs _ => exact lasting_same bufs
  | collect x here _ _ _ _ bufs _ =>
    exact bufs ▸ lasting_set here rfl (fun freed => freed) fun _ => rfl
  | user pc u pc' user went _ bufs _ =>
    rw [bufs]
    cases went.spends (exact.promises pc (List.mem_of_getElem? user)) with
    | still _ bufs | reserve _ bufs | release _ bufs => exact lasting_same bufs
    | hand _ bufs => exact bufs ▸ lasting_append _ _
    | claim here _ _ bufs _ => exact bufs ▸ lasting_set here rfl (fun _ => rfl) id

/-- A call on the buffers begins with nothing done. -/
theorem starts_performs {bufs : List Buf} (starts : pc.starts s act) :
    ∃ kind, act.opens = [⟨kind, 0⟩] ∧ Performs cfg bufs pc kind := by
  cases act with
  | newBuffer n =>
    cases starts
    exact ⟨_, rfl, rfl, fun b same => by cases same⟩
  | bytes b => exact ⟨_, rfl, trivial⟩
  | free b =>
    obtain ⟨x, _, _, rfl⟩ := starts
    exact ⟨_, rfl, fun past => absurd rfl past⟩
  | base a | collect b | user i c => exact starts.elim

theorem Performed.step (performed : Performed cfg a) (exact : Exact cfg a.core)
    (matched : a.calls.length = a.core.users.length) (went : a.step cfg act = some a') :
    Performed cfg a' := by
  obtain ⟨core, moved, rfl⟩ := Option.map_eq_some_iff.mp went
  have turn := step_turn moved
  have lasting := turn.lasting exact
  have old (i : Nat) (pc : Pc) (call : Call) (there : a.At i pc call) :=
    (performed i pc call there).last lasting
  cases turn with
  | base bytes users more bufs free =>
    rintro i pc call ⟨user, book⟩
    exact old i pc call ⟨users ▸ user, by simpa [Audit.record, Act.opens] using book⟩
  | call pc₁ starts bytes bufs users =>
    obtain ⟨kind, opens, performs⟩ := @starts_performs cfg a.core pc₁ act core.bufs starts
    have calls : Audit.record a.calls (core.bufBytes - a.core.bufBytes) act =
        a.calls ++ [⟨kind, 0⟩] := by
      rw [← opens]
      cases act with
      | user i c => exact starts.elim
      | _ => rfl
    intro i pc call there
    rcases at_concat matched users calls there with before | ⟨_, rfl, rfl⟩
    · exact old i pc call before
    · exact performs
  | @collect b _ x here held first idle bytes bufs users =>
    intro i pc call there
    rcases at_concat matched users rfl there with before | ⟨_, rfl, rfl⟩
    · exact old i pc call before
    · exact ⟨_, by rw [bufs, getElem?_set_of_some here, if_pos rfl], rfl⟩
  | @user i c _ pc s'' pc' here ran bytes bufs users =>
    have inside := (List.getElem?_eq_some_iff.mp here).1
    obtain ⟨call, book⟩ : ∃ call, a.calls[i]? = some call :=
      ⟨_, List.getElem?_eq_getElem (matched ▸ inside)⟩
    intro k pc₁ call₁ there
    rcases at_set ⟨here, book⟩ users rfl there with ⟨_, before⟩ | ⟨rfl, rfl, rfl⟩
    · exact old k pc₁ call₁ before
    · rw [bufs] at lasting ⊢
      exact (performed k pc call ⟨here, book⟩).moves ran lasting

/-! ### Runs -/

theorem Booked.step (booked : Booked a) (exact : Exact cfg a.core) (fits : Fits cfg a.core)
    (small : cfg.bufBudget < 2 ^ 63) (went : a.step cfg act = some a') : Booked a' := by
  obtain ⟨core, moved, rfl⟩ := Option.map_eq_some_iff.mp went
  cases step_turn moved with
  | base bytes users more bufs free =>
    exact booked.base users (List.append_nil _) bufs free
  | call pc starts bytes bufs users =>
    cases act with
    | newBuffer n =>
      cases starts
      exact booked.begins users rfl bufs rfl rfl rfl (.inl rfl) nofun
    | bytes b =>
      obtain ⟨x, _, rfl | rfl⟩ := starts
      · exact booked.begins users rfl bufs rfl rfl rfl (.inl rfl) nofun
      · exact booked.begins users rfl bufs rfl rfl rfl (.inl rfl) nofun
    | free b =>
      obtain ⟨x, here, _, rfl⟩ := starts
      refine booked.begins users rfl bufs ?_ rfl rfl (.inr nofun) ?_
      · simp [Kind.fits]
      · rintro b' ⟨⟩
        exact (List.getElem?_eq_some_iff.mp here).1
    | base a | collect b | user i c => exact starts.elim
  | collect x here held first idle bytes bufs users =>
    exact booked.collect here held first bufs users rfl
  | @user i c _ pc s'' pc' here ran bytes bufs users =>
    have inside := (List.getElem?_eq_some_iff.mp here).1
    obtain ⟨call, book⟩ : ∃ call, a.calls[i]? = some call :=
      ⟨_, List.getElem?_eq_getElem (booked.matched ▸ inside)⟩
    have spends := ran.spends (exact.promises pc (List.mem_of_getElem? here))
    exact booked.user ⟨here, book⟩ ran ((spends.congr bytes bufs).pays exact fits small here)
      users rfl

structure Kept (cfg : Config) (a : Audit) : Prop where
  exact : Exact cfg a.core
  booked : Booked a
  performed : Performed cfg a

theorem Audits.kept (small : cfg.bufBudget < 2 ^ 63) (audits : Audits cfg a) : Kept cfg a := by
  refine audits.invariant ?_ ?_
  · rintro _ rfl
    refine ⟨⟨rfl, Nat.zero_le _, fun pc member => nomatch member⟩, ?_,
      fun i pc call here => by cases here.1⟩
    constructor
    · rfl
    · rintro i pc call ⟨here, _⟩
      cases here
    · rintro i pc call n ⟨here, _⟩
      cases here
    · rintro i pc call b ⟨here, _⟩
      cases here
    · rintro i pc call b ⟨here, _⟩
      cases here
    · intro b x found
      cases found
    · intro b x found
      cases found
  · rintro a a' ⟨exact, booked, performed⟩ ⟨fits, act, went⟩
    refine ⟨?_, booked.step exact fits small went, performed.step exact booked.matched went⟩
    obtain ⟨core, moved, rfl⟩ := Option.map_eq_some_iff.mp went
    exact exact.step fits small (step_turn moved)

/-- The charge of a buffer that is freed or cleaned up: one of the calls on it has taken it over,
and has given it back or is going to, and no other has touched it. -/
def ReleasedOnce (a : Audit) (b : Nat) (x : Buf) : Prop :=
  ∃ i pc call, a.At i pc call ∧ call.kind.releases = some b ∧
    ((call.net = 0 ∧ pc.holds = x.budgeted) ∨ (call.net = -x.budgeted ∧ pc.holds = 0)) ∧
    ∀ k pc' call', a.At k pc' call' → call'.kind.releases = some b → k ≠ i →
      call'.net = 0 ∧ pc'.holds = 0

theorem Booked.untouched (booked : Booked a) (here : a.At i pc call)
    (on : call.kind.releases = some b) (none : call.took pc = 0) :
    call.net = 0 ∧ pc.holds = 0 := by
  obtain ⟨_, sign, _⟩ := booked.paid i pc call b here on
  simp only [Call.took] at none
  omega

theorem Booked.released_once (booked : Booked a) {x : Buf} (found : a.core.bufs[b]? = some x)
    (gone : x.freed = true ∨ x.collected = true) : ReleasedOnce a b x := by
  obtain ⟨i, pc, call, here, on, took, others⟩ := booked.gone b x found gone
  obtain ⟨_, _, one⟩ := booked.paid i pc call b here on
  simp only [Call.took] at took
  refine ⟨i, pc, call, here, on, ?_, ?_⟩
  · rcases one with none | none
    · exact .inl ⟨none, by omega⟩
    · exact .inr ⟨by omega, none⟩
  · intro k pc' call' there on' differs
    exact booked.untouched there on' (others k pc' call' there on' differs)

/-- The charge of a buffer is back: one of the calls on it has taken all of it off `bufBytes`, and
no other has taken any. -/
def GivenBack (a : Audit) (b : Nat) (x : Buf) : Prop :=
  ∃ i pc call, a.At i pc call ∧ call.kind.releases = some b ∧ call.net = -x.budgeted ∧
    pc.holds = 0 ∧ ∀ k pc' call', a.At k pc' call' → call'.kind.releases = some b → k ≠ i →
      call'.net = 0 ∧ pc'.holds = 0

/-- Every call on the buffer has returned. -/
def AllReturned (a : Audit) (b : Nat) : Prop :=
  ∀ i pc call, a.At i pc call → call.kind.releases = some b → ∃ out, pc = .done out

theorem ReleasedOnce.given_back {x : Buf} (once : ReleasedOnce a b x) (all : AllReturned a b) :
    GivenBack a b x := by
  obtain ⟨i, pc, call, here, on, stands, others⟩ := once
  obtain ⟨out, rfl⟩ := all i pc call here on
  refine ⟨i, _, call, here, on, ?_, rfl, others⟩
  rcases stands with ⟨none, holds⟩ | ⟨back, _⟩
  · have free : x.budgeted = 0 := holds.symm
    rw [none, free]
    rfl
  · exact back

/-- A call on a buffer is over it when it has returned. -/
theorem Kept.returned {out : Answer} (kept : Kept cfg a) (here : a.At i (.done out) call)
    (on : call.kind.releases = some b) :
    ∃ x, a.core.bufs[b]? = some x ∧ (call.kind = .free b → x.freed = true) ∧ ReleasedOnce a b x ∧
      (AllReturned a b → GivenBack a b x) := by
  have performs := kept.performed i _ call here
  have settled : ∃ x, a.core.bufs[b]? = some x ∧ (call.kind = .free b → x.freed = true) ∧
      (x.freed = true ∨ x.collected = true) := by
    cases kind : call.kind with
    | free b' =>
      rw [kind] at on performs
      cases on
      obtain ⟨x, found, freed⟩ := performs (fun same => by cases same)
      exact ⟨x, found, fun _ => freed, .inl freed⟩
    | cleanup b' =>
      rw [kind] at on performs
      cases on
      obtain ⟨x, found, collected⟩ := performs
      exact ⟨x, found, (fun same => by cases same), .inr collected⟩
    | newBuffer n | bytes b' =>
      rw [kind] at on
      cases on
  obtain ⟨x, found, freed, gone⟩ := settled
  have once := kept.booked.released_once found gone
  exact ⟨x, found, freed, once, once.given_back⟩

/-- What NewBuffer has added to `bufBytes`, wherever it stands. -/
theorem Kept.bought {n : Int} (kept : Kept cfg a) (here : a.At i pc call)
    (kind : call.kind = .newBuffer n) :
    (call.net = 0 ∨ call.net = cfg.charge n) ∧ (∀ e, pc = .done (.err e) → call.net = 0) ∧
      ∀ b, pc = .done (.buffer b) → call.net = cfg.charge n ∧
        ∃ x, a.core.bufs[b]? = some x ∧ x.budgeted = cfg.charge n := by
  have made := kept.booked.made i pc call n here kind
  have performs := kept.performed i pc call here
  rw [kind] at performs
  have bought (b : Nat) (same : pc = .done (.buffer b)) : call.net = cfg.charge n ∧
      ∃ x, a.core.bufs[b]? = some x ∧ x.budgeted = cfg.charge n := by
    obtain ⟨x, found, charge⟩ := performs.2 b same
    rw [same] at made
    obtain ⟨y, found', net⟩ := made
    cases found.symm.trans found'
    exact ⟨net.trans charge, x, found, charge⟩
  refine ⟨?_, ?_, bought⟩
  · by_cases returned : ∃ b, pc = .done (.buffer b)
    · obtain ⟨b, same⟩ := returned
      exact .inr (bought b same).1
    · have net : call.net = pc.holds := by
        unfold Made at made
        split at made
        · exact absurd ⟨_, rfl⟩ returned
        · exact made
      rw [net]
      exact performs.1.holds
  · rintro e rfl
    exact made

/-- Steps that Free and the cleanup have left. -/
def Pc.left : Pc → Nat
  | .swap _ => 7
  | .enterClosed _ => 6
  | .tryRLock _ => 5
  | .enterPtr _ => 4
  | .inside _ => 3
  | .unlock after => 1 + after.left
  | .refund _ _ => 1
  | _ => 0

theorem failed_left (v : Visit) : v.failed.left ≤ 1 := by
  cases v with
  | bytes b => exact Nat.zero_le _
  | _ => exact Nat.le_refl _

theorem Moves.nearer (moves : Moves cfg s pc s' pc')
    (fits : pc.releases = true ∨ ∃ b, pc = .swap b) : pc'.left < pc.left := by
  have later (other : ∀ b, pc ≠ .swap b) : pc.releases = true :=
    fits.resolve_right fun ⟨b, same⟩ => other b same
  cases moves with
  | second => exact Nat.succ_pos _
  | claim _ _ next =>
    rcases next with rfl | rfl
    · simp [Pc.left]
    · simp [Pc.left]
  | freed | enter | lock | inside | refund => simp [Pc.left]
  | @shut v | @busy v =>
    have near := failed_left v
    simp only [Pc.left]
    omega
  | @cleared v =>
    have near := failed_left v
    simp only [Pc.left]
    omega
  | unlock =>
    simp only [Pc.left]
    omega
  | _ => cases later fun b same => by cases same

/-- Nothing keeps a Free or a cleanup from its next step. -/
theorem releases_goes (s : State)
    (fits : pc.releases = true ∨ ∃ b, pc = .swap b ∧ b < s.bufs.length) :
    (∃ out, pc = .done out) ∨ ∃ c r, s.userStep cfg pc c = some r := by
  have later (other : ∀ b, pc ≠ .swap b) : pc.releases = true :=
    fits.resolve_right fun ⟨b, same, _⟩ => other b same
  cases pc with
  | done out => exact .inl ⟨out, rfl⟩
  | swap b =>
    obtain ⟨b', same, inside⟩ := fits.resolve_left (fun no => by cases no)
    cases same
    refine .inr ⟨.go, ?_⟩
    have found := List.getElem?_eq_getElem inside
    simp only [State.userStep, State.allocStep, State.ownerStep, found, Option.none_or]
    split
    · exact ⟨_, rfl⟩
    · exact ⟨_, rfl⟩
  | inside v =>
    cases v with
    | free id charge => exact .inr ⟨.freed none, _, rfl⟩
    | _ => cases later fun b same => by cases same
  | enterClosed v | tryRLock v | enterPtr v | unlock after | refund charge out =>
    exact .inr ⟨.go, _, rfl⟩
  | _ => cases later fun b same => by cases same

theorem Kept.goes (kept : Kept cfg a) (here : a.At i pc call) (on : call.kind.releases = some b) :
    (∃ out, pc = .done out) ∨ ∃ c a' pc', a.step cfg (.user i c) = some a' ∧
      a'.core.users[i]? = some pc' ∧ pc'.left < pc.left := by
  have fits := kept.booked.fits i pc call here
  obtain ⟨below, _⟩ := kept.booked.paid i pc call b here on
  have place : pc.releases = true ∨ pc = .swap b := by
    cases kind : call.kind with
    | free b' =>
      rw [kind] at fits on
      cases on
      simpa [Kind.fits] using fits
    | cleanup b' =>
      rw [kind] at fits
      exact .inl fits
    | newBuffer n | bytes b' =>
      rw [kind] at on
      cases on
  rcases @releases_goes cfg pc a.core (place.imp_right fun same => ⟨b, same, below⟩) with
    returned | ⟨c, ⟨s', pc'⟩, went⟩
  · exact .inl returned
  · have moves := user_moves went
    have core : a.core.step cfg (.user i c) = some { s' with users := s'.users.set i pc' } := by
      simp only [State.step, here.1, Option.bind_some, went, Option.map_some]
    obtain ⟨a', stepped, users⟩ : ∃ a', a.step cfg (.user i c) = some a' ∧
        a'.core.users = s'.users.set i pc' :=
      ⟨_, Option.map_eq_some_iff.mpr ⟨_, core, rfl⟩, rfl⟩
    refine .inr ⟨c, a', pc', stepped, ?_, moves.nearer (place.imp_right fun same => ⟨b, same⟩)⟩
    rw [users, moves.users, getElem?_set_of_some here.1, if_pos rfl]

/-- `bufBytes` is the sum of the charges and within the budget. A call of NewBuffer that fails has
moved nothing, and one that returns a buffer has moved the size it was asked for, which is what that
buffer holds until a call takes it over. A Free that has returned leaves its buffer freed. The
charge of a buffer that is freed or cleaned up is taken over by one call and given back once, and is
back when the calls on the buffer have returned, which nothing keeps them from. -/
theorem budget_exact (small : cfg.bufBudget < 2 ^ 63) (audits : Audits cfg a) :
    a.core.bufBytes = a.core.charged ∧ 0 ≤ a.core.bufBytes ∧ a.core.bufBytes ≤ cfg.bufBudget ∧
    (∀ b x, a.core.bufs[b]? = some x →
      ((x.freed = true ∨ x.collected = true) → ReleasedOnce a b x) ∧
      (x.freed = false → x.collected = false → ∀ i pc call, a.At i pc call →
        call.kind.releases = some b → call.net = 0 ∧ pc.holds = 0)) ∧
    (∀ i pc call n, a.At i pc call → call.kind = .newBuffer n →
      (call.net = 0 ∨ call.net = cfg.charge n) ∧ (∀ e, pc = .done (.err e) → call.net = 0) ∧
      ∀ b, pc = .done (.buffer b) → call.net = cfg.charge n ∧
        ∃ x, a.core.bufs[b]? = some x ∧ x.budgeted = cfg.charge n) ∧
    (∀ i call b out, a.At i (.done out) call → call.kind.releases = some b →
      ∃ x, a.core.bufs[b]? = some x ∧ (call.kind = .free b → x.freed = true) ∧
        ReleasedOnce a b x ∧ (AllReturned a b → GivenBack a b x)) ∧
    ∀ i pc call b, a.At i pc call → call.kind.releases = some b →
      (∃ out, pc = .done out) ∨ ∃ c a' pc', a.step cfg (.user i c) = some a' ∧
        a'.core.users[i]? = some pc' ∧ pc'.left < pc.left := by
  have kept := audits.kept small
  have booked := kept.booked
  have sum := kept.exact.sum
  have within := kept.exact.within
  refine ⟨sum, by omega, by omega, ?_, fun i pc call n => kept.bought,
    fun i call b out => kept.returned, fun i pc call b => kept.goes⟩
  intro b x found
  refine ⟨booked.released_once found, ?_⟩
  intro freed collected i pc call here on
  exact booked.untouched here on (booked.held b x found freed collected i pc call here on)

/-- A step of a run whose charges are below 2^62. -/
def careful (cfg : Config) (a : Audit) (act : Act) : Option Audit :=
  if a.core.charged < 2 ^ 62 then a.step cfg act else none

/-- With a budget of 3: two bytes are allocated, two more are refused, and two calls of Free race,
the second of which returns first. -/
def race : List Act :=
  Act.newBuffer 2 :: List.replicate 9 (Act.user 0 .go) ++ Act.user 0 (.alloc 7 [0, 0]) ::
    List.replicate 2 (Act.user 0 .go) ++ Act.newBuffer 2 :: List.replicate 4 (Act.user 1 .go) ++
    ([.free 0, .free 0, .user 2 .go, .user 3 .go] : List Act)

-- The first Free goes on to its return.
def settling : List Act :=
  List.replicate 3 (Act.user 2 .go) ++ Act.user 2 (.freed none) :: List.replicate 2 (Act.user 2 .go)

def three : Config := ⟨⟨1, 1⟩, 3⟩

theorem careful_audits {acts : List Act} (audits : Audits three a)
    (run : follow (careful three) a acts = some a') : Audits three a' := by
  refine Reachable.follow ?_ audits run
  intro s act t went
  simp only [careful, Option.ite_none_right_eq_some] at went
  exact ⟨.inl went.1, act, went.2⟩

theorem budget_exact_race :
    ∃ a a', Audits three a ∧ a.core.bufBytes = 2 ∧ a.calls.map Call.net = [2, 0, 0, 0] ∧
      (∃ x, a.core.bufs[0]? = some x ∧ x.freed = true ∧ ReleasedOnce a 0 x) ∧
      follow (careful three) a settling = some a' ∧ a'.core.bufBytes = 0 ∧
      a'.calls.map Call.net = [2, 0, -2, 0] ∧ ∃ x, a'.core.bufs[0]? = some x ∧ GivenBack a' 0 x := by
  have run : (follow (careful three) .opened race).map (fun a => (a.core.bufBytes, a.calls,
      a.core.users[3]?)) = some (2, [⟨.newBuffer 2, 2⟩, ⟨.newBuffer 2, 0⟩, ⟨.free 0, 0⟩,
        ⟨.free 0, 0⟩], some (.done .ok)) := by decide +kernel
  have later : (follow (careful three) .opened (race ++ settling)).map (fun a => (a.core.bufBytes,
      a.calls, a.core.users)) = some (0, [⟨.newBuffer 2, 2⟩, ⟨.newBuffer 2, 0⟩, ⟨.free 0, -2⟩,
        ⟨.free 0, 0⟩], [.done (.buffer 0), .done (.err .budget), .done .ok, .done .ok]) := by
    decide +kernel
  obtain ⟨a, run, same⟩ := Option.map_eq_some_iff.mp run
  rw [follow_append, run, Option.bind_some] at later
  obtain ⟨a', settled, same'⟩ := Option.map_eq_some_iff.mp later
  simp only [Prod.mk.injEq] at same same'
  obtain ⟨bytes, calls, done⟩ := same
  obtain ⟨bytes', calls', users'⟩ := same'
  have audits := careful_audits (.start rfl) run
  have audits' := careful_audits audits settled
  have second : a.At 3 (.done .ok) ⟨.free 0, 0⟩ := ⟨done, by rw [calls]; rfl⟩
  have first : a'.At 2 (.done .ok) ⟨.free 0, -2⟩ := ⟨by rw [users']; rfl, by rw [calls']; rfl⟩
  have all : AllReturned a' 0 := by
    intro i pc call here _
    have member := List.mem_of_getElem? here.1
    rw [users'] at member
    simp only [List.mem_cons, List.not_mem_nil, or_false] at member
    rcases member with rfl | rfl | rfl | rfl
    all_goals exact ⟨_, rfl⟩
  obtain ⟨x, found, freed, once, _⟩ :=
    (budget_exact (by decide) audits).2.2.2.2.2.1 3 _ 0 _ second rfl
  obtain ⟨x', found', _, _, back⟩ :=
    (budget_exact (by decide) audits').2.2.2.2.2.1 2 _ 0 _ first rfl
  exact ⟨a, a', audits, bytes, by rw [calls]; rfl, ⟨x, found, freed rfl, once⟩, settled, bytes',
    by rw [calls']; rfl, x', found', back all⟩

end Gusset.Buffer
