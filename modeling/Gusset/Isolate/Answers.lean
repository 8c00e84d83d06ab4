import Gusset.Isolate.Permits

/-! Each response that was read: refused for good, or in one place at most. -/
namespace Gusset.Isolate
open Foundation

variable {p p' : Proc} {calls calls' : List Call} {k : Nat}

-- The ticket keeps this response.
def keeps (k : Nat) : Option TicketState → Nat
  | some ⟨some r, _, _⟩ => if r.frame = some k then 1 else 0
  | _ => 0

def Call.took (k : Nat) (c : Call) : Nat := if c.taken = some k then 1 else 0

def copies (p : Proc) (calls : List Call) (k : Nat) : Nat :=
  census (keeps k) p.tickets + census (Call.took k) calls

/-- What was read: a response that was accepted is the only one of its id and in one place at most,
and one that was refused is nowhere and has ended the loop. -/
structure Once (p : Proc) (calls : List Call) : Prop where
  once : ∀ k, copies p calls k ≤ 1
  nowhere : ∀ k, (∀ resp, p.frames[k]? ≠ some (resp, true)) → copies p calls k = 0
  single : ∀ (k l : Nat) (a b : Response), p.frames[k]? = some (a, true) →
    p.frames[l]? = some (b, true) → a.id = b.id → k = l
  answered : ∀ (k : Nat) (resp : Response), p.frames[k]? = some (resp, true) →
    resp.id < p.tickets.length ∧ Proc.owed (p.lookup resp.id) = 0
  refused : ∀ (k : Nat) (resp : Response), p.frames[k]? = some (resp, false) →
    p.reader ≠ .loop ∧ (p.killed = true ∨ p.procExited = true)

theorem post_took {sends : Sends} (posts : post calls sends = some calls') (k : Nat) :
    census (Call.took k) calls' = census (Call.took k) calls +
      census (fun send => if send.2.frame = some k then 1 else 0) sends := by
  apply post_census posts (Call.took k) (fun r => if r.frame = some k then 1 else 0)
  intro r c c' got
  obtain ⟨_, _, _, _, _, none, now, _⟩ := Call.receive_cases got
  simp [Call.took, none, now]

/-- Sends of errors carry no response. -/
theorem post_failed {sends : Sends} (posts : post calls sends = some calls')
    (failed : ∀ send ∈ sends, send.2.frame = none) (k : Nat) :
    census (Call.took k) calls' = census (Call.took k) calls := by
  have all := post_took posts k
  have zero : census (fun send : Nat × Result => if send.2.frame = some k then 1 else 0) sends = 0 :=
    census_eq_zero _ fun send member => by simp [failed send member]
  omega

namespace Once

/-- A step that reads nothing, answers nothing anew and forgets no refusal. -/
theorem keep (once : Once p calls) (frames : p'.frames = p.frames)
    (fewer : ∀ k, copies p' calls' k ≤ copies p calls k)
    (ids : ∀ id, id < p.tickets.length → Proc.owed (p.lookup id) = 0 →
      id < p'.tickets.length ∧ Proc.owed (p'.lookup id) = 0)
    (reader : p'.reader = .loop → p.reader = .loop)
    (ended : p.killed = true ∨ p.procExited = true → p'.killed = true ∨ p'.procExited = true) :
    Once p' calls' := by
  obtain ⟨one, nowhere, single, answered, refused⟩ := once
  refine ⟨?_, ?_, ?_, ?_, ?_⟩
  · exact fun k => Nat.le_trans (fewer k) (one k)
  · intro k unread
    rw [frames] at unread
    have none := nowhere k unread
    have less := fewer k
    omega
  · rw [frames]
    exact single
  · intro k resp read
    rw [frames] at read
    exact ids resp.id (answered k resp read).1 (answered k resp read).2
  · intro k resp read
    rw [frames] at read
    exact ⟨fun loop => (refused k resp read).1 (reader loop), ended (refused k resp read).2⟩

theorem quiet {i : Nat} {c c' : Call} (once : Once p calls) (at_ : calls[i]? = some c)
    (quiet : Quiet p p' c c') : Once p' (calls.set i c') := by
  refine once.keep quiet.frames ?_ ?_ (fun loop => quiet.reader ▸ loop) ?_
  · intro k
    have same : census (Call.took k) (calls.set i c') = census (Call.took k) calls :=
      census_set_same _ at_ (by simp only [Call.took, quiet.taken])
    simp only [copies, quiet.tickets, same]
    exact Nat.le_refl _
  · intro id below none
    rw [Proc.lookup, quiet.tickets]
    exact ⟨below, none⟩
  · exact Or.imp quiet.killed quiet.procExited

theorem turns (once : Once p calls) (turns : p.Turns p') : Once p' calls := by
  refine once.keep turns.frames ?_ ?_ ?_ (Or.imp turns.killed turns.procExited)
  · intro k
    rw [copies, turns.tickets]
    exact Nat.le_refl _
  · intro id below none
    rw [Proc.lookup, turns.tickets]
    exact ⟨below, none⟩
  · intro loop
    rcases turns.reader with ⟨same, _⟩ | ⟨was, _⟩ | ⟨_, done⟩
    · exact same ▸ loop
    · exact was
    · rw [done] at loop
      cases loop

/-- A ticket changes, a call changes, and no response comes to a new place. -/
theorem put {i id : Nat} {c c' : Call} {t : TicketState} {slot : Option TicketState}
    (once : Once p calls) (at_ : calls[i]? = some c) (found : p.lookup id = some t)
    (still : Proc.owed (some t) = 0 → Proc.owed slot = 0)
    (fewer : ∀ k, keeps k slot + c'.took k ≤ keeps k (some t) + c.took k) :
    Once (p.put id slot) (calls.set i c') := by
  refine once.keep rfl ?_ ?_ (fun loop => loop) fun halted => halted
  · intro k
    have moved := census_set (Call.took k) at_ c'
    have slots := census_put (keeps k) found slot
    have less := fewer k
    simp only [copies]
    omega
  · intro x below none
    refine ⟨by simpa [Proc.put] using below, ?_⟩
    rw [Proc.lookup_put p id x slot (by simp [found])]
    split
    · rename_i same
      rw [same, found] at none
      exact still none
    · exact none

theorem sweep {cause : Option Text} (once : Once p calls)
    (posts : post calls (p.sweep cause).2 = some calls') : Once (p.sweep cause).1 calls' := by
  have fields : (p.sweep cause).1.frames = p.frames ∧
      (p.sweep cause).1.tickets = p.tickets.map (Proc.kept p.closed) ∧
      (p.sweep cause).1.reader = .swept ∧ (p.sweep cause).1.killed = p.killed ∧
      (p.sweep cause).1.procExited = p.procExited := by
    unfold Proc.sweep
    split <;> exact ⟨rfl, rfl, rfl, rfl, rfl⟩
  obtain ⟨frames, tickets, reader, killed, exited⟩ := fields
  refine once.keep frames ?_ ?_ (by simp [reader]) (by rw [killed, exited]; exact id)
  · intro k
    have calls := post_failed posts (by
      rintro ⟨i, r⟩ member
      rw [(Proc.mem_sweep.mp member).1]
      rfl) k
    have slots : census (keeps k) (p.sweep cause).1.tickets ≤ census (keeps k) p.tickets := by
      rw [tickets, census_map]
      apply census_le
      intro slot _
      cases slot with
      | none => exact Nat.le_refl _
      | some t =>
        simp only [Proc.kept]
        split
        · exact Nat.le_refl _
        · exact Nat.zero_le _
    simp only [copies]
    omega
  · intro x below none
    refine ⟨by simpa [tickets] using below, ?_⟩
    rw [Proc.lookup_sweep]
    cases slot : p.lookup x with
    | none => rfl
    | some t =>
      rw [slot] at none
      simp only [Proc.kept]
      split
      · exact none
      · rfl

theorem close {i : Nat} (once : Once p calls) (at_ : calls[i]? = some .close)
    (posts : post (calls.set i .closing) p.close.2 = some calls') : Once p.close.1 calls' := by
  refine once.keep rfl ?_ ?_ id id
  · intro k
    have calls := post_failed posts (by
      rintro ⟨i, r⟩ member
      rw [(Proc.mem_close.mp member).1]
      rfl) k
    have still := census_set_same (Call.took k) at_ (show Call.closing.took k = _ from rfl)
    have slots : census (keeps k) p.close.1.tickets ≤ census (keeps k) p.tickets := by
      simp only [Proc.close, census_map]
      apply census_le
      intro slot _
      obtain _ | ⟨_ | r, waiter, abandoned⟩ := slot <;> simp [Proc.shut, keeps]
    simp only [copies]
    omega
  · intro x below none
    refine ⟨by simpa [Proc.close] using below, ?_⟩
    rw [Proc.lookup_close, Proc.owed_shut]
    exact none

theorem unsent {i id : Nat} {err : GoErr} {sends : Sends} (once : Once p calls)
    (at_ : calls[i]? = some (.unsent id err)) (failed : p.sendFailed id err = some (p', sends))
    (posts : post (calls.set i (.failing err)) sends = some calls') : Once p' calls' := by
  have still (k : Nat) : census (Call.took k) (calls.set i (.failing err)) =
      census (Call.took k) calls := census_set_same _ at_ rfl
  rcases Proc.sendFailed_cases failed with ⟨waiter, abandoned, found, _, rfl, rfl⟩ | ⟨_, rfl, rfl⟩
  · refine once.keep rfl ?_ ?_ (fun loop => loop) fun halted => halted
    · intro k
      have calls := post_failed posts (by
        intro send member
        obtain ⟨j, _, rfl⟩ := List.mem_map.mp member
        rfl) k
      have same := still k
      have slots := census_put (keeps k) found none
      have zero : keeps k none = 0 ∧ keeps k (some ⟨none, waiter, abandoned⟩) = 0 := ⟨rfl, rfl⟩
      simp only [copies, Proc.put] at slots ⊢
      omega
    · intro x below none
      refine ⟨by simpa [Proc.put] using below, ?_⟩
      have lookup := Proc.lookup_put p id x Option.none (by simp [found])
      simp only [Proc.lookup] at lookup none ⊢
      rw [lookup]
      split
      · rfl
      · exact none
  · cases posts
    refine once.keep rfl ?_ (fun x below none => ⟨below, none⟩) (fun loop => loop) fun halted => halted
    intro k
    have same := still k
    simp only [copies]
    omega

/-- The copies of a response after it was accepted: one of the new one, and the others as before. -/
theorem copies_accept {resp : Response} {waiter : Option Nat} {abandoned : Bool}
    {slot : Option TicketState} {sends : Sends}
    (found : p.lookup resp.id = some ⟨none, waiter, abandoned⟩)
    (accepts : p.Accepts resp waiter abandoned slot sends)
    (posts : post calls sends = some calls') (k : Nat) :
    census (keeps k) (p.put resp.id slot).tickets + census (Call.took k) calls' ≤
      copies p calls k + if k = p.frames.length then 1 else 0 := by
  have slots := census_put (keeps k) found slot
  have zero : keeps k (some ⟨none, waiter, abandoned⟩) = 0 := rfl
  have took := post_took posts k
  have sent : keeps k slot +
      census (fun send => if send.2.frame = some k then 1 else 0) sends ≤
      if k = p.frames.length then 1 else 0 := by
    cases accepts with
    | abandoned => exact Nat.zero_le _
    | waiter =>
      simp only [keeps, census_cons, census_nil, Response.result, Option.some.injEq, eq_comm]
      omega
    | stored =>
      simp only [keeps, census_nil, Response.result, Option.some.injEq, eq_comm]
      omega
  simp only [copies]
  omega

theorem frame {resp : Response} {sends : Sends} (once : Once p calls) (loop : p.reader = .loop)
    (read : p.frame resp = some (p', sends)) (posts : post calls sends = some calls') :
    Once p' calls' := by
  have unread (k : Nat) (late : p.frames.length ≤ k) : copies p calls k = 0 :=
    once.nowhere k fun resp => by simp [List.getElem?_eq_none late]
  rcases Proc.frame_cases read with
    ⟨waiter, abandoned, slot, poisoned, found, _, accepts, rfl⟩ | ⟨_, rfl, rfl⟩
  · have fresh {k : Nat} {a : Response} (known : p.frames[k]? = some (a, true)) : a.id ≠ resp.id := by
      intro same
      have done := (once.answered k a known).2
      rw [same, found] at done
      cases done
    have more := copies_accept found accepts posts
    refine ⟨?_, ?_, ?_, ?_, ?_⟩
    · intro k
      have most := more k
      have one := once.once k
      have none := unread k
      simp only [copies] at *
      split at most <;> omega
    · intro k never
      have most := more k
      have late : k ≠ p.frames.length := by
        rintro rfl
        exact never resp List.getElem?_concat_length
      have none := once.nowhere k fun a known => never a (by
        rw [List.getElem?_append_left (List.getElem?_eq_some_iff.mp known).1, known])
      simp only [copies, if_neg late] at *
      omega
    · intro k l a b first second same
      rcases getElem?_concat_cases first with old | ⟨rfl, here⟩
      · rcases getElem?_concat_cases second with older | ⟨rfl, now⟩
        · exact once.single k l a b old older same
        · cases now
          exact absurd same (fresh old)
      · cases here
        rcases getElem?_concat_cases second with older | ⟨rfl, now⟩
        · exact absurd same.symm (fresh older)
        · rfl
    · intro k a known
      have lookup (x : Nat) := Proc.lookup_put p resp.id x slot (by simp [found])
      have answered : Proc.owed slot = 0 := by cases accepts <;> rfl
      simp only [Proc.lookup] at lookup ⊢
      rcases getElem?_concat_cases known with old | ⟨rfl, here⟩
      · have before := once.answered k a old
        refine ⟨by simpa [Proc.put] using before.1, ?_⟩
        rw [lookup, if_neg (fresh old)]
        exact before.2
      · cases here
        have inside := (List.getElem?_eq_some_iff.mp (tickets_at found)).1
        refine ⟨by simpa [Proc.put] using inside, ?_⟩
        rw [lookup, if_pos rfl]
        exact answered
    · intro k a known
      rcases getElem?_concat_cases known with old | ⟨_, here⟩
      · exact absurd loop (once.refused k a old).1
      · cases here
  · cases posts
    refine ⟨once.once, ?_, ?_, ?_, ?_⟩
    · intro k never
      exact once.nowhere k fun a known => never a (by
        rw [List.getElem?_append_left (List.getElem?_eq_some_iff.mp known).1, known])
    · intro k l a b first second
      rcases getElem?_concat_cases first with old | ⟨_, here⟩
      · rcases getElem?_concat_cases second with older | ⟨_, now⟩
        · exact once.single k l a b old older
        · cases now
      · cases here
    · intro k a known
      rcases getElem?_concat_cases known with old | ⟨_, here⟩
      · exact once.answered k a old
      · cases here
    · intro k a known
      refine ⟨(fun wrong => by cases wrong), ?_⟩
      cases exited : p.procExited <;> simp [Proc.killIfAlive, exited]

theorem deal (once : Once p calls) (deal : Deal p calls p' calls') : Once p' calls' := by
  cases deal with
  | enter begins =>
    refine once.keep rfl ?_ (fun x below none => ⟨below, none⟩) (fun loop => loop) fun halted => halted
    intro k
    simp [copies, Call.took, begins.taken]
  | turns turns => exact once.turns turns
  | quiet at_ quiet => exact once.quiet at_ quiet
  | register at_ open_ =>
    refine once.keep rfl ?_ ?_ (fun loop => loop) fun halted => halted
    · intro k
      have still := census_set_same (Call.took k) at_
        (show (Call.sending p.tickets.length).took k = _ from rfl)
      simp only [copies, Proc.register, census_concat, keeps]
      omega
    · intro x below none
      rw [Proc.lookup_register, if_neg (by omega)]
      exact ⟨by simp [Proc.register]; omega, none⟩
  | collect at_ found stored alone takes =>
    rename_i i id c c' t r
    refine once.put at_ found (fun _ => rfl) ?_
    intro k
    obtain ⟨res, waiter, abandoned⟩ := t
    cases stored
    simp [keeps, Call.took, takes.taken.1, takes.taken.2]
  | park at_ found empty alone kept =>
    rename_i i id t
    obtain ⟨res, waiter, abandoned⟩ := t
    cases empty
    exact once.put at_ found (fun none => none) fun k => Nat.le_refl _
  | abandon at_ =>
    rename_i i id err
    refine once.keep ?_ ?_ ?_ ?_ ?_
    · unfold Proc.abandon
      split <;> rfl
    · intro k
      have slots := census_abandon (p := p) (keeps k) id (by
        rintro ⟨_ | r, waiter, abandoned⟩ <;> rfl)
      have still := census_set_same (Call.took k) at_
        (show (Call.waited id (.failed err.err)).took k = _ from rfl)
      have zero : (Call.cancelling id).took k = 0 := rfl
      simp only [copies, census_concat]
      omega
    · intro x below none
      refine ⟨?_, ?_⟩
      · unfold Proc.abandon
        split
        · simpa [Proc.put] using below
        · exact below
      · rw [Proc.lookup_abandon]
        split
        · cases slot : p.lookup x with
          | none => rfl
          | some t =>
            rw [slot] at none
            obtain ⟨_ | r, waiter, abandoned⟩ := t
            · cases none
            · rfl
        · exact none
    · unfold Proc.abandon
      split <;> exact fun loop => loop
    · unfold Proc.abandon
      split <;> exact fun halted => halted
  | drop at_ found empty alone =>
    rename_i i id t
    obtain ⟨res, waiter, abandoned⟩ := t
    cases empty
    exact once.put at_ found (fun none => none) fun k => Nat.le_refl _
  | unsent at_ failed posts => exact once.unsent at_ failed posts
  | close at_ _ posts => exact once.close at_ posts
  | frame loop read posts => exact once.frame loop read posts
  | sweep _ _ posts => exact once.sweep posts

end Once

end Gusset.Isolate
