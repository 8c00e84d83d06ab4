import Gusset.Isolate.Routing

/-! The host's permits, the answers that are still somewhere, and the one Close. -/
namespace Gusset.Isolate
open Foundation

variable {p p' : Proc} {calls calls' : List Call}

theorem tickets_at {id : Nat} {t : TicketState} (found : p.lookup id = some t) :
    p.tickets[id]? = some (some t) := by
  simpa [Proc.lookup, Option.join_eq_some_iff] using found

theorem census_put (f : Option TicketState → Nat) {id : Nat} {t : TicketState}
    (found : p.lookup id = some t) (slot : Option TicketState) :
    census f (p.put id slot).tickets + f (some t) = census f p.tickets + f slot :=
  census_set f (tickets_at found) slot

theorem census_abandon (f : Option TicketState → Nat) (id : Nat)
    (same : ∀ t, f (some { t with waiter := none, abandoned := true }) = f (some t)) :
    census f (p.abandon id).tickets = census f p.tickets := by
  unfold Proc.abandon
  cases found : p.lookup id with
  | none => rfl
  | some t => exact census_set_same f (tickets_at found) (same t)

/-- No submit registers a ticket any more. -/
def Proc.shutOff (p : Proc) : Prop := p.closed = true ∨ p.dead.isSome = true

theorem Proc.shutOff.refuses (off : p.shutOff) : p.refusal.isSome := by
  unfold refusal
  rcases off with closed | dead
  · simp [closed]
  · split
    · rfl
    · simp [dead]

theorem Proc.owed_shut (slot : Option TicketState) : owed (shut slot) = owed slot := by
  obtain _ | ⟨_ | r, waiter, abandoned⟩ := slot <;> rfl

/-- Permits: while the reader has not swept the tickets, each one held belongs to a ticket whose
answer has not come or to a submitter that has no ticket. -/
structure Counted (p : Proc) (calls : List Call) : Prop where
  even : p.reader = .loop ∨ (∃ cause, p.reader = .draining cause) →
    p.sem = census Proc.owed p.tickets + census Call.holds calls
  least : census Proc.owed p.tickets + census Call.holds calls ≤ p.sem
  swept : p.reader = .swept ∨ p.reader = .done →
    census Proc.owed p.tickets = 0 ∧ p.shutOff
  halted : p.readerDone = true → p.reader = .done

theorem receive_holds {r : Result} {c c' : Call} (got : c.receive r = some c') :
    c'.holds = c.holds + 0 := by
  obtain ⟨_, _, _, _, _, _, _, same, _⟩ := Call.receive_cases got
  exact same

theorem post_holds {sends : Sends} (posts : post calls sends = some calls') :
    census Call.holds calls' = census Call.holds calls := by
  have all := post_census posts Call.holds (fun _ => 0) fun r c c' got => receive_holds got
  have zero : census (fun _ : Nat × Result => 0) sends = 0 := census_eq_zero _ fun _ _ => rfl
  omega

namespace Counted

/-- The step keeps the balance, and what the reader has swept. -/
theorem keep (counted : Counted p calls)
    (balance : p'.sem + (census Proc.owed p.tickets + census Call.holds calls) =
      p.sem + (census Proc.owed p'.tickets + census Call.holds calls'))
    (reader : p'.reader = p.reader ∧ p'.readerDone = p.readerDone)
    (swept : census Proc.owed p.tickets = 0 → p.shutOff →
      census Proc.owed p'.tickets = 0 ∧ p'.shutOff) : Counted p' calls' := by
  obtain ⟨even, least, wiped, halted⟩ := counted
  refine ⟨?_, by omega, ?_, ?_⟩
  · rw [reader.1]
    intro on
    have before := even on
    omega
  · rw [reader.1]
    intro off
    exact swept (wiped off).1 (wiped off).2
  · rw [reader.1, reader.2]
    exact halted

theorem quiet {i : Nat} {c c' : Call} (counted : Counted p calls) (at_ : calls[i]? = some c)
    (quiet : Quiet p p' c c') : Counted p' (calls.set i c') := by
  have moved := census_set Call.holds at_ c'
  have permits := quiet.permits
  refine counted.keep (by rw [quiet.tickets]; omega) ⟨quiet.reader, quiet.readerDone⟩ ?_
  intro none off
  rw [quiet.tickets]
  refine ⟨none, ?_⟩
  unfold Proc.shutOff
  rw [quiet.closed, quiet.dead]
  exact off

theorem turns (counted : Counted p calls) (turns : p.Turns p') : Counted p' calls := by
  obtain ⟨even, least, wiped, halted⟩ := counted
  have off (was : p.shutOff) : p'.shutOff := by
    unfold Proc.shutOff
    rw [turns.closed, turns.dead]
    exact was
  refine ⟨?_, ?_, ?_, ?_⟩
  · intro on
    rw [turns.sem, turns.tickets]
    apply even
    rcases turns.reader with ⟨same, _⟩ | ⟨loop, _⟩ | ⟨_, done⟩
    · exact same ▸ on
    · exact .inl loop
    · rw [done] at on
      simp at on
  · rw [turns.sem, turns.tickets]
    exact least
  · intro out
    rw [turns.tickets]
    have before : p.reader = .swept ∨ p.reader = .done := by
      rcases turns.reader with ⟨same, _⟩ | ⟨_, ⟨cause, draining⟩, _⟩ | ⟨swept, _⟩
      · exact same ▸ out
      · rw [draining] at out
        simp at out
      · exact .inl swept
    exact ⟨(wiped before).1, off (wiped before).2⟩
  · intro done
    rcases turns.reader with ⟨same, still⟩ | ⟨loop, _, still⟩ | ⟨_, now⟩
    · rw [same]
      exact halted (still ▸ done)
    · have never := halted (still ▸ done)
      rw [loop] at never
      cases never
    · exact now

theorem sweep {cause : Option Text} (counted : Counted p calls)
    (draining : p.reader = .draining cause) (posts : post calls (p.sweep cause).2 = some calls') :
    Counted (p.sweep cause).1 calls' := by
  have tickets : (p.sweep cause).1.tickets = p.tickets.map (Proc.kept p.closed) := by
    unfold Proc.sweep
    split <;> rfl
  have wiped : census Proc.owed (p.sweep cause).1.tickets = 0 := by
    rw [tickets, census_map]
    apply census_eq_zero
    intro slot _
    cases slot with
    | none => rfl
    | some t =>
      simp only [Proc.kept]
      split
      · rename_i stored
        obtain ⟨res, waiter, abandoned⟩ := t
        cases res with
        | none => simp at stored
        | some r => rfl
      · rfl
  have sem : (p.sweep cause).1.sem = p.sem := by
    unfold Proc.sweep
    split <;> rfl
  have reader : (p.sweep cause).1.reader = .swept := by
    unfold Proc.sweep
    split <;> rfl
  have least := counted.least
  have same := post_holds posts
  refine ⟨by simp [reader], by omega, fun _ => ⟨wiped, ?_⟩, ?_⟩
  · unfold Proc.shutOff
    rw [Proc.sweep_dead]
    unfold Proc.latched Proc.sweep
    cases closed : p.closed <;> simp [closed]
  · intro done
    have never := counted.halted (by
      unfold Proc.sweep at done
      split at done <;> exact done)
    rw [draining] at never
    cases never

theorem frame {resp : Response} {sends : Sends} (counted : Counted p calls)
    (loop : p.reader = .loop) (read : p.frame resp = some (p', sends))
    (posts : post calls sends = some calls') : Counted p' calls' := by
  have same := post_holds posts
  rcases Proc.frame_cases read with
    ⟨waiter, abandoned, slot, poisoned, found, some_, accepts, rfl⟩ | ⟨_, rfl, rfl⟩
  · have moved := census_put Proc.owed found slot
    have answered : Proc.owed slot = 0 := by cases accepts <;> rfl
    have one : Proc.owed (some ⟨none, waiter, abandoned⟩) = 1 := rfl
    have sem : p.sem - 1 + 1 = p.sem := Nat.sub_add_cancel some_
    refine counted.keep ?_ ⟨rfl, rfl⟩ ?_
    · simp only [Proc.put] at moved ⊢
      omega
    · intro none off
      refine ⟨?_, off⟩
      simp only [Proc.put] at moved ⊢
      omega
  · have before := counted.even (.inl loop)
    refine ⟨fun _ => ?_, ?_, by simp, ?_⟩
    · cases posts
      exact before
    · cases posts
      exact counted.least
    · intro done
      have never := counted.halted done
      rw [loop] at never
      cases never

theorem unsent {i id : Nat} {err : GoErr} {sends : Sends} (counted : Counted p calls)
    (at_ : calls[i]? = some (.unsent id err)) (failed : p.sendFailed id err = some (p', sends))
    (posts : post (calls.set i (.failing err)) sends = some calls') : Counted p' calls' := by
  have same := post_holds posts
  have still : census Call.holds (calls.set i (.failing err)) = census Call.holds calls :=
    census_set_same Call.holds at_ rfl
  rcases Proc.sendFailed_cases failed with ⟨waiter, abandoned, found, some_, rfl, rfl⟩ | ⟨_, rfl, rfl⟩
  · have moved := census_put Proc.owed found none
    have one : Proc.owed (some ⟨none, waiter, abandoned⟩) = 1 := rfl
    have zero : Proc.owed none = 0 := rfl
    have sem : p.sem - 1 + 1 = p.sem := Nat.sub_add_cancel some_
    refine counted.keep ?_ ⟨rfl, rfl⟩ ?_
    · simp only [Proc.put] at moved ⊢
      omega
    · intro none off
      refine ⟨?_, off⟩
      simp only [Proc.put] at moved ⊢
      omega
  · exact counted.keep (by simp only; omega) ⟨rfl, rfl⟩ fun none off => ⟨none, off⟩

theorem close {i : Nat} (counted : Counted p calls) (at_ : calls[i]? = some .close)
    (posts : post (calls.set i .closing) p.close.2 = some calls') : Counted p.close.1 calls' := by
  have same := post_holds posts
  have still : census Call.holds (calls.set i .closing) = census Call.holds calls :=
    census_set_same Call.holds at_ rfl
  have owed : census Proc.owed p.close.1.tickets = census Proc.owed p.tickets := by
    simp only [Proc.close, census_map, Proc.owed_shut]
  have sem : p.close.1.sem = p.sem := rfl
  exact counted.keep (by omega) ⟨rfl, rfl⟩ fun none _ => ⟨by omega, .inl rfl⟩

theorem deal (counted : Counted p calls) (deal : Deal p calls p' calls') : Counted p' calls' := by
  cases deal with
  | enter begins =>
    have none := begins.holds
    exact counted.keep (by rw [census_concat]; omega) ⟨rfl, rfl⟩ fun none off => ⟨none, off⟩
  | turns turns => exact counted.turns turns
  | quiet at_ quiet => exact counted.quiet at_ quiet
  | register at_ open_ =>
    have moved := census_set Call.holds at_ (.sending p.tickets.length)
    have gave : Call.acquired.holds = 1 ∧ (Call.sending p.tickets.length).holds = 0 := ⟨rfl, rfl⟩
    have one : Proc.owed (some ⟨none, none, false⟩) = 1 := rfl
    refine counted.keep ?_ ⟨rfl, rfl⟩ ?_
    · simp only [Proc.register, census_concat]
      omega
    · intro _ off
      have refuses := off.refuses
      rw [open_] at refuses
      cases refuses
  | collect at_ found stored alone takes =>
    rename_i i id c c' t r
    have moved := census_put Proc.owed found none
    have done : Proc.owed (some t) = 0 := by
      obtain ⟨res, waiter, abandoned⟩ := t
      cases stored
      rfl
    have zero : Proc.owed none = 0 := rfl
    have still := census_set_same Call.holds at_ (takes.holds.2.trans takes.holds.1.symm)
    have sem : (p.put id none).sem = p.sem := rfl
    exact counted.keep (by omega) ⟨rfl, rfl⟩ fun none off => ⟨by omega, off⟩
  | park at_ found empty alone kept =>
    rename_i i id t
    have moved := census_put Proc.owed found (some { t with waiter := some i })
    have same : Proc.owed (some { t with waiter := some i }) = Proc.owed (some t) := by
      obtain ⟨res, waiter, abandoned⟩ := t
      cases empty
      rfl
    have still : census Call.holds (calls.set i (.parked id none)) = census Call.holds calls :=
      census_set_same Call.holds at_ rfl
    have sem : (p.put id (some { t with waiter := some i })).sem = p.sem := rfl
    exact counted.keep (by omega) ⟨rfl, rfl⟩ fun none off => ⟨by omega, off⟩
  | abandon at_ =>
    rename_i i id err
    have owed := census_abandon (p := p) Proc.owed id (by
      rintro ⟨_ | r, waiter, abandoned⟩ <;> rfl)
    have still : census Call.holds (calls.set i (.waited id (.failed err.err))) =
        census Call.holds calls := census_set_same Call.holds at_ rfl
    have fields : (p.abandon id).sem = p.sem ∧ (p.abandon id).reader = p.reader ∧
        (p.abandon id).readerDone = p.readerDone ∧ (p.abandon id).closed = p.closed ∧
        (p.abandon id).dead = p.dead := by
      unfold Proc.abandon
      split <;> exact ⟨rfl, rfl, rfl, rfl, rfl⟩
    obtain ⟨sem, reader, done, closed, dead⟩ := fields
    have zero : (Call.cancelling id).holds = 0 := rfl
    refine counted.keep (by rw [census_concat]; omega) ⟨reader, done⟩ fun none off => ⟨by omega, ?_⟩
    unfold Proc.shutOff
    rw [closed, dead]
    exact off
  | drop at_ found empty alone =>
    rename_i i id t
    have moved := census_put Proc.owed found (some { t with abandoned := true })
    have same : Proc.owed (some { t with abandoned := true }) = Proc.owed (some t) := by
      obtain ⟨res, waiter, abandoned⟩ := t
      cases empty
      rfl
    have still : census Call.holds (calls.set i (.discarded id (.ok none))) =
        census Call.holds calls := census_set_same Call.holds at_ rfl
    have sem : (p.put id (some { t with abandoned := true })).sem = p.sem := rfl
    exact counted.keep (by omega) ⟨rfl, rfl⟩ fun none off => ⟨by omega, off⟩
  | unsent at_ failed posts => exact counted.unsent at_ failed posts
  | close at_ _ posts => exact counted.close at_ posts
  | frame loop read posts => exact counted.frame loop read posts
  | sweep draining _ posts => exact counted.sweep draining posts

end Counted

end Gusset.Isolate
