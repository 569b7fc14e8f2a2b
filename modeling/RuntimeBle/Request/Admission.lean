import RuntimeBle.Request.Handover

/-!
# Request — Admission

Several calling threads, a callback on the runtime thread among them,
interleaved access by access with each other and with the consumers.

A request is admitted by a load of the slot, and fills it by a store some
accesses later. Two callers may both see it free.
-/

namespace RuntimeBle.Request

open RuntimeBle.Lib Mailbox

variable {b : Build} {isValid : RequestedConnParams → Bool} {T : Type} [DecidableEq T]

/-- One step of a run in which no two requests meet: no write changes what
an accepted request is still to be read from or another caller has
written; no busy test is passed while another caller is between its own and
its command; and no flag is cleared by the start of a session or channel
with a request in it. -/
def Separate (X : Mailbox Slot Word Buf ApiCall Consumer Outcome)
    (σ : State Slot Word Buf ApiCall Consumer Outcome T) (l : Label Slot ApiCall Consumer T) :
    Prop :=
  Undisturbed X (fun _ => True) σ l ∧ Exclusive σ l ∧ Kept σ l

/-- **Every accepted request is carried out once, in order, and as asked**,
or is still waiting or in hand. -/
theorem accepted_all_served
    {σ : State Slot Word Buf ApiCall Consumer Outcome T}
    (h : ((mailbox b isValid).machine T).Reach (Separate (mailbox b isValid)) σ) (s : Slot) :
    σ.accepted s = (σ.settled s).map (·.1) ++ σ.inHand (mailbox b isValid) s ++ σ.waiting s ∧
      ∀ e ∈ σ.settled s, ∃ k, e.2 = some (k, Consumer.asks b isValid k e.1) := by
  have hX := mailbox_lawful b isValid
  have hfaithful := faithful_of_reach hX (h.mono fun _ _ hok => hok.1)
  have haccounted := accounted_of_reach hX (h.mono fun _ _ hok => hok.2.1)
  refine ⟨haccounted.account s, fun e he => ?_⟩
  obtain ⟨k, o, hout⟩ := consumed_of_reach (h.mono fun _ _ hok => hok.2.2) s e he
  obtain ⟨a, out⟩ := e
  subst hout
  exact ⟨k, congrArg (fun o => some (k, o)) (hfaithful.exact s a k o trivial he)⟩

/-- Both callers pass the test of `queue_tx` before either sets the flag:
both calls are accepted, and the first request is gone. -/
theorem send_overwritten :
    ∃ σ : State Slot Word Buf ApiCall Consumer Outcome Bool,
      ((mailbox {} fun _ => true).machine Bool).Reachable σ ∧
        σ.accepted .sendReq = [.send (some [1]), .send (some [2])] ∧
        (σ.settled .sendReq).map (·.1) = [.send (some [2])] ∧
        σ.inHand (mailbox {} fun _ => true) .sendReq = [] ∧ σ.waiting .sendReq = [] := by
  obtain ⟨σ, hσ, htest⟩ := Machine.exists_reachable_of_exec
    (M := (mailbox {} fun _ => true).machine Bool)
    [.enter false (.send (some [1])), .act false, .enter true (.send (some [2])), .act true,
      .act false, .act false, .act false, .act false, .act false,
      .act true, .act true, .act true, .act true, .act true,
      .take .txLoop, .read, .read, .read, .read, .finish]
    (q := fun σ => decide (σ.accepted .sendReq = [.send (some [1]), .send (some [2])] ∧
        (σ.settled .sendReq).map (·.1) = [.send (some [2])] ∧
        σ.inHand (mailbox {} fun _ => true) .sendReq = [] ∧ σ.waiting .sendReq = []))
    (State.idle_start (p := bootMem.params)) (by decide)
  exact ⟨σ, hσ, of_decide_eq_true htest⟩

/-- One after the other the two requests both go out. -/
theorem send_in_turn :
    ∃ σ : State Slot Word Buf ApiCall Consumer Outcome Bool,
      (σ.settled .sendReq).map (·.1) = [.send (some [1]), .send (some [2])] ∧
        ∀ s, σ.accepted s
            = (σ.settled s).map (·.1) ++ σ.inHand (mailbox {} fun _ => true) s ++ σ.waiting s ∧
          ∀ e ∈ σ.settled s, ∃ k, e.2 = some (k, Consumer.asks {} (fun _ => true) k e.1) := by
  obtain ⟨σ, hσ, htest⟩ := Machine.exists_reach_of_execWhile
    (M := (mailbox {} fun _ => true).machine Bool)
    (p := calm allSlots [false, true])
    (fun _ _ h => show Separate (mailbox {} fun _ => true) _ _ from
      ⟨undisturbed_of_calm mem_allSlots (by simp) h, exclusive_of_calm (by simp) h,
        kept_of_calm h⟩)
    [.enter false (.send (some [1])), .act false, .act false, .act false, .act false,
      .act false, .act false, .take .txLoop, .read, .read, .read, .read, .finish,
      .enter true (.send (some [2])), .act true, .act true, .act true, .act true, .act true,
      .act true, .take .txLoop, .read, .read, .read, .read, .finish]
    (q := fun σ => (σ.settled .sendReq).map (·.1) = [.send (some [1]), .send (some [2])])
    (State.idle_start (p := bootMem.params)) (by decide)
  exact ⟨σ, of_decide_eq_true htest, accepted_all_served hσ⟩

end RuntimeBle.Request
