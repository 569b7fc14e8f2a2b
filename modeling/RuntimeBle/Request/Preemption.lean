import RuntimeBle.Request.Handover

/-!
# Request — Preemption

One calling thread and the runtime thread, interleaved access by access.

The command loops `swap` a command out of its slot and read its parameters
afterwards. In between the slot is free and the caller may be at its next
request, whose parameters go to the same words.
-/

namespace RuntimeBle.Request

open RuntimeBle.Lib Mailbox

variable {b : Build} {isValid : RequestedConnParams → Bool}

/-- The mailbox of the request statics, with calling threads `T`. -/
abbrev ReqState (T : Type) := State Slot Word Buf ApiCall Consumer Outcome T

/-- The loops that take a command before they read its parameters. -/
def Consumer.takesFirst (k : Consumer) : Prop := k.holds = false

/-- **Command and parameters stay together** in every run of a single
caller in which no write changes what a queued command, or the one being
read for, is still to be read from. -/
theorem commands_keep_parameters {σ : ReqState Unit}
    (h : ((mailbox b isValid).machine Unit).Reach
      (Undisturbed (mailbox b isValid) Consumer.takesFirst) σ) :
    ∀ s a k o, Consumer.takesFirst k → (a, some (k, o)) ∈ σ.settled s →
      o = k.asks b isValid a :=
  (faithful_of_reach (mailbox_lawful b isValid) h).exact

/-- The next `set_phy` comes between the swap and the read of the last. -/
theorem setPhy_overtaken : ∃ σ : ReqState Unit,
    ((mailbox {} fun _ => true).machine Unit).Reachable σ ∧
      ∃ a k o, Consumer.takesFirst k ∧ (a, some (k, o)) ∈ σ.settled .linkCmd ∧
        o ≠ k.asks {} (fun _ => true) a := by
  obtain ⟨σ, hσ, hmem⟩ := Machine.exists_reachable_of_exec
    (M := (mailbox {} fun _ => true).machine Unit)
    [.enter () (.setPhy 2), .act (), .act (), .act (), .take .linkControl,
      .enter () (.setPhy 3), .act (), .read, .finish]
    (q := fun σ => (ApiCall.setPhy 2, some (Consumer.linkControl, Outcome.link (.setPhy .leCoded)))
      ∈ σ.settled .linkCmd)
    (State.idle_start (p := bootMem.params)) (by decide)
  exact ⟨σ, hσ, .setPhy 2, .linkControl, .link (.setPhy .leCoded), rfl,
    of_decide_eq_true hmem, by decide⟩

/-- Taken and read before the next call, the command is the one asked for. -/
theorem setPhy_in_time : ∃ σ : ReqState Unit,
    (ApiCall.setPhy 2, some (Consumer.linkControl, Outcome.link (.setPhy .le2M)))
        ∈ σ.settled .linkCmd ∧
      ∀ s a k o, Consumer.takesFirst k → (a, some (k, o)) ∈ σ.settled s →
        o = k.asks {} (fun _ => true) a := by
  obtain ⟨σ, hσ, hmem⟩ := Machine.exists_reach_of_execWhile
    (M := (mailbox {} fun _ => true).machine Unit)
    (p := calm allSlots [()]) (fun _ _ => undisturbed_of_calm mem_allSlots (by simp))
    [.enter () (.setPhy 2), .act (), .act (), .act (), .take .linkControl, .read, .finish,
      .enter () (.setPhy 3), .act ()]
    (q := fun σ => (ApiCall.setPhy 2, some (Consumer.linkControl, Outcome.link (.setPhy .le2M)))
      ∈ σ.settled .linkCmd)
    (State.idle_start (p := bootMem.params)) (by decide)
  exact ⟨σ, of_decide_eq_true hmem, commands_keep_parameters hσ⟩

end RuntimeBle.Request
