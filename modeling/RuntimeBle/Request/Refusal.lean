import RuntimeBle.Request.Api

/-!
# Request — Refusal

What a refused request leaves behind.

A function that tests its slot first leaves nothing (`send`, `bond_*`,
`l2cap_send`, and the commands without parameters). The others store their
parameters on the way to `link_cmd` or `central_cmd`, so a refusal with
`ERR_NO_MEM` finds them written over those of the command that is pending.
-/

namespace RuntimeBle.Request

open RuntimeBle.Lib

variable {b : Build} {m : ReqMem} {a : ApiCall}

/-- A refusal finds the parameters that the call writes before its busy
test standing already, if it comes to a refusal at all. -/
def RefusalHarmless (b : Build) (m : ReqMem) (a : ApiCall) : Prop :=
  ∀ c, a.entry b = .ok c → m.slot c.slot = 0 ∨ ∀ x ∈ c.early, x.Held m.params

/-- **Refused without effect**: a call that returns an error leaves all
slots and parameters as they were exactly when its arguments are refused,
its slot is free, or its early writes change nothing. -/
theorem refused_unchanged_iff (b : Build) (m : ReqMem) (a : ApiCall) :
    ((invoke b m a).1 < 0 → (invoke b m a).2 = m) ↔ RefusalHarmless b m a := by
  unfold invoke RefusalHarmless
  cases hentry : a.entry b with
  | error err => simp
  | ok c =>
      have hnd : (c.early.map Put.target).Nodup := by
        have hplaces := (call_spec hentry).1
        rw [places, List.map_append] at hplaces
        exact hplaces.of_append_left
      by_cases hfree : m.slot c.slot = 0
      · simp [Call.run, hfree, runtimeBleOk]
      · have hparams : { m with params := m.params.puts c.early } = m ↔
            m.params.puts c.early = m.params := by
          obtain ⟨slot, params⟩ := m
          simp
        simp [Call.run, hfree, runtimeBleErrNoMem, hparams, Params.puts_eq_self_iff hnd]

/-- A function that tests its slot first never leaves a trace. -/
theorem refusalHarmless_of_testsFirst (h : a.testsFirst = true) : RefusalHarmless b m a := by
  intro c hc
  right
  simp [(call_spec hc).2.1.mpr h]

/-- A second `set_phy` is refused, and the pending one is for its PHY. -/
theorem setPhy_refused_with_effect :
    let m := (invoke {} bootMem (.setPhy 2)).2
    (invoke {} m (.setPhy 3)).1 < 0 ∧ (invoke {} m (.setPhy 3)).2 ≠ m := by
  refine ⟨by decide, fun heq => ?_⟩
  have hword := congrArg (fun m : ReqMem => m.params.word .linkPhy) heq
  exact absurd hword (by decide)

end RuntimeBle.Request
