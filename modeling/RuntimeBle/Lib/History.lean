import Mathlib.Data.List.Basic

/-!
# Lib — History

Logs of events, the newest first, and what has happened since an event of
some kind.
-/

namespace RuntimeBle.Lib

variable {ε : Type}

/-- The events after the last one at which `stop` is true. -/
def since (stop : ε → Bool) (log : List ε) : List ε := log.takeWhile fun e => !stop e

section Since

variable {stop : ε → Bool} {e : ε} {log : List ε}

@[simp] theorem since_nil : since stop [] = [] := rfl

theorem since_cons_of_stop (h : stop e = true) : since stop (e :: log) = [] := by
  simp [since, h]

theorem since_cons_of_not (h : stop e = false) : since stop (e :: log) = e :: since stop log := by
  simp [since, h]

theorem since_append_of_not {mid : List ε} (hmid : ∀ e ∈ mid, stop e = false) :
    since stop (mid ++ log) = mid ++ since stop log := by
  induction mid with
  | nil => rfl
  | cons e' mid ih =>
      rw [List.cons_append, since_cons_of_not (hmid e' List.mem_cons_self),
        ih fun e he => hmid e (List.mem_cons_of_mem _ he)]
      rfl

/-- The events between two, the older one of which stops. -/
theorem since_append_cons {mid : List ε} (hmid : ∀ e ∈ mid, stop e = false)
    (h : stop e = true) : since stop (mid ++ e :: log) = mid := by
  rw [since_append_of_not hmid, since_cons_of_stop h, List.append_nil]

end Since

/-- `p` holds of every event and the log it came to. -/
def EachEvent (p : ε → List ε → Prop) : List ε → Prop
  | [] => True
  | e :: log => p e log ∧ EachEvent p log

/-- Events that do not stop have no part in what is asked of those that do. -/
theorem EachEvent.append_of_not {stop : ε → Bool} {P : List ε → Prop} {log : List ε}
    (h : EachEvent (fun e log => stop e = true → P log) log) (mid : List ε)
    (hmid : ∀ e ∈ mid, stop e = false) :
    EachEvent (fun e log => stop e = true → P log) (mid ++ log) := by
  induction mid with
  | nil => exact h
  | cons e mid ih =>
      refine ⟨fun hstop => ?_, ih fun e' he' => hmid e' (List.mem_cons_of_mem _ he')⟩
      rw [hmid e List.mem_cons_self] at hstop
      cases hstop

theorem EachEvent.of_append {p : ε → List ε → Prop} {post log : List ε} {e : ε}
    (h : EachEvent p (post ++ e :: log)) : p e log := by
  induction post with
  | nil => exact h.1
  | cons e' post ih => exact ih h.2

end RuntimeBle.Lib
