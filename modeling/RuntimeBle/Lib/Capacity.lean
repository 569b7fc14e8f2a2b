import Mathlib.Algebra.Ring.Nat

/-!
# Lib — Capacity

Programs that fill something of limited capacity and stop at its end.

`Fills w f` says that `f` takes up `w` places, or stops when there are not
that many left. The rules follow the program: a bind adds up, and so does a
fold over a list. What a loop that has not stopped adds up to otherwise is
left to `foldlM_eq_ok`.
-/

namespace RuntimeBle.Lib

variable {σ ε α : Type}

/-- A store: how much is in it, how much it holds, and how it complains. -/
structure Capacity (σ ε : Type) where
  size : σ → Nat
  cap : Nat
  full : ε

namespace Capacity

variable {C : Capacity σ ε} {v w : Nat} {f : σ → Except ε σ}

/-- `f` takes up `w` places. -/
def Fills (C : Capacity σ ε) (w : Nat) (f : σ → Except ε σ) : Prop :=
  ∀ s, C.size s ≤ C.cap →
    if C.size s + w ≤ C.cap then ∃ t, f s = .ok t ∧ C.size t = C.size s + w
    else f s = .error C.full

theorem Fills.ok (h : C.Fills w f) {s : σ} (hs : C.size s + w ≤ C.cap) :
    ∃ t, f s = .ok t ∧ C.size t = C.size s + w := by
  have hfill := h s (by omega)
  rwa [if_pos hs] at hfill

theorem Fills.error (h : C.Fills w f) {s : σ} (hs : C.size s ≤ C.cap)
    (hfull : ¬ C.size s + w ≤ C.cap) : f s = .error C.full := by
  have hfill := h s hs
  rwa [if_neg hfull] at hfill

/-- What has not stopped has not overrun. -/
theorem Fills.size_le (h : C.Fills w f) {s t : σ} (hs : C.size s ≤ C.cap) (hok : f s = .ok t) :
    C.size t ≤ C.cap := by
  by_cases hfit : C.size s + w ≤ C.cap
  · obtain ⟨u, hu, hsize⟩ := h.ok hfit
    rw [hok] at hu
    cases hu
    omega
  · rw [h.error hs hfit] at hok
    cases hok

theorem fills_pure {f : σ → σ} (h : ∀ s, C.size (f s) = C.size s) :
    C.Fills 0 fun s => pure (f s) := by
  intro s hs
  simp only [Nat.add_zero, if_pos hs]
  exact ⟨f s, rfl, h s⟩

/-- A change beforehand that takes up nothing. -/
theorem Fills.comp (h : C.Fills w f) (m : σ → σ) (hm : ∀ s, C.size (m s) = C.size s) :
    C.Fills w fun s => f (m s) := by
  intro s hs
  have hfill := h (m s) (by rwa [hm])
  rwa [hm] at hfill

/-- What comes second may depend on where the first began. -/
theorem Fills.bind {g : σ → σ → Except ε σ} (hf : C.Fills v f) (hg : ∀ s, C.Fills w (g s)) :
    C.Fills (v + w) fun s => f s >>= g s := by
  intro s hs
  split
  · rename_i hfit
    obtain ⟨t, ht, hsize⟩ := hf.ok (s := s) (by omega)
    obtain ⟨u, hu, husize⟩ := (hg s).ok (s := t) (by omega)
    refine ⟨u, ?_, by omega⟩
    show f s >>= g s = .ok u
    rw [ht]
    exact hu
  · rename_i hfull
    show f s >>= g s = .error C.full
    by_cases hfirst : C.size s + v ≤ C.cap
    · obtain ⟨t, ht, hsize⟩ := hf.ok hfirst
      rw [ht]
      exact (hg s).error (by omega) (by omega)
    · rw [hf.error hs hfirst]
      rfl

theorem Fills.foldlM {step : σ → α → Except ε σ} {n : α → Nat}
    (h : ∀ x, C.Fills (n x) fun s => step s x) (xs : List α) :
    C.Fills (xs.map n).sum fun s => xs.foldlM step s := by
  induction xs with
  | nil => exact fills_pure fun _ => rfl
  | cons x xs ih =>
      simp only [List.foldlM_cons, List.map_cons, List.sum_cons]
      exact (h x).bind fun _ => ih

theorem Fills.congr (h : C.Fills v f) (hvw : v = w) : C.Fills w f := hvw ▸ h

end Capacity

/-! ## Programs that have not stopped -/

theorem bind_eq_ok {β : Type} {x : Except ε α} {f : α → Except ε β} {r : β}
    (h : x >>= f = .ok r) : ∃ a, x = .ok a ∧ f a = .ok r := by
  cases x with
  | error e => cases h
  | ok a => exact ⟨a, rfl, h⟩

/-- **The loop rule**: what the steps add up to, for a relation with a unit
that composes. -/
theorem foldlM_eq_ok {R : Nat → σ → σ → Prop} {step : σ → α → Except ε σ} (n : α → Nat)
    (hrefl : ∀ s, R 0 s s) (htrans : ∀ {m n s t u}, R m s t → R n t u → R (m + n) s u)
    {xs : List α} (hstep : ∀ x ∈ xs, ∀ s t, step s x = .ok t → R (n x) s t) :
    ∀ {s t : σ}, xs.foldlM step s = .ok t → R (xs.map n).sum s t := by
  induction xs with
  | nil =>
      intro s t h
      cases h
      exact hrefl s
  | cons x xs ih =>
      intro s t h
      rw [List.foldlM_cons] at h
      obtain ⟨u, hfirst, hrest⟩ := bind_eq_ok h
      rw [List.map_cons, List.sum_cons]
      exact htrans (hstep x List.mem_cons_self s u hfirst)
        (ih (fun y hy => hstep y (List.mem_cons_of_mem _ hy)) hrest)

end RuntimeBle.Lib
