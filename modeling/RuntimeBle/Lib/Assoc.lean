import Mathlib.Data.List.Perm.Subperm
import Mathlib.Data.List.Nodup
import Mathlib.Data.List.Range

/-!
# Lib — Assoc

Association lists between names and slot numbers, read from either side.
With no name and no slot twice, a lookup finds exactly the entry that is
there; and a list of `n` entries with slots below `n` uses every slot.
-/

namespace RuntimeBle.Lib

variable {α β : Type}

theorem find?_fst_of_mem [DecidableEq α] {l : List (α × β)} {a : α} {b : β}
    (hnd : (l.map (·.1)).Nodup) (h : (a, b) ∈ l) :
    (l.find? fun e => e.1 = a) = some (a, b) := by
  have hsome : (l.find? fun e => e.1 = a).isSome :=
    List.find?_isSome.mpr ⟨(a, b), h, by simp⟩
  obtain ⟨e, he⟩ := Option.isSome_iff_exists.mp hsome
  have hkey : e.1 = a := by simpa using List.find?_some he
  rw [he, List.inj_on_of_nodup_map hnd (List.mem_of_find?_eq_some he) h hkey]

theorem find?_eq_none_of_forall {p : α → Prop} [DecidablePred p] {l : List α}
    (h : ∀ e ∈ l, ¬ p e) : (l.find? fun e => p e) = none := by
  simpa [List.find?_eq_none] using h

theorem find?_eq_some_of_unique {p : α → Prop} [DecidablePred p] {l : List α} {x : α}
    (hx : x ∈ l) (hp : p x) (hunique : ∀ y ∈ l, p y → y = x) :
    (l.find? fun e => p e) = some x := by
  have hsome : (l.find? fun e => p e).isSome := List.find?_isSome.mpr ⟨x, hx, by simpa using hp⟩
  obtain ⟨y, hy⟩ := Option.isSome_iff_exists.mp hsome
  have hpy : p y := by simpa using List.find?_some hy
  rw [hy, hunique y (List.mem_of_find?_eq_some hy) hpy]

/-- The entry found under a slot is in the list. -/
theorem mem_of_find?_snd [DecidableEq β] {l : List (α × β)} {a : α} {b b' : β}
    (h : (l.find? fun e => e.2 = b) = some (a, b')) : (a, b) ∈ l ∧ b' = b := by
  have hb : b' = b := by simpa using List.find?_some h
  subst hb
  exact ⟨List.mem_of_find?_eq_some h, rfl⟩

/-- **Pigeonhole.** Distinct slots below `n`, at least `n` of them, are
all the slots below `n`. -/
theorem mem_of_nodup_of_length_le {l : List Nat} {n : Nat} (hnd : l.Nodup)
    (hlt : ∀ i ∈ l, i < n) (hlen : n ≤ l.length) : ∀ i < n, i ∈ l := by
  have hsub : l.Subperm (List.range n) :=
    hnd.subperm fun i hi => List.mem_range.mpr (hlt i hi)
  have hperm : l.Perm (List.range n) := hsub.perm_of_length_le (by simpa using hlen)
  intro i hi
  exact hperm.mem_iff.mpr (List.mem_range.mpr hi)

end RuntimeBle.Lib
