import RuntimeBle.Lib.History

/-!
# Lib — Brackets

Logs, the newest event first, in which some events open a bracket and some
close it.
-/

namespace RuntimeBle.Lib

variable {ε : Type}

/-- `mark e` is `some true` where `e` opens the bracket, `some false` where
it closes it. The bracket is open when the newest marked event opens it. -/
def isOpen (mark : ε → Option Bool) (log : List ε) : Bool := (log.findSome? mark).getD false

/-- Opening and closing events strictly alternate, an opening one first. -/
def Alternating (mark : ε → Option Bool) (log : List ε) : Prop :=
  EachEvent (fun e log => mark e ≠ some (isOpen mark log)) log

/-- The first event to be marked in what came later closes the bracket. -/
def ClosedIn (mark : ε → Option Bool) (post : List ε) : Prop :=
  ∃ later c mid, post = later ++ c :: mid ∧ mark c = some false ∧ ∀ x ∈ mid, mark x = none

/-- Every opening event is followed by its closing one. -/
def EachClosed (mark : ε → Option Bool) (log : List ε) : Prop :=
  ∀ post e pre, log = post ++ e :: pre → mark e = some true → ClosedIn mark post

section Brackets

variable {mark : ε → Option Bool} {e : ε} {log : List ε}

@[simp] theorem isOpen_nil : isOpen mark [] = false := rfl

theorem isOpen_cons_of_mark {b : Bool} (h : mark e = some b) : isOpen mark (e :: log) = b := by
  simp [isOpen, h]

theorem isOpen_cons_of_unmarked (h : mark e = none) : isOpen mark (e :: log) = isOpen mark log := by
  simp [isOpen, h]

theorem alternating_nil : Alternating mark [] := trivial

theorem Alternating.tail (h : Alternating mark (e :: log)) : Alternating mark log := h.2

theorem Alternating.cons_of_unmarked (h : Alternating mark log) (he : mark e = none) :
    Alternating mark (e :: log) :=
  ⟨by simp [he], h⟩

theorem Alternating.cons_of_mark {b : Bool} (h : Alternating mark log) (he : mark e = some b)
    (hopen : isOpen mark log = !b) : Alternating mark (e :: log) :=
  ⟨by simp [he, hopen], h⟩

theorem ClosedIn.cons {post : List ε} (h : ClosedIn mark post) : ClosedIn mark (e :: post) := by
  obtain ⟨later, c, mid, rfl, hc, hmid⟩ := h
  exact ⟨e :: later, c, mid, rfl, hc, hmid⟩

/-- Behind an opening event there is its closing one, or nothing marked. -/
theorem Alternating.closed_or_open {post pre : List ε}
    (h : Alternating mark (post ++ e :: pre)) (he : mark e = some true) :
    ClosedIn mark post ∨ (∀ x ∈ post, mark x = none) ∧ isOpen mark (post ++ e :: pre) = true := by
  induction post with
  | nil => exact .inr ⟨nofun, isOpen_cons_of_mark he⟩
  | cons x post ih =>
      rcases ih h.tail with hclosed | ⟨hnone, hopen⟩
      · exact .inl hclosed.cons
      · cases hx : mark x with
        | none =>
            refine .inr ⟨?_, ?_⟩
            · intro y hy
              rcases List.mem_cons.mp hy with rfl | hy
              · exact hx
              · exact hnone y hy
            · rw [List.cons_append, isOpen_cons_of_unmarked hx]
              exact hopen
        | some b =>
            cases b with
            | false => exact .inl ⟨[], x, post, rfl, hx, hnone⟩
            -- a second opening event does not alternate
            | true => exact absurd (hx.trans (congrArg some hopen.symm)) h.1

/-- **The bracket rule**: in an alternating log whose bracket is closed at
the end, it was closed each time. -/
theorem Alternating.eachClosed (h : Alternating mark log) (hclosed : isOpen mark log = false) :
    EachClosed mark log := by
  rintro post e pre rfl he
  rcases h.closed_or_open he with hpost | ⟨-, hopen⟩
  · exact hpost
  · rw [hclosed] at hopen
    cases hopen

theorem EachClosed.isOpen_eq_false (h : EachClosed mark log) : isOpen mark log = false := by
  cases hopen : log.findSome? mark with
  | none => simp [isOpen, hopen]
  | some b =>
      cases b with
      | false => simp [isOpen, hopen]
      | true =>
          obtain ⟨post, e, pre, hlog, he, hpost⟩ := List.findSome?_eq_some_iff.mp hopen
          obtain ⟨later, c, mid, rfl, hc, -⟩ := h post e pre hlog he
          rw [hpost c (by simp)] at hc
          cases hc

end Brackets

end RuntimeBle.Lib
