import Mathlib.Data.List.Basic

/-!
# Lib — Bounded

Vectors and texts of limited capacity, where what does not fit is left out
and nobody is told.

A push on a full vector has no effect, so a run of pushes keeps the first
`cap` elements. A text is written in pieces: a piece that does not fit is
left out whole, and so is what was to follow it.
-/

namespace RuntimeBle.Lib

variable {α : Type} {cap : Nat}

/-! ## Vectors -/

/-- A push that a full list refuses. -/
def pushBounded (cap : Nat) (xs : List α) (x : α) : List α :=
  if xs.length < cap then xs ++ [x] else xs

theorem foldl_pushBounded {ys : List α} (ys' : List α) (h : ys.length ≤ cap) :
    ys'.foldl (pushBounded cap) ys = (ys ++ ys').take cap := by
  induction ys' generalizing ys with
  | nil => rw [List.foldl_nil, List.append_nil, List.take_of_length_le h]
  | cons y ys' ih =>
      rw [List.foldl_cons, pushBounded]
      split
      · rename_i hroom
        rw [ih (by rw [List.length_append]; exact hroom), List.append_assoc]
        rfl
      · rename_i hfull
        have hlen : ys.length = cap := by omega
        rw [ih h, List.take_append_of_le_length (by omega),
          List.take_append_of_le_length (by omega)]

/-! ## Texts -/

/-- At most `cap` items. -/
structure Text (α : Type) (cap : Nat) where
  items : List α
  fits : items.length ≤ cap

namespace Text

/-- No items. -/
def empty : Text α cap := ⟨[], Nat.zero_le _⟩

/-- A piece is added whole, or not at all. -/
def extend (s : Text α cap) (piece : List α) : Option (Text α cap) :=
  if h : s.items.length + piece.length ≤ cap then
    some ⟨s.items ++ piece, by rwa [List.length_append]⟩
  else none

/-- The pieces are written until one does not fit. -/
def write (s : Text α cap) : List (List α) → Text α cap
  | [] => s
  | piece :: pieces =>
      match s.extend piece with
      | some t => t.write pieces
      | none => s

variable {s : Text α cap} {piece : List α} {pieces : List (List α)}

@[simp] theorem items_empty : (empty : Text α cap).items = [] := rfl

@[simp] theorem write_nil : s.write [] = s := rfl

theorem write_cons_of_fits (h : s.items.length + piece.length ≤ cap) :
    s.write (piece :: pieces)
      = (⟨s.items ++ piece, by rwa [List.length_append]⟩ : Text α cap).write pieces := by
  rw [write, extend, dif_pos h]

theorem write_cons_of_not_fits (h : cap < s.items.length + piece.length) :
    s.write (piece :: pieces) = s := by
  rw [write, extend, dif_neg (Nat.not_le.mpr h)]

/-- **What fits is written.** -/
theorem items_write (h : s.items.length + pieces.flatten.length ≤ cap) :
    (s.write pieces).items = s.items ++ pieces.flatten := by
  induction pieces generalizing s with
  | nil => rw [List.flatten_nil, List.append_nil, write_nil]
  | cons piece pieces ih =>
      rw [List.flatten_cons, List.length_append] at h
      rw [write_cons_of_fits (by omega), ih (by rw [List.length_append]; omega),
        List.flatten_cons, List.append_assoc]

end Text

end RuntimeBle.Lib
