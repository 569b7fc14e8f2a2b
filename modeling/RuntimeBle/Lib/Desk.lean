import RuntimeBle.Lib.Mailbox

/-!
# Lib — Desk

A mailbox seen from a distance: a call, and a consumer's turn at its slot,
each take effect at once. What is left of the interleaving is the order of
calls and turns.

`Desk.call_mem` says that a call does to the memory what `Call.run` does.
-/

namespace RuntimeBle.Lib.Mailbox

variable {S W B R C O : Type}

/-- The same mailbox with a mark on every request and every consumer. -/
def tagged {α β : Type} (X : Mailbox S W B R C O) : Mailbox S W B (R × α) (C × β) O where
  call r := X.call r.1
  slotOf k := X.slotOf k.1
  holds k := X.holds k.1
  handle k := X.handle k.1
  asks k r := X.asks k.1 r.1
  clearable := X.clearable

/-- The parameters, the queued commands, and what the consumers have done. -/
structure Desk (S W B R C O : Type) where
  params : Params W B
  slot : S → Option (Queued R)
  served : List (R × C × O)

namespace Desk

/-- Nothing queued, nothing served. -/
def start (p : Params W B) : Desk S W B R C O :=
  { params := p, slot := fun _ => none, served := [] }

/-- The memory the callers see. -/
def mem (d : Desk S W B R C O) : Mem S W B where
  slot s := (d.slot s).elim 0 Queued.cmd
  params := d.params

variable [DecidableEq S] [DecidableEq W] [DecidableEq B]

/-- A call of `c` for `r`; `false` when it is refused. -/
def call (d : Desk S W B R C O) (r : R) (c : Call S W B) : Bool × Desk S W B R C O :=
  match d.slot c.slot with
  | some _ => (false, { d with params := d.params.puts c.early })
  | none =>
      (true,
        { d with
          params := d.params.puts (c.early ++ c.late)
          slot := Function.update d.slot c.slot (some { req := r, cmd := c.cmd }) })

/-- A consumer's turn; nothing happens at an empty slot. -/
def serve (X : Mailbox S W B R C O) (d : Desk S W B R C O) (k : C) : Desk S W B R C O :=
  match d.slot (X.slotOf k) with
  | none => d
  | some q =>
      { d with
        slot := Function.update d.slot (X.slotOf k) none
        served := d.served ++ [(q.req, k, (X.handle k q.cmd).eval d.params)] }

/-- No queued command is the free mark. -/
def Marked (d : Desk S W B R C O) : Prop := ∀ s q, d.slot s = some q → q.cmd ≠ 0

theorem call_mem {d : Desk S W B R C O} (h : d.Marked) (r : R) (c : Call S W B) :
    ((d.call r c).1, (d.call r c).2.mem) = c.run d.mem := by
  unfold call Call.run
  cases hq : d.slot c.slot with
  | none =>
      have hupdate : (fun s => ((Function.update d.slot c.slot
            (some { req := r, cmd := c.cmd })) s).elim 0 Queued.cmd)
          = Function.update d.mem.slot c.slot c.cmd := by
        funext s
        by_cases hs : s = c.slot
        · subst hs
          simp
        · simp [mem, hs]
      simpa [mem, hq, Params.puts_append] using hupdate
  | some q =>
      have hbusy : q.cmd ≠ 0 := h _ _ hq
      simp [mem, hq, hbusy]

end Desk

end RuntimeBle.Lib.Mailbox
