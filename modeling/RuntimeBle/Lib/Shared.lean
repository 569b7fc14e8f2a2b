import Mathlib.Data.List.Nodup
import Mathlib.Logic.Function.Basic

/-!
# Lib — Shared

Requests handed over through shared memory: a SLOT holds a command (0 when
it is free), and the command's parameters stand in words and byte buffers
beside it.

* A `Put` is one write of a parameter, a `Call` the whole of one request:
  writes, the busy test of the slot, more writes, the command.
* A `Fetch` is the consumer's side, one read at a time.

`Put.Held` and `Fetch.Agree` say what the two sides depend on: that a
written parameter still stands, and that two memories look alike to what is
left to read.
-/

namespace RuntimeBle.Lib

variable {S W B O : Type}

/-! ## Parameters -/

/-- The words and the buffers that requests share. -/
structure Params (W B : Type) where
  word : W → Nat
  buf : B → List UInt8

/-- One write: a word, or bytes over the start of a buffer. -/
inductive Put (W B : Type) where
  | store (w : W) (v : Nat)
  | copy (b : B) (src : List UInt8)
deriving DecidableEq

/-- `src` copied over the first bytes of `old`. -/
def copyInto (src old : List UInt8) : List UInt8 := src ++ old.drop src.length

theorem copyInto_eq_self_iff {src old : List UInt8} :
    copyInto src old = old ↔ src <+: old := by
  constructor
  · intro h
    exact ⟨_, h⟩
  · rintro ⟨rest, rfl⟩
    simp [copyInto]

@[simp] theorem take_copyInto {src old : List UInt8} {n : Nat} (h : n ≤ src.length) :
    (copyInto src old).take n = src.take n := by
  simp [copyInto, List.take_append_of_le_length h]

namespace Put

/-- The word or the buffer that is written. -/
def target : Put W B → W ⊕ B
  | store w _ => .inl w
  | copy b _ => .inr b

/-- What the write would write already stands there. -/
def Held (p : Params W B) : Put W B → Prop
  | store w v => p.word w = v
  | copy b src => src <+: p.buf b

instance (p : Params W B) : DecidablePred (Put.Held p) := fun x =>
  match x with
  | store w v => inferInstanceAs (Decidable (p.word w = v))
  | copy b src => inferInstanceAs (Decidable (src <+: p.buf b))

end Put

variable [DecidableEq W] [DecidableEq B]

namespace Params

variable {p : Params W B} {x y : Put W B}

/-- One store. -/
def put (p : Params W B) : Put W B → Params W B
  | .store w v => { p with word := Function.update p.word w v }
  | .copy b src => { p with buf := Function.update p.buf b (copyInto src (p.buf b)) }

/-- The stores one after the other. -/
def puts (p : Params W B) (xs : List (Put W B)) : Params W B := xs.foldl put p

@[simp] theorem puts_nil : p.puts [] = p := rfl

@[simp] theorem puts_cons {xs : List (Put W B)} : p.puts (x :: xs) = (p.put x).puts xs := rfl

theorem puts_append {xs ys : List (Put W B)} : p.puts (xs ++ ys) = (p.puts xs).puts ys :=
  List.foldl_append

theorem held_put_self : x.Held (p.put x) := by
  cases x with
  | store w v => simp [Put.Held, put]
  | copy b src =>
      simp only [Put.Held, put, Function.update_self]
      exact List.prefix_append ..

/-- A write elsewhere does not matter. -/
theorem held_put_of_ne (h : y.target ≠ x.target) : y.Held (p.put x) ↔ y.Held p := by
  cases x <;> cases y <;> simp only [Put.target, ne_eq, reduceCtorEq, not_false_eq_true,
    Sum.inl.injEq, Sum.inr.injEq] at h <;> simp [Put.Held, put, h]

theorem put_eq_self_iff : p.put x = p ↔ x.Held p := by
  obtain ⟨word, buf⟩ := p
  cases x with
  | store w v => simp [put, Put.Held, eq_comm]
  | copy b src => simp [put, Put.Held, Function.update_eq_self_iff, copyInto_eq_self_iff]

theorem held_puts_of_notMem : ∀ {xs : List (Put W B)} {p : Params W B},
    y.target ∉ xs.map Put.target → (y.Held (p.puts xs) ↔ y.Held p) := by
  intro xs
  induction xs with
  | nil => intro p _; rfl
  | cons x xs ih =>
      intro p h
      rw [List.map_cons, List.mem_cons, not_or] at h
      rw [puts_cons, ih h.2, held_put_of_ne h.1]

/-- After writes to different places they all stand. -/
theorem held_puts : ∀ {xs : List (Put W B)} {p : Params W B}, (xs.map Put.target).Nodup →
    ∀ x ∈ xs, x.Held (p.puts xs) := by
  intro xs
  induction xs with
  | nil => intro p _ x hx; cases hx
  | cons x xs ih =>
      intro p hnd y hy
      rw [List.map_cons, List.nodup_cons] at hnd
      rcases List.mem_cons.mp hy with rfl | hy
      · exact (held_puts_of_notMem hnd.1).mpr held_put_self
      · exact ih hnd.2 y hy

theorem puts_of_held : ∀ {xs : List (Put W B)}, (∀ x ∈ xs, x.Held p) → p.puts xs = p := by
  intro xs
  induction xs with
  | nil => intro _; rfl
  | cons x xs ih =>
      intro h
      rw [puts_cons, put_eq_self_iff.mpr (h x List.mem_cons_self)]
      exact ih fun y hy => h y (List.mem_cons_of_mem x hy)

/-- Writes to different places leave the memory alone exactly when all they
would write stands there already. -/
theorem puts_eq_self_iff {xs : List (Put W B)} (hnd : (xs.map Put.target).Nodup) :
    p.puts xs = p ↔ ∀ x ∈ xs, x.Held p := by
  constructor
  · intro h x hx
    have hheld := held_puts (p := p) hnd x hx
    rwa [h] at hheld
  · exact puts_of_held

end Params

/-! ## Calls -/

/-- The memory: what each slot holds, and the parameters. -/
structure Mem (S W B : Type) where
  slot : S → Nat
  params : Params W B

/-- One request: the writes before the busy test, the slot it is for, the
writes after the test, and the command it leaves in the slot. -/
structure Call (S W B : Type) where
  early : List (Put W B)
  slot : S
  late : List (Put W B)
  cmd : Nat

variable [DecidableEq S]

/-- The call made with nothing in between; `false` when the slot is busy. -/
def Call.run (c : Call S W B) (m : Mem S W B) : Bool × Mem S W B :=
  let params := m.params.puts c.early
  if m.slot c.slot ≠ 0 then (false, { m with params })
  else (true, { slot := Function.update m.slot c.slot c.cmd, params := params.puts c.late })

/-! ## Fetches -/

/-- What a consumer reads before it acts, one access after the other. -/
inductive Fetch (W B O : Type) where
  | done (o : O)
  | load (w : W) (next : Nat → Fetch W B O)
  | read (b : B) (n : Nat) (next : List UInt8 → Fetch W B O)

namespace Fetch

/-- What comes out when nothing interferes. -/
def eval (p : Params W B) : Fetch W B O → O
  | done o => o
  | load w next => (next (p.word w)).eval p
  | read b n next => (next ((p.buf b).take n)).eval p

/-- One access. -/
def step (p : Params W B) : Fetch W B O → Fetch W B O
  | done o => done o
  | load w next => next (p.word w)
  | read b n next => next ((p.buf b).take n)

/-- How many accesses are left. -/
def accesses (p : Params W B) : Fetch W B O → Nat
  | done _ => 0
  | load w next => (next (p.word w)).accesses p + 1
  | read b n next => (next ((p.buf b).take n)).accesses p + 1

/-- `p` and `q` look alike to all that is left to read. -/
def Agree (p q : Params W B) : Fetch W B O → Prop
  | done _ => True
  | load w next => p.word w = q.word w ∧ (next (p.word w)).Agree p q
  | read b n next =>
      (p.buf b).take n = (q.buf b).take n ∧ (next ((p.buf b).take n)).Agree p q

/-- `f` of what a fetch yields. -/
def map {O' : Type} (f : O → O') : Fetch W B O → Fetch W B O'
  | done o => done (f o)
  | load w next => load w fun v => (next v).map f
  | read b n next => read b n fun bytes => (next bytes).map f

/-- What can come out when anything interferes: every access may find
another value. -/
inductive Yields : Fetch W B O → O → Prop where
  | done {o : O} : Yields (.done o) o
  | load {w : W} {next : Nat → Fetch W B O} {o : O} (v : Nat) (h : (next v).Yields o) :
      Yields (.load w next) o
  | read {b : B} {n : Nat} {next : List UInt8 → Fetch W B O} {o : O} (bytes : List UInt8)
      (hlen : bytes.length ≤ n) (h : (next bytes).Yields o) : Yields (.read b n next) o

omit [DecidableEq W] [DecidableEq B]

@[simp] theorem yields_done {o o' : O} : (done o : Fetch W B O).Yields o' ↔ o' = o := by
  constructor
  · rintro ⟨⟩
    rfl
  · rintro rfl
    exact .done

@[simp] theorem yields_load {w : W} {next : Nat → Fetch W B O} {o : O} :
    (load w next).Yields o ↔ ∃ v, (next v).Yields o := by
  constructor
  · rintro (_ | ⟨v, h⟩)
    exact ⟨v, h⟩
  · rintro ⟨v, h⟩
    exact .load v h

@[simp] theorem yields_read {b : B} {n : Nat} {next : List UInt8 → Fetch W B O} {o : O} :
    (read b n next).Yields o ↔ ∃ bytes, bytes.length ≤ n ∧ (next bytes).Yields o := by
  constructor
  · rintro (_ | _ | ⟨bytes, hlen, h⟩)
    exact ⟨bytes, hlen, h⟩
  · rintro ⟨bytes, hlen, h⟩
    exact .read bytes hlen h

theorem yields_map {O' : Type} {g : O → O'} {o' : O'} {f : Fetch W B O} :
    (f.map g).Yields o' ↔ ∃ o, f.Yields o ∧ o' = g o := by
  induction f with
  | done o => simp [map]
  | load w next ih =>
      simp only [map, yields_load, ih]
      constructor
      · rintro ⟨v, o, ho, rfl⟩
        exact ⟨o, ⟨v, ho⟩, rfl⟩
      · rintro ⟨o, ⟨v, ho⟩, rfl⟩
        exact ⟨v, o, ho, rfl⟩
  | read b n next ih =>
      simp only [map, yields_read, ih]
      constructor
      · rintro ⟨bytes, hlen, o, ho, rfl⟩
        exact ⟨o, ⟨bytes, hlen, ho⟩, rfl⟩
      · rintro ⟨o, ⟨bytes, hlen, ho⟩, rfl⟩
        exact ⟨bytes, hlen, o, ho, rfl⟩

/-- What comes out undisturbed can come out. -/
theorem yields_eval (p : Params W B) (f : Fetch W B O) : f.Yields (f.eval p) := by
  induction f with
  | done o => exact .done
  | load w next ih => exact .load _ (ih _)
  | read b n next ih => exact .read _ (List.length_take_le ..) (ih _)

/-- An access leaves nothing new to come out. -/
theorem Yields.of_step {p : Params W B} {f : Fetch W B O} {o : O} (h : (f.step p).Yields o) :
    f.Yields o := by
  cases f with
  | done _ => exact h
  | load w next => exact .load _ h
  | read b n next => exact .read _ (List.length_take_le ..) h

@[simp] theorem eval_map {O' : Type} {f : O → O'} {p : Params W B} (g : Fetch W B O) :
    (g.map f).eval p = f (g.eval p) := by
  induction g with
  | done o => rfl
  | load w next ih => exact ih _
  | read b n next ih => exact ih _

@[simp] theorem eval_step {p : Params W B} (f : Fetch W B O) : (f.step p).eval p = f.eval p := by
  cases f <;> rfl

theorem accesses_step {p : Params W B} {f : Fetch W B O} (h : ∀ o, f ≠ done o) :
    (f.step p).accesses p + 1 = f.accesses p := by
  cases f with
  | done o => exact absurd rfl (h o)
  | load w next => rfl
  | read b n next => rfl

theorem Agree.eval_eq {p q : Params W B} {f : Fetch W B O} (h : f.Agree p q) :
    f.eval q = f.eval p := by
  induction f with
  | done o => rfl
  | load w next ih =>
      simp only [eval, ← h.1]
      exact ih _ h.2
  | read b n next ih =>
      simp only [eval, ← h.1]
      exact ih _ h.2

/-- All that is read is in these places. -/
def Within (ps : List (W ⊕ B)) : Fetch W B O → Prop
  | done _ => True
  | load w next => .inl w ∈ ps ∧ ∀ v, (next v).Within ps
  | read b _ next => .inr b ∈ ps ∧ ∀ bytes, (next bytes).Within ps

/-- **The frame rule**: writes elsewhere do not matter to a fetch. -/
theorem Within.eval_puts [DecidableEq W] [DecidableEq B] {ps : List (W ⊕ B)} {f : Fetch W B O}
    (h : f.Within ps) {xs : List (Put W B)} (hxs : ∀ x ∈ xs, x.target ∉ ps) (p : Params W B) :
    f.eval (p.puts xs) = f.eval p := by
  have hword : ∀ w, .inl w ∈ ps → (p.puts xs).word w = p.word w := by
    intro w hw
    refine (Params.held_puts_of_notMem (y := .store w (p.word w)) ?_).mpr rfl
    intro hmem
    obtain ⟨x, hx, htarget⟩ := List.mem_map.mp hmem
    exact hxs x hx (htarget ▸ hw)
  have hbuf : ∀ b, .inr b ∈ ps → (p.puts xs).buf b = p.buf b := by
    intro b hb
    clear hword h
    induction xs generalizing p with
    | nil => rfl
    | cons x xs ih =>
        rw [Params.puts_cons, ih fun y hy => hxs y (List.mem_cons_of_mem _ hy)]
        have hx := hxs x List.mem_cons_self
        cases x with
        | store w v => rfl
        | copy b' src =>
            have hne : b ≠ b' := by
              rintro rfl
              exact hx hb
            exact Function.update_of_ne hne _ _
  induction f with
  | done o => rfl
  | load w next ih =>
      simp only [eval, hword w h.1]
      exact ih _ (h.2 _)
  | read b n next ih =>
      simp only [eval, hbuf b h.1]
      exact ih _ (h.2 _)

end Fetch

end RuntimeBle.Lib
