import RuntimeBle.Lib.Machine
import RuntimeBle.Lib.Shared

/-!
# Lib — Mailbox

Threads that leave requests in slots, and one consumer thread that takes
them out, interleaved access by access.

A caller runs through its `Call`: the early writes, the busy test, the late
writes, the command into the slot. A consumer takes a command and reads its
parameters by a `Fetch`. It either frees the slot first and reads then, or
reads first and HOLDS the slot until it is done.

`Steps` lists the steps one by one, `Lawful` is what the parts have to agree
on, and `WellFormed` what holds in every run of a lawful mailbox.
-/

set_option linter.unusedSectionVars false

namespace RuntimeBle.Lib

/-- Who asks what of whom. `R` are the requests, `C` the consumers, `O`
what a consumer does. `asks` is what a request is meant to bring about. -/
structure Mailbox (S W B R C O : Type) where
  call : R → Option (Call S W B)
  slotOf : C → S
  holds : C → Bool
  handle : C → Nat → Fetch W B O
  asks : C → R → O
  clearable : S → Bool

namespace Mailbox

variable {S W B R C O T : Type}

/-! ## States -/

/-- A call under way. `stored` are the writes made so far, `todo` those
left before the busy test, or after it once the call is `admitted`. -/
structure InCall (S W B R : Type) where
  req : R
  call : Call S W B
  admitted : Bool
  stored : List (Put W B)
  todo : List (Put W B)

/-- A command in a slot, with the request it stands for. -/
structure Queued (R : Type) where
  req : R
  cmd : Nat

/-- A consumer that reads the parameters of the request it has taken. -/
structure Reading (W B R C O : Type) where
  consumer : C
  req : R
  fetch : Fetch W B O

/-- `accepted` and `settled` are the history of each slot: the requests in
the order they were accepted, and what became of them (`none` when they
were discarded). -/
structure State (S W B R C O T : Type) where
  params : Params W B
  slot : S → Option (Queued R)
  caller : T → Option (InCall S W B R)
  reader : Option (Reading W B R C O)
  accepted : S → List R
  settled : S → List (R × Option (C × O))

namespace State

variable (σ : State S W B R C O T)

/-- The word of a slot. -/
def word (s : S) : Nat :=
  match σ.slot s with
  | none => 0
  | some q => q.cmd

/-- Nobody calls, nothing is queued, nothing has happened. -/
structure Idle : Prop where
  slot : ∀ s, σ.slot s = none
  caller : ∀ t, σ.caller t = none
  reader : σ.reader = none
  accepted : ∀ s, σ.accepted s = []
  settled : ∀ s, σ.settled s = []

end State

/-- The idle state with parameters `p`. -/
def State.start (p : Params W B) : State S W B R C O T where
  params := p
  slot _ := none
  caller _ := none
  reader := none
  accepted _ := []
  settled _ := []

theorem State.idle_start {p : Params W B} : (State.start p : State S W B R C O T).Idle :=
  ⟨fun _ => rfl, fun _ => rfl, rfl, fun _ => rfl, fun _ => rfl⟩

/-- A caller's call or access, or a consumer's. -/
inductive Label (S R C T : Type) where
  | enter (t : T) (r : R)
  | act (t : T)
  | take (c : C)
  | read
  | finish
  | discard (s : S)

/-! ## Steps -/

variable [DecidableEq S] [DecidableEq W] [DecidableEq B] [DecidableEq T]

namespace State

/-- What a caller is about. -/
def setCaller (σ : State S W B R C O T) (t : T) (ic : Option (InCall S W B R)) :
    State S W B R C O T :=
  { σ with caller := Function.update σ.caller t ic }

/-- A parameter is stored. -/
def put (σ : State S W B R C O T) (x : Put W B) : State S W B R C O T :=
  { σ with params := σ.params.put x }

/-- The command goes into the slot, whatever is there. -/
def publish (σ : State S W B R C O T) (ic : InCall S W B R) : State S W B R C O T :=
  { σ with
    slot := Function.update σ.slot ic.call.slot (some { req := ic.req, cmd := ic.call.cmd })
    accepted := Function.update σ.accepted ic.call.slot (σ.accepted ic.call.slot ++ [ic.req]) }

/-- A slot is empty again. -/
def free (σ : State S W B R C O T) (s : S) : State S W B R C O T :=
  { σ with slot := Function.update σ.slot s none }

/-- A request has come to its end, with what a consumer made of it or without. -/
def settle (σ : State S W B R C O T) (s : S) (r : R) (out : Option (C × O)) :
    State S W B R C O T :=
  { σ with settled := Function.update σ.settled s (σ.settled s ++ [(r, out)]) }

end State

/-- The next access of a call. -/
def act (σ : State S W B R C O T) (t : T) (ic : InCall S W B R) : State S W B R C O T :=
  match ic.todo with
  | x :: rest =>
      (σ.put x).setCaller t (some { ic with stored := ic.stored ++ [x], todo := rest })
  | [] =>
      if ic.admitted then (σ.publish ic).setCaller t none
      else if σ.word ic.call.slot ≠ 0 then σ.setCaller t none
      else σ.setCaller t (some { ic with admitted := true, todo := ic.call.late })

variable (X : Mailbox S W B R C O)

/-- One access of one party. -/
def step (σ : State S W B R C O T) : Label S R C T → Option (State S W B R C O T)
  | .enter t r =>
      match σ.caller t, X.call r with
      | none, some c =>
          some (σ.setCaller t
            (some { req := r, call := c, admitted := false, stored := [], todo := c.early }))
      | _, _ => none
  | .act t => (σ.caller t).map (act σ t)
  | .take c =>
      match σ.reader, σ.slot (X.slotOf c) with
      | none, some q =>
          let σ' := if X.holds c then σ else σ.free (X.slotOf c)
          some { σ' with
            reader := some { consumer := c, req := q.req, fetch := X.handle c q.cmd } }
      | _, _ => none
  | .read =>
      match σ.reader with
      | some rd => some { σ with reader := some { rd with fetch := rd.fetch.step σ.params } }
      | none => none
  | .finish =>
      match σ.reader with
      | some ⟨c, r, .done o⟩ =>
          let σ' := if X.holds c then σ.free (X.slotOf c) else σ
          some { σ'.settle (X.slotOf c) r (some (c, o)) with reader := none }
      | _ => none
  | .discard s =>
      match X.clearable s, σ.reader, σ.slot s with
      | true, none, some q => some ((σ.free s).settle s q.req none)
      | _, _, _ => none

/-- The mailbox from where nothing is under way. -/
def machine (T : Type) [DecidableEq T] : Machine (State S W B R C O T) (Label S R C T) where
  init := State.Idle
  step := X.step

/-- The steps one by one, each with what it needs and what it does. -/
inductive Steps (σ : State S W B R C O T) : Label S R C T → State S W B R C O T → Prop
  | enter {t r c} (hidle : σ.caller t = none) (hcall : X.call r = some c) :
      Steps σ (.enter t r) (σ.setCaller t
        (some { req := r, call := c, admitted := false, stored := [], todo := c.early }))
  | put {t ic x rest} (hic : σ.caller t = some ic) (htodo : ic.todo = x :: rest) :
      Steps σ (.act t)
        ((σ.put x).setCaller t (some { ic with stored := ic.stored ++ [x], todo := rest }))
  | publish {t ic} (hic : σ.caller t = some ic) (htodo : ic.todo = [])
      (hadm : ic.admitted = true) : Steps σ (.act t) ((σ.publish ic).setCaller t none)
  | refuse {t ic} (hic : σ.caller t = some ic) (htodo : ic.todo = [])
      (hadm : ic.admitted = false) (hbusy : σ.word ic.call.slot ≠ 0) :
      Steps σ (.act t) (σ.setCaller t none)
  | pass {t ic} (hic : σ.caller t = some ic) (htodo : ic.todo = [])
      (hadm : ic.admitted = false) (hfree : σ.word ic.call.slot = 0) :
      Steps σ (.act t) (σ.setCaller t (some { ic with admitted := true, todo := ic.call.late }))
  | takeFreeing {c q} (hreader : σ.reader = none) (hq : σ.slot (X.slotOf c) = some q)
      (hholds : X.holds c = false) :
      Steps σ (.take c) { σ.free (X.slotOf c) with
        reader := some { consumer := c, req := q.req, fetch := X.handle c q.cmd } }
  | takeHolding {c q} (hreader : σ.reader = none) (hq : σ.slot (X.slotOf c) = some q)
      (hholds : X.holds c = true) :
      Steps σ (.take c) { σ with
        reader := some { consumer := c, req := q.req, fetch := X.handle c q.cmd } }
  | read {rd} (hreader : σ.reader = some rd) :
      Steps σ .read { σ with reader := some { rd with fetch := rd.fetch.step σ.params } }
  | finishFreed {c r o} (hreader : σ.reader = some ⟨c, r, .done o⟩) (hholds : X.holds c = false) :
      Steps σ .finish { σ.settle (X.slotOf c) r (some (c, o)) with reader := none }
  | finishFreeing {c r o} (hreader : σ.reader = some ⟨c, r, .done o⟩)
      (hholds : X.holds c = true) :
      Steps σ .finish
        { (σ.free (X.slotOf c)).settle (X.slotOf c) r (some (c, o)) with reader := none }
  | discard {s q} (hs : X.clearable s = true) (hreader : σ.reader = none)
      (hq : σ.slot s = some q) : Steps σ (.discard s) ((σ.free s).settle s q.req none)

variable {X} {σ σ' : State S W B R C O T} {l : Label S R C T}

theorem steps_of_step (h : X.step σ l = some σ') : Steps X σ l σ' := by
  cases l with
  | enter t r =>
      simp only [step] at h
      split at h
      · rename_i c hidle hcall
        cases h
        exact .enter hidle hcall
      · cases h
  | act t =>
      obtain ⟨ic, hic, rfl⟩ := Option.map_eq_some_iff.mp h
      unfold act
      split
      · exact .put hic ‹_›
      · split_ifs with hadm hbusy
        · exact .publish hic ‹_› hadm
        · exact .refuse hic ‹_› (by simpa using hadm) hbusy
        · exact .pass hic ‹_› (by simpa using hadm) (not_not.mp hbusy)
  | take c =>
      simp only [step] at h
      split at h
      · rename_i q hreader hq
        cases h
        split_ifs with hholds
        · exact .takeHolding hreader hq hholds
        · exact .takeFreeing hreader hq (by simpa using hholds)
      · cases h
  | read =>
      simp only [step] at h
      split at h
      · rename_i rd hreader
        cases h
        exact .read hreader
      · cases h
  | finish =>
      simp only [step] at h
      split at h
      · rename_i c r o hreader
        cases h
        split_ifs with hholds
        · exact .finishFreeing hreader hholds
        · exact .finishFreed hreader (by simpa using hholds)
      · cases h
  | discard s =>
      simp only [step] at h
      split at h
      · rename_i q hs hreader hq
        cases h
        exact .discard hs hreader hq
      · cases h

/-! ## Laws -/

/-- What makes a mailbox sound when nothing interferes: a command is never
the free mark, a call writes each place once, and the consumer makes of a
call's parameters what the request asks for. -/
structure Lawful (X : Mailbox S W B R C O) : Prop where
  cmd_ne_zero : ∀ r c, X.call r = some c → c.cmd ≠ 0
  targets : ∀ r c, X.call r = some c → ((c.early ++ c.late).map Put.target).Nodup
  handover : ∀ r c k, X.call r = some c → X.slotOf k = c.slot → ∀ p : Params W B,
    (X.handle k c.cmd).eval (p.puts (c.early ++ c.late)) = X.asks k r

section Update

variable {α β : Type} [DecidableEq α] {f : α → Option β} {a : α} {v : Option β}

/-- A property of all entries of a partial map, after one of them is set. -/
theorem forall_update_some {P : α → β → Prop}
    (h : ∀ a' b, a' ≠ a → f a' = some b → P a' b) (hv : ∀ b, v = some b → P a b) :
    ∀ a' b, Function.update f a v a' = some b → P a' b := by
  intro a' b hb
  by_cases ha : a' = a
  · subst ha
    rw [Function.update_self] at hb
    exact hv b hb
  · rw [Function.update_of_ne ha] at hb
    exact h a' b ha hb

end Update

/-- The calls under way are where they say they are, and a queued command
is one of its request. -/
structure WellFormed (X : Mailbox S W B R C O) (σ : State S W B R C O T) : Prop where
  made : ∀ t ic, σ.caller t = some ic → X.call ic.req = some ic.call ∧
    ic.stored ++ ic.todo =
      if ic.admitted then ic.call.early ++ ic.call.late else ic.call.early
  queued : ∀ s q, σ.slot s = some q →
    ∃ c, X.call q.req = some c ∧ c.slot = s ∧ c.cmd = q.cmd

theorem WellFormed.idle (h : σ.Idle) : WellFormed X σ where
  made t ic hic := by rw [h.caller t] at hic; cases hic
  queued s q hq := by rw [h.slot s] at hq; cases hq

theorem WellFormed.steps (h : WellFormed X σ) (hs : Steps X σ l σ') : WellFormed X σ' := by
  have hothers : ∀ t t' ic, t' ≠ t → σ.caller t' = some ic → _ := fun _ t' ic _ => h.made t' ic
  have hslots : ∀ s s' q, s' ≠ s → σ.slot s' = some q → _ := fun _ s' q _ => h.queued s' q
  cases hs with
  | enter hidle hcall =>
      refine { h with made := forall_update_some (hothers _) ?_ }
      intro _ heq
      cases heq
      exact ⟨hcall, rfl⟩
  | put hic htodo =>
      refine { h with made := forall_update_some (hothers _) ?_ }
      intro _ heq
      cases heq
      obtain ⟨hcall, hmade⟩ := h.made _ _ hic
      exact ⟨hcall, by simpa [htodo] using hmade⟩
  | @publish t ic hic htodo hadm =>
      refine ⟨forall_update_some (hothers _) (fun _ h => by cases h),
        forall_update_some (hslots _) ?_⟩
      intro _ heq
      cases heq
      exact ⟨ic.call, (h.made _ _ hic).1, rfl, rfl⟩
  | refuse hic htodo hadm hbusy =>
      exact { h with made := forall_update_some (hothers _) (fun _ h => by cases h) }
  | pass hic htodo hadm hfree =>
      refine { h with made := forall_update_some (hothers _) ?_ }
      intro _ heq
      cases heq
      obtain ⟨hcall, hmade⟩ := h.made _ _ hic
      refine ⟨hcall, ?_⟩
      simp only [htodo, hadm, List.append_nil] at hmade
      simp [hmade]
  | takeFreeing hreader hq hholds =>
      exact { h with queued := forall_update_some (hslots _) (fun _ h => by cases h) }
  | takeHolding hreader hq hholds => exact { h with }
  | read hreader => exact { h with }
  | finishFreed hreader hholds => exact { h with }
  | finishFreeing hreader hholds =>
      exact { h with queued := forall_update_some (hslots _) (fun _ h => by cases h) }
  | discard hs hreader hq =>
      exact { h with queued := forall_update_some (hslots _) (fun _ h => by cases h) }

/-- The writes of a call under way go to different places. -/
theorem WellFormed.targets_nodup (hX : Lawful X) (h : WellFormed X σ) {t : T}
    {ic : InCall S W B R} (hic : σ.caller t = some ic) :
    ((ic.stored ++ ic.todo).map Put.target).Nodup := by
  obtain ⟨hcall, hmade⟩ := h.made t ic hic
  have hnd := hX.targets _ _ hcall
  rw [hmade]
  split
  · exact hnd
  · exact hnd.sublist ((List.sublist_append_left _ _).map _)

end Mailbox

end RuntimeBle.Lib
