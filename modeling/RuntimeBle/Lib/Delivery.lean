import RuntimeBle.Lib.Mailbox

/-!
# Lib — Delivery

What a lawful mailbox delivers.

Two things can go wrong, and they are kept apart:

* a write changes parameters that somebody still relies on. While no write
  does (`Undisturbed`), every request is carried out with its own
  parameters (`Faithful`);
* a caller passes its busy test while another one is between its test and
  its command. While none does (`Exclusive`), every accepted request is
  accounted for (`Accounted`).

With one caller, and a slot that is freed only after its parameters are
read, neither can happen (`FreesLast.sound`).
-/

set_option linter.unusedSectionVars false

namespace RuntimeBle.Lib

namespace Mailbox

variable {S W B R C O T : Type}
  [DecidableEq S] [DecidableEq W] [DecidableEq B] [DecidableEq T]
  {X : Mailbox S W B R C O} {σ σ' : State S W B R C O T} {l : Label S R C T}

/-! ## Parameters stay with their request -/

/-- The write `x` of `t` changes nothing that a consumer of interest is
still to read for a queued command or the one it is at, nor what another
caller has written. -/
structure Spares (X : Mailbox S W B R C O) (on : C → Prop) (σ : State S W B R C O T) (t : T)
    (x : Put W B) : Prop where
  queued : ∀ q k, on k → σ.slot (X.slotOf k) = some q →
    (X.handle k q.cmd).Agree σ.params (σ.params.put x)
  reading : ∀ rd, on rd.consumer → σ.reader = some rd →
    rd.fetch.Agree σ.params (σ.params.put x)
  making : ∀ t' ic, t' ≠ t → σ.caller t' = some ic → ∀ y ∈ ic.stored, y.Held (σ.params.put x)

/-- The next access of a caller spares what others have asked for. -/
def Undisturbed (X : Mailbox S W B R C O) (on : C → Prop) (σ : State S W B R C O T) :
    Label S R C T → Prop
  | .act t => ∀ ic x rest, σ.caller t = some ic → ic.todo = x :: rest → Spares X on σ t x
  | _ => True

/-- Every request is, or is about to be, carried out as asked. -/
structure Faithful (X : Mailbox S W B R C O) (on : C → Prop) (σ : State S W B R C O T) : Prop
    extends WellFormed X σ where
  standing : ∀ t ic, σ.caller t = some ic → ∀ y ∈ ic.stored, y.Held σ.params
  pending : ∀ q k, on k → σ.slot (X.slotOf k) = some q →
    (X.handle k q.cmd).eval σ.params = X.asks k q.req
  reading : ∀ rd, on rd.consumer → σ.reader = some rd →
    rd.fetch.eval σ.params = X.asks rd.consumer rd.req
  exact : ∀ s r k o, on k → (r, some (k, o)) ∈ σ.settled s → o = X.asks k r

variable {on : C → Prop}

theorem Faithful.idle (h : σ.Idle) : Faithful X on σ where
  toWellFormed := .idle h
  standing t ic hic := by rw [h.caller t] at hic; cases hic
  pending q k _ hq := by rw [h.slot _] at hq; cases hq
  reading rd _ hrd := by rw [h.reader] at hrd; cases hrd
  exact s r k o _ hmem := by rw [h.settled s] at hmem; cases hmem

namespace Faithful

theorem free (h : Faithful X on σ) (s : S) (hwf : WellFormed X (σ.free s)) :
    Faithful X on (σ.free s) where
  toWellFormed := hwf
  standing := h.standing
  pending q k hk hq := by
    by_cases hs : X.slotOf k = s
    · simp [State.free, hs] at hq
    · exact h.pending q k hk (by simpa [State.free, hs] using hq)
  reading := h.reading
  exact := h.exact

/-- What is done as asked may be entered as done. -/
theorem settle (h : Faithful X on σ) {s : S} {r : R} {out : Option (C × O)}
    (hout : ∀ k o, on k → out = some (k, o) → o = X.asks k r) :
    Faithful X on (σ.settle s r out) where
  toWellFormed := { h with }
  standing := h.standing
  pending := h.pending
  reading := h.reading
  exact s' r' k o hk hmem := by
    by_cases hs : s' = s
    · subst hs
      simp only [State.settle, Function.update_self, List.mem_append, List.mem_singleton,
        Prod.mk.injEq] at hmem
      rcases hmem with hmem | ⟨rfl, hout'⟩
      · exact h.exact _ _ _ _ hk hmem
      · exact hout k o hk hout'.symm
    · exact h.exact s' r' k o hk (by simpa [State.settle, hs] using hmem)

theorem withoutReader (h : Faithful X on σ) : Faithful X on { σ with reader := none } :=
  { h with reading := fun _ _ hrd => by cases hrd }

/-- A consumer reads for the request of the command it took. -/
theorem withReader (h : Faithful X on σ) {k : C} {r : R} {f : Fetch W B O}
    (hf : on k → f.eval σ.params = X.asks k r) :
    Faithful X on { σ with reader := some { consumer := k, req := r, fetch := f } } :=
  { h with
    reading := fun _ hk hrd => by
      cases hrd
      exact hf hk }

theorem put (hX : Lawful X) (h : Faithful X on σ) {t : T} {ic : InCall S W B R} {x : Put W B}
    {rest : List (Put W B)} (hic : σ.caller t = some ic) (htodo : ic.todo = x :: rest)
    (hspares : Spares X on σ t x)
    (hwf : WellFormed X ((σ.put x).setCaller t
      (some { ic with stored := ic.stored ++ [x], todo := rest }))) :
    Faithful X on ((σ.put x).setCaller t
      (some { ic with stored := ic.stored ++ [x], todo := rest })) := by
  refine ⟨hwf, forall_update_some (fun t' ic' ht' => hspares.making t' ic' ht') ?_, ?_, ?_,
    h.exact⟩
  · -- of its own writes none is to the same place
    intro _ heq y hy
    cases heq
    rcases List.mem_append.mp hy with hy | hy
    · have hnd := h.targets_nodup hX hic
      rw [htodo, List.map_append, List.map_cons] at hnd
      have hne : y.target ≠ x.target := fun heq =>
        List.disjoint_of_nodup_append hnd (List.mem_map_of_mem hy) (by simp [heq])
      exact (Params.held_put_of_ne hne).mpr (h.standing t ic hic y hy)
    · rw [List.mem_singleton.mp hy]
      exact Params.held_put_self
  · intro q k hk hq
    exact (hspares.queued q k hk hq).eval_eq.trans (h.pending q k hk hq)
  · intro rd hk hrd
    exact (hspares.reading rd hk hrd).eval_eq.trans (h.reading rd hk hrd)

theorem publish (hX : Lawful X) (h : Faithful X on σ) {t : T} {ic : InCall S W B R}
    (hic : σ.caller t = some ic) (htodo : ic.todo = []) (hadm : ic.admitted = true)
    (hwf : WellFormed X ((σ.publish ic).setCaller t none)) :
    Faithful X on ((σ.publish ic).setCaller t none) := by
  obtain ⟨hcall, hmade⟩ := h.made t ic hic
  refine ⟨hwf, forall_update_some (fun t' ic' _ => h.standing t' ic') (fun _ h => by cases h), ?_,
    h.reading, h.exact⟩
  intro q k hk hq
  by_cases hslot : X.slotOf k = ic.call.slot
  · -- all its writes stand, so the memory is as its call would leave it
    simp only [State.setCaller, State.publish, hslot, Function.update_self] at hq
    cases hq
    have hstored : ic.stored = ic.call.early ++ ic.call.late := by
      simpa [htodo, hadm] using hmade
    have hmem := hX.handover _ _ k hcall hslot σ.params
    rwa [Params.puts_of_held (hstored ▸ h.standing t ic hic)] at hmem
  · exact h.pending q k hk (by simpa [State.setCaller, State.publish, hslot] using hq)

theorem steps (hX : Lawful X) (h : Faithful X on σ) (hok : Undisturbed X on σ l)
    (hs : Steps X σ l σ') : Faithful X on σ' := by
  have hwf := h.toWellFormed.steps hs
  have hothers : ∀ t t' ic, t' ≠ t → σ.caller t' = some ic → _ :=
    fun _ t' ic _ => h.standing t' ic
  cases hs with
  | enter hidle hcall =>
      refine { h with toWellFormed := hwf, standing := forall_update_some (hothers _) ?_ }
      intro _ heq y hy
      cases heq
      cases hy
  | @put t ic x rest hic htodo => exact h.put hX hic htodo (hok ic x rest hic htodo) hwf
  | publish hic htodo hadm => exact h.publish hX hic htodo hadm hwf
  | refuse hic htodo hadm hbusy =>
      exact { h with
        toWellFormed := hwf, standing := forall_update_some (hothers _) (fun _ h => by cases h) }
  | pass hic htodo hadm hfree =>
      have hstored := h.standing _ _ hic
      refine { h with toWellFormed := hwf, standing := forall_update_some (hothers _) ?_ }
      intro _ heq
      cases heq
      exact hstored
  | takeFreeing hreader hq hholds =>
      exact (h.free _ { hwf with }).withReader fun hk => h.pending _ _ hk hq
  | takeHolding hreader hq hholds => exact h.withReader fun hk => h.pending _ _ hk hq
  | @read rd hreader =>
      exact h.withReader fun hk => (Fetch.eval_step _).trans (h.reading rd hk hreader)
  | finishFreed hreader hholds =>
      refine (h.settle ?_).withoutReader
      intro _ _ hk heq
      cases heq
      exact h.reading _ hk hreader
  | finishFreeing hreader hholds =>
      refine ((h.free _ { hwf with }).settle ?_).withoutReader
      intro _ _ hk heq
      cases heq
      exact h.reading _ hk hreader
  | discard hs hreader hq => exact (h.free _ { hwf with }).settle (fun _ _ _ h => by cases h)

end Faithful

/-! ## No accepted request gets lost -/

/-- `t` has passed the busy test of `s` and not yet filled it. -/
def State.Admitted (σ : State S W B R C O T) (t : T) (s : S) : Prop :=
  ∃ ic, σ.caller t = some ic ∧ ic.admitted = true ∧ ic.call.slot = s

/-- A busy test is passed only when nobody else has passed it since the
slot was last filled. -/
def Exclusive (σ : State S W B R C O T) : Label S R C T → Prop
  | .act t => ∀ ic, σ.caller t = some ic → ic.todo = [] → ic.admitted = false →
      σ.slot ic.call.slot = none → ∀ t', σ.Admitted t' ic.call.slot → t' = t
  | _ => True

/-- The request whose slot was freed and whose parameters are being read. -/
def State.inHand (X : Mailbox S W B R C O) (σ : State S W B R C O T) (s : S) : List R :=
  match σ.reader with
  | none => []
  | some rd => if X.slotOf rd.consumer = s ∧ X.holds rd.consumer = false then [rd.req] else []

/-- The request queued in the slot. -/
def State.waiting (σ : State S W B R C O T) (s : S) : List R :=
  match σ.slot s with
  | none => []
  | some q => [q.req]

/-- Every accepted request is done with, in hand or waiting, in the order
of acceptance. -/
structure Accounted (X : Mailbox S W B R C O) (σ : State S W B R C O T) : Prop
    extends WellFormed X σ where
  alone : ∀ t s, σ.Admitted t s → σ.slot s = none ∧ ∀ t', σ.Admitted t' s → t' = t
  held : ∀ rd, σ.reader = some rd → X.holds rd.consumer = true →
    ∃ cmd, σ.slot (X.slotOf rd.consumer) = some { req := rd.req, cmd }
  account : ∀ s, σ.accepted s = (σ.settled s).map (·.1) ++ σ.inHand X s ++ σ.waiting s

theorem Accounted.idle (h : σ.Idle) : Accounted X σ where
  toWellFormed := .idle h
  alone t s hadm := by
    obtain ⟨ic, hic, -⟩ := hadm
    rw [h.caller t] at hic
    cases hic
  held rd hrd := by rw [h.reader] at hrd; cases hrd
  account s := by
    simp [State.inHand, State.waiting, h.slot s, h.reader, h.accepted s, h.settled s]

/-- A free word is a free slot: no command is the free mark. -/
theorem WellFormed.slot_eq_none (hX : Lawful X) (h : WellFormed X σ) {s : S}
    (hs : σ.word s = 0) : σ.slot s = none := by
  cases hq : σ.slot s with
  | none => rfl
  | some q =>
      obtain ⟨c, hcall, -, hcmd⟩ := h.queued s q hq
      refine absurd ?_ (hX.cmd_ne_zero _ _ hcall)
      rw [hcmd]
      simpa [State.word, hq] using hs

section Admitted

variable {t t' : T} {s : S} {v : Option (InCall S W B R)}

theorem admitted_setCaller_of_ne (h : t' ≠ t) :
    (σ.setCaller t v).Admitted t' s ↔ σ.Admitted t' s := by
  simp [State.Admitted, State.setCaller, h]

theorem admitted_setCaller_self :
    (σ.setCaller t v).Admitted t s ↔ ∃ ic, v = some ic ∧ ic.admitted = true ∧ ic.call.slot = s := by
  simp [State.Admitted, State.setCaller]

/-- Giving `t` no admission it did not have changes nothing for the others. -/
theorem admitted_of_setCaller
    (hv : ∀ ic, v = some ic → ic.admitted = true → σ.Admitted t ic.call.slot)
    (h : (σ.setCaller t v).Admitted t' s) : σ.Admitted t' s := by
  by_cases ht : t' = t
  · subst ht
    obtain ⟨ic, hic, hadm, rfl⟩ := admitted_setCaller_self.mp h
    exact hv ic hic hadm
  · exact (admitted_setCaller_of_ne ht).mp h

end Admitted

namespace Accounted

variable {t : T} {v : Option (InCall S W B R)}

theorem setCaller (h : Accounted X σ) (hwf : WellFormed X (σ.setCaller t v))
    (hv : ∀ ic, v = some ic → ic.admitted = true → σ.Admitted t ic.call.slot) :
    Accounted X (σ.setCaller t v) where
  toWellFormed := hwf
  alone t' s hadm := by
    obtain ⟨hslot, honly⟩ := h.alone t' s (admitted_of_setCaller hv hadm)
    exact ⟨hslot, fun t'' hadm' => honly t'' (admitted_of_setCaller hv hadm')⟩
  held := h.held
  account := h.account

/-- An admitted call finds its slot empty, so the command overwrites none. -/
theorem publish (h : Accounted X σ) {ic : InCall S W B R} (hic : σ.caller t = some ic)
    (hadm : ic.admitted = true) (hwf : WellFormed X ((σ.publish ic).setCaller t none)) :
    Accounted X ((σ.publish ic).setCaller t none) := by
  obtain ⟨hempty, honly⟩ := h.alone t ic.call.slot ⟨ic, hic, hadm, rfl⟩
  have hothers : ∀ {t' s}, ((σ.publish ic).setCaller t none).Admitted t' s →
      t' ≠ t ∧ σ.Admitted t' s := by
    intro t' s hadm'
    by_cases ht : t' = t
    · subst ht
      obtain ⟨_, ⟨⟩, -⟩ := admitted_setCaller_self.mp hadm'
    · exact ⟨ht, (admitted_setCaller_of_ne ht).mp hadm'⟩
  refine ⟨hwf, ?_, ?_, ?_⟩
  · intro t' s hadm'
    obtain ⟨ht, hadm'⟩ := hothers hadm'
    have hs : s ≠ ic.call.slot := by
      rintro rfl
      exact ht (honly t' hadm')
    refine ⟨?_, fun t'' hadm'' => (h.alone t' s hadm').2 t'' (hothers hadm'').2⟩
    simpa [State.setCaller, State.publish, hs] using (h.alone t' s hadm').1
  · intro rd hrd hholds
    obtain ⟨cmd, hslot⟩ := h.held rd hrd hholds
    have hs : X.slotOf rd.consumer ≠ ic.call.slot := by
      intro hs
      rw [hs, hempty] at hslot
      cases hslot
    exact ⟨cmd, by simpa [State.setCaller, State.publish, hs] using hslot⟩
  · intro s
    have hacc := h.account s
    by_cases hs : s = ic.call.slot
    · subst hs
      simp only [State.waiting, hempty, List.append_nil] at hacc
      simp [State.setCaller, State.publish, State.waiting, hacc, State.inHand]
    · simpa [State.setCaller, State.publish, State.waiting, hs, State.inHand] using hacc

theorem pass (hX : Lawful X) (h : Accounted X σ) {ic : InCall S W B R}
    (hic : σ.caller t = some ic) (hfree : σ.word ic.call.slot = 0)
    (hexcl : ∀ t', σ.Admitted t' ic.call.slot → t' = t) {todo : List (Put W B)}
    (hwf : WellFormed X (σ.setCaller t (some { ic with admitted := true, todo }))) :
    Accounted X (σ.setCaller t (some { ic with admitted := true, todo })) := by
  have hempty : σ.slot ic.call.slot = none := h.slot_eq_none hX hfree
  have hcases : ∀ {t' s},
      (σ.setCaller t (some { ic with admitted := true, todo })).Admitted t' s →
        t' = t ∧ s = ic.call.slot ∨ t' ≠ t ∧ σ.Admitted t' s := by
    intro t' s hadm'
    by_cases ht : t' = t
    · subst ht
      obtain ⟨_, ⟨⟩, -, hs⟩ := admitted_setCaller_self.mp hadm'
      exact .inl ⟨rfl, hs.symm⟩
    · exact .inr ⟨ht, (admitted_setCaller_of_ne ht).mp hadm'⟩
  refine ⟨hwf, ?_, h.held, h.account⟩
  intro t' s hadm'
  rcases hcases hadm' with ⟨rfl, rfl⟩ | ⟨ht, hold⟩
  · refine ⟨hempty, fun t'' hadm'' => ?_⟩
    rcases hcases hadm'' with ⟨rfl, -⟩ | ⟨-, hold'⟩
    · rfl
    · exact hexcl t'' hold'
  · have hs : s ≠ ic.call.slot := by
      rintro rfl
      exact ht (hexcl t' hold)
    refine ⟨(h.alone t' s hold).1, fun t'' hadm'' => ?_⟩
    rcases hcases hadm'' with ⟨-, rfl⟩ | ⟨-, hold'⟩
    · exact absurd rfl hs
    · exact (h.alone t' s hold).2 t'' hold'

theorem free_eq_none {s s' : S} (hs : σ.slot s = none) : (σ.free s').slot s = none := by
  by_cases h : s = s' <;> simp [State.free, h, hs]

/-- What a consumer does with a slot: the callers see it filled as before
or freed, and the request moves on. -/
theorem consume {σ₁ : State S W B R C O T} (h : Accounted X σ) (hwf : WellFormed X σ₁)
    (hcaller : σ₁.caller = σ.caller) (hslot : ∀ s, σ.slot s = none → σ₁.slot s = none)
    (hheld : ∀ rd, σ₁.reader = some rd → X.holds rd.consumer = true →
      ∃ cmd, σ₁.slot (X.slotOf rd.consumer) = some { req := rd.req, cmd })
    (haccepted : σ₁.accepted = σ.accepted)
    (hmoved : ∀ s, (σ₁.settled s).map (·.1) ++ σ₁.inHand X s ++ σ₁.waiting s
      = (σ.settled s).map (·.1) ++ σ.inHand X s ++ σ.waiting s) : Accounted X σ₁ where
  toWellFormed := hwf
  alone t s hadm := by
    have hsame : ∀ {t}, σ₁.Admitted t s → σ.Admitted t s := by
      rintro t ⟨ic, hic, hrest⟩
      exact ⟨ic, hcaller ▸ hic, hrest⟩
    obtain ⟨hnone, honly⟩ := h.alone t s (hsame hadm)
    exact ⟨hslot s hnone, fun t' hadm' => honly t' (hsame hadm')⟩
  held := hheld
  account s := by rw [haccepted, hmoved, h.account]

theorem steps (hX : Lawful X) (h : Accounted X σ) (hok : Exclusive σ l)
    (hs : Steps X σ l σ') : Accounted X σ' := by
  have hwf := h.toWellFormed.steps hs
  cases hs with
  | enter hidle hcall =>
      -- a caller that has just entered is not admitted
      refine h.setCaller hwf fun _ heq hadm => ?_
      cases heq
      cases hadm
  | @put t ic x rest hic htodo =>
      have hput : Accounted X (σ.put x) := { h with }
      apply hput.setCaller hwf
      intro _ heq hadm
      cases heq
      exact ⟨ic, hic, hadm, rfl⟩
  | publish hic htodo hadm => exact h.publish hic hadm hwf
  | refuse hic htodo hadm hbusy => exact h.setCaller hwf (fun _ h => by cases h)
  | @pass t ic hic htodo hadm hfree =>
      exact h.pass hX hic hfree
        (hok ic hic htodo hadm (h.slot_eq_none hX hfree)) hwf
  | @takeFreeing c q hreader hq hholds =>
      -- what was in the slot is in hand now, in no other slot's account
      refine h.consume hwf rfl (fun s hs => free_eq_none hs) ?_ rfl fun s => ?_
      · intro _ heq hcontra
        cases heq
        rw [hholds] at hcontra
        cases hcontra
      · by_cases hs : X.slotOf c = s
        · subst hs
          simp [State.inHand, State.waiting, State.free, hreader, hq, hholds]
        · simp [State.inHand, State.waiting, State.free, hreader, hs, Ne.symm hs]
  | @takeHolding c q hreader hq hholds =>
      refine h.consume hwf rfl (fun s hs => hs) ?_ rfl fun s => ?_
      · intro _ heq _
        cases heq
        exact ⟨q.cmd, hq⟩
      · simp [State.inHand, State.waiting, hreader, hholds]
  | @read rd hreader =>
      refine h.consume hwf rfl (fun s hs => hs) ?_ rfl fun s => ?_
      · intro _ heq hholds
        cases heq
        exact h.held rd hreader hholds
      · simp [State.inHand, State.waiting, hreader]
  | @finishFreed c r o hreader hholds =>
      -- what was in hand is settled
      refine h.consume hwf rfl (fun s hs => hs) (fun _ h => by cases h) rfl fun s => ?_
      by_cases hs : X.slotOf c = s
      · subst hs
        simp [State.inHand, State.waiting, State.settle, hreader, hholds]
      · simp [State.inHand, State.waiting, State.settle, hreader, hs, Ne.symm hs]
  | @finishFreeing c r o hreader hholds =>
      obtain ⟨cmd, hq⟩ := h.held _ hreader hholds
      refine h.consume hwf rfl (fun s hs => free_eq_none hs) (fun _ h => by cases h) rfl fun s => ?_
      by_cases hs : X.slotOf c = s
      · subst hs
        simp only [] at hq
        simp [State.inHand, State.waiting, State.settle, State.free, hreader, hholds, hq]
      · simp [State.inHand, State.waiting, State.settle, State.free, hreader, hs, Ne.symm hs]
  | @discard s q hs hreader hq =>
      refine h.consume hwf rfl (fun s hs => free_eq_none hs) ?_ rfl fun s' => ?_
      · intro rd hrd
        rw [show σ.reader = some rd from hrd] at hreader
        cases hreader
      · by_cases hs' : s' = s
        · subst hs'
          simp [State.inHand, State.waiting, State.settle, State.free, hreader, hq]
        · simp [State.inHand, State.waiting, State.settle, State.free, hreader, hs']

end Accounted

/-! ## Runs -/

section Runs

theorem faithful_of_reach (hX : Lawful X) (h : (X.machine T).Reach (Undisturbed X on) σ) :
    Faithful X on σ :=
  h.invariant (fun _ => .idle) fun _ _ _ hf hok hs => hf.steps hX hok (steps_of_step hs)

theorem accounted_of_reach (hX : Lawful X) (h : (X.machine T).Reach Exclusive σ) :
    Accounted X σ :=
  h.invariant (fun _ => .idle) fun _ _ _ ha hok hs => ha.steps hX hok (steps_of_step hs)

/-- A slot is not cleared with a request in it. -/
def Kept : State S W B R C O T → Label S R C T → Prop
  | _, .discard _ => False
  | _, _ => True

theorem consumed_of_reach (h : (X.machine T).Reach Kept σ) :
    ∀ s, ∀ e ∈ σ.settled s, ∃ k o, e.2 = some (k, o) := by
  refine h.invariant (P := fun σ => ∀ s, ∀ e ∈ σ.settled s, ∃ k o, e.2 = some (k, o)) ?_ ?_
  · intro σ hidle s e he
    rw [hidle.settled s] at he
    cases he
  · intro σ l σ' ih hok hs
    have hsettle : ∀ {s s' r k o}, ∀ e ∈ (σ.settle s r (some (k, o))).settled s',
        ∃ k o, e.2 = some (k, o) := by
      intro s s' r k o e he
      by_cases hss : s' = s
      · subst hss
        simp only [State.settle, Function.update_self, List.mem_append, List.mem_singleton] at he
        rcases he with he | rfl
        · exact ih _ e he
        · exact ⟨k, o, rfl⟩
      · exact ih s' e (by simpa [State.settle, hss] using he)
    cases steps_of_step hs with
    | finishFreed => exact fun _ => hsettle
    | finishFreeing => exact fun _ => hsettle
    | discard => exact hok.elim
    | _ => exact ih

/-- A single caller excludes nobody. -/
theorem exclusive_of_subsingleton [Subsingleton T] : Exclusive σ l := by
  cases l with
  | act t => exact fun _ _ _ _ _ t' _ => Subsingleton.elim t' t
  | _ => trivial

end Runs

/-! ## Freeing last -/

/-- One slot; the callers write after their busy test, and the consumers
hold the slot while they read. -/
structure FreesLast (X : Mailbox S W B R C O) (s : S) : Prop where
  early : ∀ r c, X.call r = some c → c.early = []
  slot : ∀ r c, X.call r = some c → c.slot = s
  slotOf : ∀ k, X.slotOf k = s
  holds : ∀ k, X.holds k = true

section FreesLast

variable [Subsingleton T] {s : S}

/-- A single caller writes only while the slot is free and nobody reads. -/
theorem Accounted.undisturbed (hlast : FreesLast X s) (h : Accounted X σ) :
    Undisturbed X on σ l := by
  cases l with
  | act t =>
      intro ic x rest hic htodo
      obtain ⟨hcall, hmade⟩ := h.made t ic hic
      have hadm : ic.admitted = true := by
        by_contra hadm
        simp [hadm, htodo, hlast.early _ _ hcall] at hmade
      have hempty := (h.alone t _ ⟨ic, hic, hadm, rfl⟩).1
      rw [hlast.slot _ _ hcall] at hempty
      refine ⟨fun q k _ hq => ?_, fun rd _ hrd => ?_, fun t' ic' ht' => ?_⟩
      · rw [hlast.slotOf k, hempty] at hq
        cases hq
      · obtain ⟨cmd, hq⟩ := h.held rd hrd (hlast.holds _)
        rw [hlast.slotOf, hempty] at hq
        cases hq
      · exact absurd (Subsingleton.elim t' t) ht'
  | _ => trivial

/-- **A single caller and a slot that is freed last need no care**: in
every run all requests are carried out as asked, and none is lost. -/
theorem FreesLast.sound (hX : Lawful X) (hlast : FreesLast X s)
    (h : (X.machine T).Reachable σ) : Faithful X (fun _ => True) σ ∧ Accounted X σ := by
  have hexcl : (X.machine T).Reach Exclusive σ :=
    h.strengthen (fun _ => trivial) fun _ _ _ _ _ _ => exclusive_of_subsingleton
  refine ⟨faithful_of_reach hX ?_, accounted_of_reach hX hexcl⟩
  exact hexcl.strengthen
    (fun h' => accounted_of_reach hX (h'.strengthen (fun _ => trivial)
      fun _ _ _ _ _ _ => exclusive_of_subsingleton))
    fun _ _ _ ha _ _ => ha.undisturbed hlast

end FreesLast

/-! ## Calm schedules -/

section Calm

/-- Nobody else is at a call, and a write is made only while nothing is
queued and nobody reads. -/
def calm (slots : List S) (threads : List T) (σ : State S W B R C O T) :
    Label S R C T → Bool
  | .act t =>
      (threads.all fun t' => t' = t || (σ.caller t').isNone) &&
        (σ.caller t).all fun ic =>
          ic.todo.isEmpty || σ.reader.isNone && slots.all fun s => (σ.slot s).isNone
  | .discard _ => false
  | _ => true

variable {slots : List S} {threads : List T}

theorem others_idle_of_calm (hthreads : ∀ t, t ∈ threads) {t t' : T}
    (h : calm slots threads σ (.act t : Label S R C T) = true) (ht' : t' ≠ t) :
    σ.caller t' = none := by
  rw [calm, Bool.and_eq_true, List.all_eq_true] at h
  simpa [ht'] using h.1 t' (hthreads t')

theorem undisturbed_of_calm (hslots : ∀ s, s ∈ slots) (hthreads : ∀ t, t ∈ threads)
    (h : calm slots threads σ l = true) : Undisturbed X on σ l := by
  cases l with
  | act t =>
      intro ic x rest hic htodo
      have hothers : ∀ t', t' ≠ t → σ.caller t' = none := fun _ => others_idle_of_calm hthreads h
      rw [calm, Bool.and_eq_true, hic, Option.all_some, htodo] at h
      simp only [List.isEmpty_cons, Bool.false_or, Bool.and_eq_true, List.all_eq_true,
        Option.isNone_iff_eq_none] at h
      obtain ⟨-, hreader, hempty⟩ := h
      refine ⟨fun q k _ hq => ?_, fun rd _ hrd => ?_, fun t' ic' ht' hic' => ?_⟩
      · rw [hempty _ (hslots _)] at hq
        cases hq
      · rw [hreader] at hrd
        cases hrd
      · rw [hothers t' ht'] at hic'
        cases hic'
  | _ => trivial

theorem exclusive_of_calm (hthreads : ∀ t, t ∈ threads)
    (h : calm slots threads σ l = true) : Exclusive σ l := by
  cases l with
  | act t =>
      intro ic _ _ _ _ t' hadm
      obtain ⟨ic', hic', -⟩ := hadm
      by_contra ht'
      rw [others_idle_of_calm hthreads h ht'] at hic'
      cases hic'
  | _ => trivial

theorem kept_of_calm (h : calm slots threads σ l = true) : Kept σ l := by
  cases l with
  | discard s => cases h
  | _ => trivial

end Calm

end Mailbox

end RuntimeBle.Lib
