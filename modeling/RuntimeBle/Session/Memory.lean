import RuntimeBle.Lib.Ledger
import RuntimeBle.Server.Stores
import RuntimeBle.Session.BringUp
import RuntimeBle.Session.Lifecycle

/-!
# Session — Memory

What a session takes by hand and has to give back by hand: the stack of the
BLE thread, the boxes `chip::run` makes raw pointers of, the value buffers of
`alloc_store` and the box of a configured appearance.

A load has a ledger of its own. The BLE thread writes it in the order of its
program, between its other steps wherever it likes; the stack is entered by
the calls, with which the thread runs side by side. When a bounded join runs
out the stack is freed under a thread that still has its teardown to do.
-/

namespace RuntimeBle.Session

open RuntimeBle.Lib RuntimeBle.Server

/-- What a session allocates. -/
inductive Alloc where
  | threadStack
  | mpsl
  | rng
  | sdcMem
  | hostResources
  | store (i : Nat)
  | appearance
deriving DecidableEq

/-- The attribute server borrows it. -/
def Alloc.behindServer : Alloc → Bool
  | .store _ | .appearance => true
  | _ => false

/-! ## The BLE thread -/

namespace Memory

section

variable (T : Trouble) (b : Build)

/-- The box of `gap_appearance`; 0 has a static value. -/
def gapAppearance (value : UInt16) : List Alloc := if value = 0 then [] else [.appearance]

/-- What the attribute server of `g` has references to. -/
def borrowed (cfg : RuntimeCfg) (g : Gatt) : List Alloc :=
  gapAppearance cfg.appearance ++ g.borrowed.map .store

/-- `serve_session`; `none` is a panic. -/
def serveSession (cfg : RuntimeCfg) : Option (List (Entry Alloc)) :=
  match buildGatt T b cfg (cstrOr cfg.deviceName defaultName) with
  | .error .tableFull => none
  | .error .nameTooLong =>
      some ((gapAppearance cfg.appearance).map .alloc ++
        (gapAppearance cfg.appearance).map .release)
  | .ok g =>
      some ((gapAppearance cfg.appearance).map .alloc ++
        (List.range (allocStores cfg.services)).map (fun i => .alloc (.store i)) ++
        [.lend (borrowed cfg g), .reclaim] ++
        (List.range g.stores).map (fun i => .release (.store i)) ++
        (if g.appearanceStore then [.release .appearance] else []))

/-- `chip::run`. -/
def run (o : Outcomes) : Option RuntimeCfg → Option (List (Entry Alloc))
  | none => some []
  | some cfg =>
      if !o.mpslOk then some []
      else if !o.sdcOk then
        some [.alloc .mpsl, .alloc .rng, .alloc .sdcMem,
          .release .sdcMem, .release .rng, .release .mpsl]
      else
        -- `serve_central` has no attribute server
        (if b.central && cfg.role = 1 then some [] else serveSession T b cfg).map fun session =>
          [.alloc .mpsl, .alloc .rng, .alloc .sdcMem, .alloc .hostResources] ++ session ++
            [.release .hostResources, .release .sdcMem, .release .rng, .release .mpsl]

end

end Memory

/-! ## The calls beside it -/

/-- What a BLE thread comes upon. -/
structure Environment where
  outcomes : Outcomes := {}
  cfg : Option RuntimeCfg := none

/-- `todo` is what a thread has yet to enter, `none` for one that is going to
panic; the stack pointer names the load. -/
structure Memory where
  life : Lifecycle := {}
  runtimeStack : Option Nat := none
  env : Nat → Environment := fun _ => {}
  todo : Nat → Option (List (Entry Alloc)) := fun _ => none
  ledger : Nat → List (Entry Alloc) := fun _ => []

/-- A thread created by the step finds `e`. -/
inductive MemoryLabel where
  | life (l : LifeLabel) (e : Environment)
  | enter (i : Nat)

namespace Memory

section

variable (T : Trouble) (b : Build)

/-- The ledgers with one more entry for load `i`. -/
def write (s : Memory) (i : Nat) (x : Entry Alloc) : Nat → List (Entry Alloc) :=
  Function.update s.ledger i (s.ledger i ++ [x])

/-- Thread `i` does `x`. -/
def enter (s : Memory) (i : Nat) (x : Entry Alloc) (rest : List (Entry Alloc)) : Memory :=
  { s with ledger := s.write i x, todo := Function.update s.todo i (some rest) }

/-- A thread publishes what its bring-up came to, and is through when it
returns. -/
def allows (s : Memory) : LifeLabel → Bool
  | .thread i (.publish status) =>
      status = (Session.run T b (s.env i).outcomes (s.env i).cfg).1
  | .thread i .exit => s.todo i = some []
  | _ => true

/-- What the step of a call at `pc` does beside what is in the lifecycle. -/
def proceed (s : Memory) (e : Environment) : CallPc → Memory
  | .alloc =>
      { s with
        ledger := s.write (s.life.newest + 1) (.alloc .threadStack)
        runtimeStack := some (s.life.newest + 1) }
  | .create =>
      { s with
        env := Function.update s.env (s.life.newest + 1) e
        todo := Function.update s.todo (s.life.newest + 1) (run T b e.outcomes e.cfg) }
  | .free _ =>
      match s.runtimeStack with
      | some i => { s with ledger := s.write i (.release .threadStack), runtimeStack := none }
      | none => s
  | _ => s

/-- The memory behind a step of the calls. -/
def account (s : Memory) (e : Environment) : LifeLabel → Memory
  | .proceed => s.life.call.elim s fun call => s.proceed T b e call.2
  | .allocFails => { s with runtimeStack := none }
  | _ => s

end

end Memory

/-- A step of the calls, or of what a thread has still to allocate and to
release. -/
def memoryStep (T : Trouble) (b : Build) (s : Memory) : MemoryLabel → Option Memory
  | .life l e =>
      if s.allows T b l then
        (lifeStep s.life l).map fun life => { s.account T b e l with life }
      else none
  | .enter i =>
      if (s.life.thread i).pc.alive then
        match s.todo i with
        | some (x :: rest) => some (s.enter i x rest)
        | _ => none
      else none

/-- The machine from boot on. -/
def memory (T : Trouble) (b : Build) : Machine Memory MemoryLabel where
  init s := s = {}
  step := memoryStep T b

/-! ## Balance -/

/-- What is lent is what the server borrows: every value buffer and the
appearance, and nothing else. -/
def Lent (entries : List (Entry Alloc)) : Prop :=
  ∀ as, .lend as ∈ entries → ∀ a, a ∈ as ↔ .alloc a ∈ entries ∧ a.behindServer = true

/-- The entries of a thread that has returned. -/
structure Balanced (entries : List (Entry Alloc)) : Prop where
  settled : Settled entries
  lent : Lent entries
  dropped : ∀ pre a post, entries = pre ++ .release a :: post → a.behindServer = true →
    ∀ as, .lend as ∈ entries → .reclaim ∈ pre

variable {entries : List (Entry Alloc)} {as : List Alloc} {a : Alloc}

theorem balanced_of_settled (hsettled : Settled entries) (hlent : Lent entries) :
    Balanced entries where
  settled := hsettled
  lent := hlent
  dropped := by
    intro pre a post heq hbehind as hlend
    have halloc : .alloc a ∈ pre := hsettled.owned pre a post heq
    have ha : a ∈ as :=
      (hlent as hlend a).mpr ⟨heq ▸ List.mem_append_left _ halloc, hbehind⟩
    rcases List.mem_append.mp (heq ▸ hlend) with hpre | hpost
    · obtain ⟨before, between, rfl⟩ := List.append_of_mem hpre
      have hreclaim := hsettled.returned before as between a post (by simp [heq]) ha
      exact List.mem_append_right _ (List.mem_cons_of_mem _ hreclaim)
    · -- a server that is made later finds the buffer gone
      obtain ⟨before, between, hsplit⟩ :=
        List.append_of_mem ((List.mem_cons.mp hpost).resolve_left (by simp))
      have hgone := (hsettled.lent (pre ++ .release a :: before) as between
        (by simp [heq, hsplit]) a ha).2
      exact absurd (List.mem_append_right _ List.mem_cons_self) hgone

/-- A piece of the thread's program that is in balance. -/
structure Tidy (as : List Alloc) (entries : List (Entry Alloc)) : Prop where
  settles : Settles as entries
  lent : Lent entries

theorem Tidy.balanced (h : Tidy as entries) : Balanced entries :=
  balanced_of_settled h.settles.settled h.lent

theorem tidy_nil : Tidy [] [] where
  settles := settles_nil
  lent as h := by cases h

/-- An allocation the server does not borrow, around a piece. -/
theorem Tidy.around (pre mid : List (Entry Alloc)) (h : Tidy as (pre ++ mid)) (ha : a ∉ as)
    (hbehind : a.behindServer = false) :
    Tidy (a :: as) (.alloc a :: (pre ++ .release a :: mid)) where
  settles := h.settles.around pre mid ha
  lent as' hlend a' := by
    have hlend' : .lend as' ∈ pre ++ mid := by simpa using hlend
    rw [h.lent as' hlend' a']
    refine and_congr_left fun hbehind' => ?_
    have hne : a' ≠ a := fun heq => by simp [heq, hbehind] at hbehind'
    simp [hne]

theorem Tidy.bracket (h : Tidy as entries) (ha : a ∉ as) (hbehind : a.behindServer = false) :
    Tidy (a :: as) (.alloc a :: (entries ++ [.release a])) :=
  Tidy.around entries [] (by rwa [List.append_nil]) ha hbehind

namespace Memory

variable {T : Trouble} {b : Build} {o : Outcomes} {cfg : RuntimeCfg}

theorem mem_gapAppearance {value : UInt16} :
    a ∈ gapAppearance value ↔ value ≠ 0 ∧ a = .appearance := by
  unfold gapAppearance
  split
  · rename_i h
    simp [h]
  · rename_i h
    simp [h]

/-- The value buffers of a session. -/
def valueStores (n : Nat) : List Alloc := (List.range n).map .store

theorem mem_valueStores {n : Nat} : a ∈ valueStores n ↔ ∃ i < n, .store i = a := by
  simp [valueStores]

/-- With its server up a session has the box and the buffers, and returns
the buffers first. -/
theorem tidy_served (value : UInt16) (n : Nat) :
    Tidy (gapAppearance value ++ valueStores n)
      ((gapAppearance value ++ valueStores n).map .alloc ++
        .lend (gapAppearance value ++ valueStores n) :: .reclaim ::
          (valueStores n ++ gapAppearance value).map .release) where
  settles := by
    refine settles_pool ?_ List.perm_append_comm (List.Subset.refl _)
    rw [List.nodup_append]
    refine ⟨?_, ?_, ?_⟩
    · unfold gapAppearance
      split <;> simp
    · exact List.nodup_range.map fun i j h => Alloc.store.inj h
    · intro a ha a' ha' heq
      obtain ⟨i, -, rfl⟩ := mem_valueStores.mp ha'
      rw [(mem_gapAppearance.mp ha).2] at heq
      cases heq
  lent as hlend a := by
    have has : as = gapAppearance value ++ valueStores n := by simpa using hlend
    rw [has]
    simp only [List.mem_append, List.mem_map, List.mem_cons, Entry.alloc.injEq, exists_eq_right,
      reduceCtorEq, and_false, exists_false, or_false]
    refine ⟨fun ha => ⟨ha, ?_⟩, fun h => h.1⟩
    rcases ha with ha | ha
    · rw [(mem_gapAppearance.mp ha).2]
      rfl
    · obtain ⟨i, -, rfl⟩ := mem_valueStores.mp ha
      rfl

theorem tidy_serveSession (h : serveSession T b cfg = some entries) :
    ∃ as, (∀ a ∈ as, a.behindServer = true) ∧ Tidy as entries := by
  have happ : ∀ a ∈ gapAppearance cfg.appearance, a.behindServer = true := by
    intro a ha
    rw [(mem_gapAppearance.mp ha).2]
    rfl
  unfold serveSession at h
  split at h
  · cases h
  · cases h
    refine ⟨gapAppearance cfg.appearance, happ, ?_, ?_⟩
    · unfold gapAppearance
      split
      · exact settles_nil
      · exact settles_nil.around [] [] List.not_mem_nil
    · intro as hlend
      simp at hlend
  · rename_i g hg
    cases h
    obtain ⟨hstores, hborrowed, happearance⟩ := stores_of_buildGatt hg
    refine ⟨gapAppearance cfg.appearance ++ valueStores g.stores, ?_, ?_⟩
    · intro a ha
      rcases List.mem_append.mp ha with ha | ha
      · exact happ a ha
      · obtain ⟨i, -, rfl⟩ := mem_valueStores.mp ha
        rfl
    · have hbox : (if g.appearanceStore = true then [Entry.release Alloc.appearance] else [])
          = (gapAppearance cfg.appearance).map .release := by
        rw [happearance]
        unfold gapAppearance
        by_cases hzero : cfg.appearance = 0 <;> simp [hzero]
      have hserved := tidy_served cfg.appearance g.stores
      rw [hbox, ← hstores, borrowed, hborrowed]
      simpa [valueStores, List.map_map, Function.comp_def] using hserved

/-- **The BLE thread is in balance**, whatever becomes of the bring-up. -/
theorem tidy_run {cfg : Option RuntimeCfg} (h : run T b o cfg = some entries) :
    ∃ as, .threadStack ∉ as ∧ Tidy as entries := by
  cases cfg with
  | none =>
      cases h
      exact ⟨[], List.not_mem_nil, tidy_nil⟩
  | some cfg =>
      rw [run] at h
      split at h
      · cases h
        exact ⟨[], List.not_mem_nil, tidy_nil⟩
      · split at h
        · cases h
          have hmem := tidy_nil.bracket (a := .sdcMem) (by simp) rfl
          have hrng := hmem.bracket (a := .rng) (by simp) rfl
          have hmpsl := hrng.bracket (a := .mpsl) (by simp) rfl
          exact ⟨_, by simp, hmpsl⟩
        · obtain ⟨session, hsession, hrun⟩ := Option.map_eq_some_iff.mp h
          cases hrun
          have hserve : ∃ as, (∀ a ∈ as, a.behindServer = true) ∧ Tidy as session := by
            split at hsession
            · cases hsession
              exact ⟨[], by simp, tidy_nil⟩
            · exact tidy_serveSession hsession
          obtain ⟨as, hbehind, htidy⟩ := hserve
          have hnot : ∀ a : Alloc, a.behindServer = false → a ∉ as := by
            intro a ha hmem
            simp [hbehind a hmem] at ha
          have hres := htidy.bracket (hnot .hostResources rfl) rfl
          have hmem := hres.bracket (a := .sdcMem) (by simp [hnot .sdcMem rfl]) rfl
          have hrng := hmem.bracket (a := .rng) (by simp [hnot .rng rfl]) rfl
          have hmpsl := hrng.bracket (a := .mpsl) (by simp [hnot .mpsl rfl]) rfl
          refine ⟨_, ?_, by simpa using hmpsl⟩
          simp [hnot .threadStack rfl]

end Memory

/-! ## Whose stack is allocated -/

/-- The call is an unload, or will have been one. -/
def CallPc.unloads : CallPc → Bool
  | .signal result | .join result | .irqsOff result | .free result => result.isNone
  | _ => false

/-- The stack that a call under way holds. -/
def CallPc.stack (newest : Nat) : CallPc → Option Nat
  | .alloc => none
  | .reset | .irqsOn | .create => some (newest + 1)
  | _ => some newest

/-- The load the stack pointer is from. -/
def Lifecycle.stack (s : Lifecycle) : Option Nat :=
  match s.call with
  | none => if s.loaded then some s.newest else none
  | some (_, pc) => pc.stack s.newest

/-- A session stays loaded until its unload is through, and the threads are
numbered from 1. -/
structure Ordered (s : Lifecycle) : Prop where
  loaded : ∀ c pc, s.call = some (c, pc) → s.loaded = pc.unloads
  numbered : ∀ i, (s.thread i).pc = .unborn ↔ i = 0 ∨ s.newest < i
  pointed : s.stack ≠ some 0

/-- What a step does to the threads. -/
inductive Births (s t : Lifecycle) : LifeLabel → Prop
  | same {l : LifeLabel} (hnewest : t.newest = s.newest)
      (hpc : ∀ i, (t.thread i).pc = (s.thread i).pc) : Births s t l
  | born {c : Context} (hcall : s.call = some (c, .create)) (hnewest : t.newest = s.newest + 1)
      (hthread : t.thread = Function.update s.thread (s.newest + 1) { pc := .created }) :
      Births s t .proceed
  | moved {i : Nat} {m : Move} (hnewest : t.newest = s.newest) (halive : (s.thread i).pc ≠ .unborn)
      (pc : ThreadPc) (hthread : t.thread = Function.update s.thread i { s.thread i with pc })
      (hborn : pc ≠ .unborn) (hexit : pc = .exited → m = .exit) : Births s t (.thread i m)

/-- The stack behind a step. -/
def Lifecycle.stackAfter (s : Lifecycle) : LifeLabel → Option Nat
  | .proceed =>
      match s.call with
      | some (_, .alloc) => some (s.newest + 1)
      | some (_, .free _) => none
      | _ => s.stack
  | .allocFails => none
  | _ => s.stack

/-- A step seen from the outside. -/
structure Effect (s t : Lifecycle) (l : LifeLabel) : Prop where
  births : Births s t l
  stack : t.stack = s.stackAfter l
  loaded : ∀ c pc, t.call = some (c, pc) → t.loaded = pc.unloads

variable {s t : Lifecycle} {l : LifeLabel}

theorem stack_of_idle (h : s.call = none) :
    s.stack = if s.loaded then some s.newest else none := by
  rw [Lifecycle.stack, h]

theorem stack_of_call {c : Context} {pc : CallPc} (h : s.call = some (c, pc)) :
    s.stack = pc.stack s.newest := by
  rw [Lifecycle.stack, h]

theorem exit_of_moveThread {i : Nat} {m : Move} (hs : s.moveThread i m = some t)
    (hexited : (t.thread i).pc = .exited) : m = .exit := by
  unfold Lifecycle.moveThread at hs
  split at hs
  case h_4 status _ =>
      cases hs
      simp only [Lifecycle.setPc, Function.update_self] at hexited
      split at hexited <;> cases hexited
  case h_5 =>
      split at hs
      · cases hs
        simp [Lifecycle.setPc] at hexited
      · cases hs
  case h_7 => rfl
  case h_8 => cases hs
  all_goals
    cases hs
    simp [Lifecycle.setPc] at hexited

theorem effect_moveThread (h : Ordered s) {i : Nat} {m : Move} (hs : s.moveThread i m = some t) :
    Effect s t (.thread i m) := by
  obtain ⟨pc, hthread, hborn, -, -, -⟩ := (moves_of_moveThread hs).moved
  have hm := moves_of_moveThread hs
  have hexit : pc = .exited → m = .exit := by
    intro hpc
    apply exit_of_moveThread hs
    rw [hthread, Function.update_self]
    exact hpc
  refine ⟨.moved hm.newest ?_ pc hthread hborn hexit, ?_, ?_⟩
  · intro hunborn
    have halive := hm.alive
    rw [hunborn] at halive
    cases halive
  · show t.stack = s.stack
    rw [Lifecycle.stack, Lifecycle.stack, hm.call, hm.loaded, hm.newest]
  · rw [hm.call, hm.loaded]
    exact h.loaded

/-- A step of a call that goes on to `pc` and leaves the threads alone. -/
theorem effect_goOn {c : Context} {pc : CallPc} (hcall : t.call = some (c, pc))
    (hnewest : t.newest = s.newest) (hpc : ∀ i, (t.thread i).pc = (s.thread i).pc)
    (hstack : pc.stack s.newest = s.stackAfter l) (hloaded : t.loaded = pc.unloads) :
    Effect s t l where
  births := .same hnewest hpc
  stack := by rw [Lifecycle.stack, hcall, hnewest, ← hstack]
  loaded c' pc' heq := by
    rw [hcall] at heq
    cases heq
    exact hloaded

/-- A step with which the calls are over. -/
theorem effect_return (hcall : t.call = none) (hnewest : t.newest = s.newest)
    (hpc : ∀ i, (t.thread i).pc = (s.thread i).pc)
    (hstack : (if t.loaded then some s.newest else none) = s.stackAfter l) : Effect s t l where
  births := .same hnewest hpc
  stack := by rw [Lifecycle.stack, hcall, hnewest, ← hstack]
  loaded c pc heq := by
    rw [hcall] at heq
    cases heq

theorem effect_proceed (h : Ordered s) (hs : lifeStep s .proceed = some t) :
    Effect s t .proceed := by
  obtain ⟨⟨c, pc⟩, hcall, hproceed⟩ := Option.bind_eq_some_iff.mp hs
  have hloaded := h.loaded c pc hcall
  have hstack := stack_of_call hcall
  cases pc with
  | alloc | reset | irqsOn =>
      cases hproceed
      exact effect_goOn rfl rfl (fun _ => rfl)
        (by simp [Lifecycle.stackAfter, hcall, hstack, CallPc.stack]) hloaded
  | create =>
      cases hproceed
      refine ⟨.born hcall rfl rfl, ?_, ?_⟩
      · simp [Lifecycle.stackAfter, Lifecycle.stack, hcall, CallPc.stack]
      · intro c' pc' heq
        cases heq
        exact hloaded
  | wait =>
      have hafter : s.stackAfter .proceed = some s.newest := by
        simp [Lifecycle.stackAfter, hcall, hstack, CallPc.stack]
      rw [Lifecycle.proceed, Option.ite_none_right_eq_some] at hproceed
      obtain ⟨-, hproceed⟩ := hproceed
      split at hproceed
      · cases hproceed
        exact effect_return rfl rfl (fun _ => rfl) hafter.symm
      · cases hproceed
        exact effect_goOn rfl rfl (fun _ => rfl) hafter.symm hloaded
  | signal result | irqsOff result =>
      cases hproceed
      exact effect_goOn rfl rfl (fun _ => rfl)
        (by simp [Lifecycle.stackAfter, hcall, hstack, CallPc.stack]) hloaded
  | join result =>
      rw [Lifecycle.proceed, Option.ite_none_right_eq_some] at hproceed
      obtain ⟨-, hproceed⟩ := hproceed
      cases hproceed
      exact effect_goOn rfl rfl (fun _ => rfl)
        (by simp [Lifecycle.stackAfter, hcall, hstack, CallPc.stack]) hloaded
  | free result =>
      cases hproceed
      refine effect_return rfl rfl (fun i => ?_) ?_
      · by_cases hi : i = s.newest
        · simp [hi]
        · simp [Function.update_of_ne hi]
      · -- a failed load was not loaded, an unload no longer is
        cases result <;> simp_all [CallPc.unloads, Lifecycle.stackAfter]

theorem effect_lifeStep (h : Ordered s) (hs : lifeStep s l = some t) : Effect s t l := by
  cases l with
  | load c =>
      simp only [lifeStep, Option.ite_none_right_eq_some, Bool.and_eq_true,
        Option.isNone_iff_eq_none] at hs
      obtain ⟨⟨hcall, -⟩, hs⟩ := hs
      split at hs
      · rename_i hloaded
        cases hs
        exact effect_return hcall rfl (fun _ => rfl) (stack_of_idle hcall).symm
      · rename_i hloaded
        cases hs
        exact effect_goOn rfl rfl (fun _ => rfl)
          (by simp [Lifecycle.stackAfter, stack_of_idle hcall, hloaded, CallPc.stack])
          (by simpa [CallPc.unloads] using hloaded)
  | unload c =>
      simp only [lifeStep, Option.ite_none_right_eq_some, Bool.and_eq_true,
        Option.isNone_iff_eq_none] at hs
      obtain ⟨⟨hcall, -⟩, hs⟩ := hs
      split at hs
      · rename_i hloaded
        cases hs
        exact effect_goOn rfl rfl (fun _ => rfl)
          (by simp [Lifecycle.stackAfter, stack_of_idle hcall, hloaded, CallPc.stack])
          (by simpa [CallPc.unloads] using hloaded)
      · cases hs
        exact effect_return hcall rfl (fun _ => rfl) (stack_of_idle hcall).symm
  | proceed => exact effect_proceed h hs
  | allocFails =>
      simp only [lifeStep] at hs
      split at hs
      · rename_i c hcall
        cases hs
        -- `k_aligned_alloc` has failed, and there is no stack
        have hloaded := h.loaded c _ hcall
        exact effect_return rfl rfl (fun _ => rfl)
          (by simp [hloaded, CallPc.unloads, Lifecycle.stackAfter])
      · cases hs
  | timeout =>
      simp only [lifeStep, Lifecycle.timeOut] at hs
      split at hs
      · rename_i c hcall
        have hloaded := h.loaded c _ hcall
        split at hs
        · cases hs
        · cases hs
          exact effect_goOn rfl rfl (fun _ => rfl) (stack_of_call hcall).symm hloaded
      · rename_i c status hcall
        have hloaded := h.loaded c _ hcall
        split at hs
        · cases hs
        · cases hs
          exact effect_goOn rfl rfl (fun _ => rfl) (stack_of_call hcall).symm hloaded
      · cases hs
  | thread i m =>
      simp only [lifeStep] at hs
      split at hs
      · cases hs
      · exact effect_moveThread h hs

theorem Effect.ordered (h : Ordered s) (he : Effect s t l) : Ordered t where
  loaded := he.loaded
  numbered i := by
    have hs := h.numbered i
    cases he.births with
    | same hnewest hpc => rw [hpc i, hnewest, hs]
    | born hcall hnewest hthread =>
        rw [hthread, hnewest]
        by_cases hi : i = s.newest + 1
        · simp [hi]
        · rw [Function.update_of_ne hi, hs]
          omega
    | @moved j m hnewest halive pc hthread hborn hexit =>
        rw [hthread, hnewest]
        by_cases hi : i = j
        · rw [hi, Function.update_self, ← h.numbered j]
          exact iff_of_false hborn halive
        · rw [Function.update_of_ne hi, hs]
  pointed := by
    rw [he.stack]
    unfold Lifecycle.stackAfter
    split
    · split
      · simp
      · simp
      · exact h.pointed
    · simp
    · exact h.pointed

/-- Threads are born in the step behind `create`, and exit by themselves. -/
theorem Births.steady (h : Births s t l) (hl : ∀ c, s.call = some (c, .create) → l ≠ .proceed) :
    ∀ i, ((t.thread i).pc = .unborn ↔ (s.thread i).pc = .unborn) ∧
      ((t.thread i).pc = .exited → (s.thread i).pc = .exited ∨ l = .thread i .exit) := by
  intro i
  cases h with
  | same hnewest hpc =>
      rw [hpc i]
      exact ⟨Iff.rfl, .inl⟩
  | born hcall => exact absurd rfl (hl _ hcall)
  | @moved j m hnewest halive pc hthread hborn hexit =>
      rw [hthread]
      by_cases hi : i = j
      · rw [hi, Function.update_self]
        refine ⟨iff_of_false hborn halive, fun hpc => .inr ?_⟩
        rw [hexit hpc]
      · rw [Function.update_of_ne hi]
        exact ⟨Iff.rfl, .inl⟩

theorem ne_proceed_of_call {c : Context} {pc : CallPc} (h : s.call = some (c, pc))
    (hpc : pc ≠ .create) : ∀ c', s.call = some (c', .create) → l ≠ .proceed := by
  intro c' hcreate
  rw [h, Option.some_inj, Prod.mk.injEq] at hcreate
  exact absurd hcreate.2 hpc

/-! ## The invariant -/

/-- The entry of the stack stands before those of the thread, its release
anywhere behind. -/
def StackAccount (held : Prop) [Decidable held] (done ledger : List (Entry Alloc)) : Prop :=
  if held then ledger = .alloc .threadStack :: done
  else ∃ pre mid, done = pre ++ mid ∧
    ledger = .alloc .threadStack :: (pre ++ .release .threadStack :: mid)

namespace Memory

/-- The thread of a load has entered the first part of what it does, and
what is to come is the rest. -/
structure Kept (T : Trouble) (b : Build) (s : Memory) : Prop where
  ordered : Ordered s.life
  stack : s.runtimeStack = s.life.stack
  unborn : ∀ i, (s.life.thread i).pc = .unborn →
    s.ledger i = if s.runtimeStack = some i then [.alloc .threadStack] else []
  born : ∀ i, (s.life.thread i).pc ≠ .unborn → ∃ done,
    (∀ rest, s.todo i = some rest →
      run T b (s.env i).outcomes (s.env i).cfg = some (done ++ rest)) ∧
    StackAccount (s.runtimeStack = some i) done (s.ledger i)
  through : ∀ i, (s.life.thread i).pc = .exited → s.todo i = some []

theorem kept_init : Kept T b {} where
  ordered := by
    constructor
    · intro c pc hcall
      cases hcall
    · intro i
      apply iff_of_true rfl
      show i = 0 ∨ 0 < i
      omega
    · intro hpointed
      cases hpointed
  stack := rfl
  unborn _ _ := rfl
  born i h := absurd rfl h
  through i h := by cases h

variable {m n : Memory} {e : Environment}

theorem Kept.entered (h : Kept T b m) {i : Nat} {x : Entry Alloc} {rest : List (Entry Alloc)}
    (halive : (m.life.thread i).pc.alive = true) (htodo : m.todo i = some (x :: rest)) :
    Kept T b (m.enter i x rest) where
  ordered := h.ordered
  stack := h.stack
  unborn j hj := by
    have hne : j ≠ i := by
      rintro rfl
      rw [show (m.life.thread j).pc = _ from hj] at halive
      cases halive
    simp only [enter, write, Function.update_of_ne hne]
    exact h.unborn j hj
  born j hj := by
    by_cases hji : j = i
    · subst hji
      obtain ⟨done, hrun, haccount⟩ := h.born j hj
      refine ⟨done ++ [x], ?_, ?_⟩
      · intro rest' hrest
        simp only [enter, Function.update_self, Option.some.injEq] at hrest
        subst hrest
        rw [List.append_assoc]
        exact hrun _ htodo
      · simp only [enter, write, Function.update_self]
        unfold StackAccount at haccount ⊢
        by_cases hheld : m.runtimeStack = some j
        · rw [if_pos hheld] at haccount ⊢
          rw [haccount]
          rfl
        · rw [if_neg hheld] at haccount ⊢
          obtain ⟨pre, mid, rfl, hledger⟩ := haccount
          refine ⟨pre, mid ++ [x], by simp, ?_⟩
          rw [hledger]
          simp
    · simp only [enter, write, Function.update_of_ne hji]
      exact h.born j hj
  through j hj := by
    have hne : j ≠ i := by
      rintro rfl
      rw [show (m.life.thread j).pc = _ from hj] at halive
      cases halive
    simp only [enter, Function.update_of_ne hne]
    exact h.through j hj

/-- A step with which no stack and no thread comes or goes. -/
theorem Kept.steady (h : Kept T b m) (he : Effect m.life t l)
    (hl : ∀ c, m.life.call = some (c, .create) → l ≠ .proceed)
    (hstack : m.life.stackAfter l = m.life.stack) (hallows : m.allows T b l = true) :
    Kept T b { m with life := t } where
  ordered := he.ordered h.ordered
  stack := h.stack.trans (hstack.symm.trans he.stack.symm)
  unborn i hi := h.unborn i ((he.births.steady hl i).1.mp hi)
  born i hi := h.born i fun hborn => hi ((he.births.steady hl i).1.mpr hborn)
  through i hi := by
    rcases (he.births.steady hl i).2 hi with hbefore | rfl
    · exact h.through i hbefore
    · simpa [allows] using hallows

/-- The number of the next load is that of no thread. -/
theorem Kept.next_unborn (h : Kept T b m) :
    (m.life.thread (m.life.newest + 1)).pc = .unborn :=
  (h.ordered.numbered _).mpr (.inr (by omega))

theorem Kept.allocated (h : Kept T b m) {c : Context} (hcall : m.life.call = some (c, .alloc))
    (he : Effect m.life t .proceed) :
    Kept T b { m with
      life := t
      ledger := m.write (m.life.newest + 1) (.alloc .threadStack)
      runtimeStack := some (m.life.newest + 1) } := by
  have hnone : m.runtimeStack = none := h.stack.trans (stack_of_call hcall)
  have hsteady := he.births.steady (ne_proceed_of_call hcall (by simp))
  refine ⟨he.ordered h.ordered, ?_, fun i hi => ?_, fun i hi => ?_, fun i hi => ?_⟩
  · rw [he.stack, Lifecycle.stackAfter, hcall]
  · have hledger := h.unborn i ((hsteady i).1.mp hi)
    rw [hnone, if_neg (by simp)] at hledger
    by_cases hnext : i = m.life.newest + 1
    · subst hnext
      simp [write, hledger]
    · simp [write, Function.update_of_ne hnext, hledger, Ne.symm hnext]
  · have hborn : (m.life.thread i).pc ≠ .unborn := fun hborn => hi ((hsteady i).1.mpr hborn)
    have hne : i ≠ m.life.newest + 1 := fun heq => hborn (heq ▸ h.next_unborn)
    obtain ⟨done, hrun, haccount⟩ := h.born i hborn
    refine ⟨done, hrun, ?_⟩
    simp only [write, Function.update_of_ne hne]
    unfold StackAccount at haccount ⊢
    rw [if_neg (by simp [hnone])] at haccount
    rw [if_neg (by simp [Ne.symm hne])]
    exact haccount
  · rcases (hsteady i).2 hi with hbefore | hexit
    · exact h.through i hbefore
    · cases hexit

theorem Kept.created (h : Kept T b m) {c : Context} (hcall : m.life.call = some (c, .create))
    (he : Effect m.life t .proceed)
    (hthread : t.thread
      = Function.update m.life.thread (m.life.newest + 1) { pc := .created }) :
    Kept T b { m with
      life := t
      env := Function.update m.env (m.life.newest + 1) e
      todo := Function.update m.todo (m.life.newest + 1) (run T b e.outcomes e.cfg) } := by
  have hstack : m.runtimeStack = some (m.life.newest + 1) := h.stack.trans (stack_of_call hcall)
  refine ⟨he.ordered h.ordered, ?_, fun i hi => ?_, fun i hi => ?_, fun i hi => ?_⟩
  · show m.runtimeStack = t.stack
    rw [hstack, he.stack, Lifecycle.stackAfter, hcall]
    simp [Lifecycle.stack, hcall, CallPc.stack]
  · by_cases hnext : i = m.life.newest + 1
    · simp [hthread, hnext] at hi
    · simp only [hthread, Function.update_of_ne hnext] at hi
      exact h.unborn i hi
  · by_cases hnext : i = m.life.newest + 1
    · subst hnext
      refine ⟨[], ?_, ?_⟩
      · intro rest hrest
        simpa using hrest
      · have hledger := h.unborn _ h.next_unborn
        rw [if_pos hstack] at hledger
        unfold StackAccount
        rw [if_pos hstack]
        exact hledger
    · simp only [hthread, Function.update_of_ne hnext] at hi ⊢
      exact h.born i hi
  · by_cases hnext : i = m.life.newest + 1
    · simp [hthread, hnext] at hi
    · simp only [hthread, Function.update_of_ne hnext] at hi ⊢
      exact h.through i hi

theorem Kept.freed (h : Kept T b m) {c : Context} {result : Option Int}
    (hcall : m.life.call = some (c, .free result)) (he : Effect m.life t .proceed) :
    m.runtimeStack = some m.life.newest ∧
      Kept T b { m with
        life := t
        ledger := m.write m.life.newest (.release .threadStack)
        runtimeStack := none } := by
  have hstack : m.life.stack = some m.life.newest := stack_of_call hcall
  have hheld : m.runtimeStack = some m.life.newest := h.stack.trans hstack
  have hsteady := he.births.steady (ne_proceed_of_call hcall (by simp))
  have hnewest : (m.life.thread m.life.newest).pc ≠ .unborn := by
    rw [Ne, h.ordered.numbered]
    rintro (hzero | hlt)
    · exact h.ordered.pointed (hstack.trans (congrArg some hzero))
    · exact Nat.lt_irrefl _ hlt
  refine ⟨hheld, he.ordered h.ordered, ?_, fun i hi => ?_, fun i hi => ?_, fun i hi => ?_⟩
  · rw [he.stack, Lifecycle.stackAfter, hcall]
  · have hborn := (hsteady i).1.mp hi
    have hne : i ≠ m.life.newest := fun heq => hnewest (heq ▸ hborn)
    have hledger := h.unborn i hborn
    rw [hheld, if_neg (by simp [Ne.symm hne])] at hledger
    simp [write, Function.update_of_ne hne, hledger]
  · have hborn : (m.life.thread i).pc ≠ .unborn := fun hborn => hi ((hsteady i).1.mpr hborn)
    obtain ⟨done, hrun, haccount⟩ := h.born i hborn
    refine ⟨done, hrun, ?_⟩
    unfold StackAccount at haccount ⊢
    rw [if_neg (by simp)]
    by_cases hi : i = m.life.newest
    · subst hi
      rw [if_pos hheld] at haccount
      refine ⟨done, [], by simp, ?_⟩
      simp [write, haccount]
    · rw [if_neg (by simp [hheld, Ne.symm hi])] at haccount
      simp only [write, Function.update_of_ne hi]
      exact haccount
  · rcases (hsteady i).2 hi with hbefore | hexit
    · exact h.through i hbefore
    · cases hexit

theorem Kept.next {x : MemoryLabel} (h : Kept T b m) (hs : memoryStep T b m x = some n) :
    Kept T b n := by
  cases x with
  | enter i =>
      simp only [memoryStep, Option.ite_none_right_eq_some] at hs
      obtain ⟨halive, hs⟩ := hs
      split at hs
      · rename_i x rest htodo
        cases hs
        exact h.entered halive htodo
      · cases hs
  | life l e =>
      simp only [memoryStep, Option.ite_none_right_eq_some] at hs
      obtain ⟨hallows, hs⟩ := hs
      obtain ⟨t, ht, rfl⟩ := Option.map_eq_some_iff.mp hs
      have he := effect_lifeStep h.ordered ht
      cases l with
      | proceed =>
          obtain ⟨⟨c, pc⟩, hcall, hproceed⟩ := Option.bind_eq_some_iff.mp ht
          have haccount : m.account T b e .proceed = m.proceed T b e pc := by
            rw [account, hcall]
            rfl
          rw [haccount]
          cases pc with
          | alloc => exact h.allocated hcall he
          | create =>
              cases hproceed
              exact h.created hcall he rfl
          | free result =>
              obtain ⟨hheld, hkept⟩ := h.freed hcall he
              rw [proceed, hheld]
              exact hkept
          | _ =>
              refine h.steady he (ne_proceed_of_call hcall (by simp)) ?_ hallows
              rw [Lifecycle.stackAfter, hcall]
      | allocFails =>
          simp only [lifeStep] at ht
          split at ht
          · rename_i c hcall
            have hnone : m.life.stack = none := stack_of_call hcall
            have hsame : m.account T b e .allocFails = m := by
              rw [account, ← h.stack.trans hnone]
            rw [hsame]
            exact h.steady he (fun _ _ => LifeLabel.noConfusion) hnone.symm hallows
          · cases ht
      | _ => exact h.steady he (fun _ _ => LifeLabel.noConfusion) rfl hallows

theorem Kept.balanced (h : Kept T b m) (hcall : m.life.call = none)
    (hloaded : m.life.loaded = false) {i : Nat} (hquiet : (m.life.thread i).pc.alive = false) :
    Balanced (m.ledger i) := by
  have hnone : m.runtimeStack = none := by
    rw [h.stack, stack_of_idle hcall]
    simp [hloaded]
  by_cases hunborn : (m.life.thread i).pc = .unborn
  · have hledger := h.unborn i hunborn
    rw [hnone, if_neg (by simp)] at hledger
    rw [hledger]
    exact tidy_nil.balanced
  · have hexited : (m.life.thread i).pc = .exited := by
      generalize (m.life.thread i).pc = pc at hquiet hunborn
      cases pc <;> simp_all [ThreadPc.alive]
    obtain ⟨done, hrun, haccount⟩ := h.born i hunborn
    have hdone := hrun [] (h.through i hexited)
    rw [List.append_nil] at hdone
    obtain ⟨as, hstack, htidy⟩ := tidy_run hdone
    unfold StackAccount at haccount
    rw [if_neg (by simp [hnone])] at haccount
    obtain ⟨pre, mid, rfl, hledger⟩ := haccount
    rw [hledger]
    exact (htidy.around pre mid hstack rfl).balanced

end Memory

/-- **The memory of a session balances**: when no call is under way and
nothing is loaded, and the BLE thread of a load has exited or there was none,
everything the load has allocated was released once, and what the attribute
server borrowed not before it was gone. -/
theorem session_memory_balances (T : Trouble) (b : Build) (s : Memory)
    (hs : (memory T b).Reachable s) (hcall : s.life.call = none)
    (hloaded : s.life.loaded = false) (i : Nat)
    (hquiet : (s.life.thread i).pc.alive = false) : Balanced (s.ledger i) := by
  have hkept : Memory.Kept T b s := by
    refine Machine.Reach.invariant ?_ (fun _ _ _ h _ hstep => h.next hstep) hs
    rintro _ rfl
    exact Memory.kept_init
  exact hkept.balanced hcall hloaded hquiet

/-- A load with a configured appearance, and its unload. -/
def loadAndUnload : List MemoryLabel :=
  [.life (.load .app) {}, .life .proceed {}, .life .proceed {}, .life .proceed {},
    .life .proceed { cfg := some { appearance := 0x0341 } },
    .life (.thread 1 .start) {}, .life (.thread 1 .pend) {}, .enter 1, .enter 1, .enter 1,
    .enter 1, .life (.thread 1 (.publish runtimeBleOk)) {}, .life (.thread 1 .give) {},
    .life .proceed {}, .enter 1, .enter 1, .enter 1, .enter 1, .life (.unload .app) {},
    .life .proceed {}, .life (.thread 1 .seeUnload) {}, .enter 1, .enter 1, .enter 1, .enter 1,
    .enter 1, .enter 1, .enter 1, .enter 1, .life (.thread 1 .exit) {}, .life .proceed {},
    .life .proceed {}, .life .proceed {}]

theorem session_memory_balances_nus : ∃ s, (memory trouble {}).Reachable s ∧
    (s.ledger 1).length = 18 ∧ Balanced (s.ledger 1) := by
  obtain ⟨s, hs, hend⟩ := Machine.exists_reachable_of_exec (M := memory trouble {}) loadAndUnload
    (q := fun s => s.life.call = none ∧ s.life.loaded = false ∧
      (s.life.thread 1).pc.alive = false ∧ (s.ledger 1).length = 18) rfl (by decide)
  obtain ⟨hcall, hloaded, hquiet, hlength⟩ := of_decide_eq_true hend
  exact ⟨s, hs, hlength, session_memory_balances trouble {} s hs hcall hloaded 1 hquiet⟩

end RuntimeBle.Session
