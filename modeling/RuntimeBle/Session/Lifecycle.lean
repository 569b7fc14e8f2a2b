import Mathlib.Logic.Function.Basic
import RuntimeBle.Config
import RuntimeBle.Lib.Machine

/-!
# Session — Lifecycle

`runtime_ble_load` and `runtime_ble_unload` against the BLE thread they
create, signal, join and free the stack of.

Calls are made one at a time, by the application or by a callback on a BLE
thread, which stands still meanwhile. `runtime_thread` and `runtime_stack`
stand for the thread created last. The wake-up of the parked thread is left
out: the thread polls `UNLOAD_REQ` by timers too, and when it does is open
here anyway.
-/

namespace RuntimeBle.Session

open RuntimeBle.Lib

/-! ## The BLE thread -/

/-- Where a BLE thread is: before and after the store to `UNLOAD_REQ`, the
two of `LOAD_STATUS` and the give of the semaphore. -/
inductive ThreadPc where
  | unborn
  | created
  | begun
  | bringUp
  | published (status : Int)
  | serving
  | leaving
  | exited
deriving DecidableEq

namespace ThreadPc

/-- The thread has been created and has not returned. -/
def alive : ThreadPc → Bool
  | unborn | exited => false
  | _ => true

/-- The thread has yet to look at `UNLOAD_REQ`. -/
def unaware : ThreadPc → Bool
  | unborn | leaving | exited => false
  | _ => true

/-- The thread is past the give of the semaphore. -/
def gave : ThreadPc → Bool
  | serving | leaving | exited => true
  | _ => false

/-- Log lines and events. -/
def callsBack : ThreadPc → Bool
  | bringUp | serving | leaving => true
  | _ => false

end ThreadPc

/-- `signalled`: an unload signal was given since the thread was created. -/
structure Thread where
  pc : ThreadPc := .unborn
  signalled : Bool := false
  stackFreed : Bool := false

/-! ## The calls -/

/-- Where a call is made: in an application thread, or in a callback of a
session. -/
inductive Context where
  | app
  | callback (i : Nat)
deriving DecidableEq

/-- Where a call is. What follows the signal is alike in the failure branch
of a load, with the status it is to return, and in an unload (`none`). -/
inductive CallPc where
  | alloc
  | reset
  | irqsOn
  | create
  | wait
  | signal (result : Option Int)
  | join (result : Option Int)
  | irqsOff (result : Option Int)
  | free (result : Option Int)
deriving DecidableEq

/-- The threads by number, the newest of them, the call under way, and the
statics. `lost` tells that a signal was erased before a thread had seen it,
`returned` what the last load returned. -/
structure Lifecycle where
  thread : Nat → Thread := fun _ => {}
  newest : Nat := 0
  call : Option (Context × CallPc) := none
  loaded : Bool := false
  irqs : Bool := false
  unloadReq : Bool := false
  loadSem : Bool := false
  status : Int := runtimeBleLoadPending
  lost : Bool := false
  returned : Option Int := none

/-- One step of a BLE thread. -/
inductive Move where
  | start
  | pend
  | publish (status : Int)
  | give
  | seeUnload
  | serveEnds
  | exit

/-- The calls of the application and what becomes of them, and the moves of the
BLE threads. -/
inductive LifeLabel where
  | load (c : Context)
  | unload (c : Context)
  | proceed
  | allocFails
  | timeout
  | thread (i : Nat) (m : Move)

namespace Lifecycle

/-- A thread moves on. -/
def setPc (s : Lifecycle) (i : Nat) (pc : ThreadPc) : Lifecycle :=
  { s with thread := Function.update s.thread i { s.thread i with pc } }

/-- A store of `false` to `UNLOAD_REQ` now erases a signal. -/
def erases (s : Lifecycle) : Bool :=
  (List.range (s.newest + 1)).any fun i => (s.thread i).signalled && (s.thread i).pc.unaware

/-- `runtime_entry` and what it runs. A session may also end by itself. -/
def moveThread (s : Lifecycle) (i : Nat) (m : Move) : Option Lifecycle :=
  match (s.thread i).pc, m with
  | .created, .start =>
      some { s.setPc i .begun with unloadReq := false, lost := s.lost || s.erases }
  | .begun, .pend => some { s.setPc i .bringUp with status := runtimeBleLoadPending }
  | .bringUp, .publish status => some { s.setPc i (.published status) with status }
  | .published status, .give =>
      some { s.setPc i (if status = runtimeBleOk then .serving else .leaving) with loadSem := true }
  | .serving, .seeUnload => if s.unloadReq then some (s.setPc i .leaving) else none
  | .serving, .serveEnds => some (s.setPc i .leaving)
  | .leaving, .exit => some (s.setPc i .exited)
  | _, _ => none

/-- A call can be made from there. -/
def possible (s : Lifecycle) : Context → Bool
  | .app => true
  | .callback i => (s.thread i).pc.callsBack

/-- The step a call takes next, unless it has to wait. -/
def proceed (s : Lifecycle) (c : Context) : CallPc → Option Lifecycle
  | .alloc => some { s with call := some (c, .reset) }
  | .reset => some { s with call := some (c, .irqsOn), loadSem := false }
  | .irqsOn => some { s with call := some (c, .create), irqs := true }
  | .create =>
      some { s with
        call := some (c, .wait)
        newest := s.newest + 1
        thread := Function.update s.thread (s.newest + 1) { pc := .created } }
  | .wait =>
      if s.loadSem then
        if s.status = runtimeBleOk then
          some { s with
            call := none, loadSem := false, loaded := true, returned := some runtimeBleOk }
        else some { s with call := some (c, .signal (some s.status)), loadSem := false }
      else none
  | .signal result =>
      some { s with
        call := some (c, .join result)
        unloadReq := true
        thread := fun i => { s.thread i with
          signalled := (s.thread i).signalled || (s.thread i).pc.alive } }
  | .join result =>
      -- a thread that joins itself is told so at once
      if c ≠ .app ∨ (s.thread s.newest).pc = .exited then
        some { s with call := some (c, .irqsOff result) }
      else none
  | .irqsOff result => some { s with call := some (c, .free result), irqs := false }
  | .free result =>
      some { s with
        call := none
        thread := Function.update s.thread s.newest { s.thread s.newest with stackFreed := true }
        loaded := s.loaded && result.isSome
        returned := result }

/-- The 3000 ms of the bring-up wait or the 1000 ms of the join are over. -/
def timeOut (s : Lifecycle) : Option Lifecycle :=
  match s.call with
  | some (c, .wait) =>
      if s.loadSem then none
      else some { s with call := some (c, .signal (some runtimeBleErrTimeout)) }
  | some (c, .join (some status)) =>
      if (s.thread s.newest).pc = .exited then none
      else some { s with call := some (c, .irqsOff (some status)) }
  | _ => none

end Lifecycle

/-- One step of `runtime_ble_load` or `runtime_ble_unload`, or of a thread. -/
def lifeStep (s : Lifecycle) : LifeLabel → Option Lifecycle
  | .load c =>
      if s.call.isNone && s.possible c then
        if s.loaded then some { s with returned := some runtimeBleOk }
        else some { s with call := some (c, .alloc), returned := none }
      else none
  | .unload c =>
      if s.call.isNone && s.possible c then
        if s.loaded then some { s with call := some (c, .signal none), returned := none }
        else some { s with returned := none }
      else none
  | .proceed => s.call.bind fun call => s.proceed call.1 call.2
  | .allocFails =>
      match s.call with
      | some (_, .alloc) => some { s with call := none, returned := some runtimeBleErrNoMem }
      | _ => none
  | .timeout => s.timeOut
  | .thread i m =>
      if s.call.any fun call => call.1 = .callback i then none else s.moveThread i m

/-- The machine from boot on. -/
def lifecycle : Machine Lifecycle LifeLabel where
  init s := s = {}
  step := lifeStep

/-! ## Safety -/

/-- No BLE thread is alive. -/
def Lifecycle.Quiet (s : Lifecycle) : Prop := ∀ i, (s.thread i).pc.alive = false

/-- What must hold of threads, stacks and interrupts in every state. -/
structure Safe (s : Lifecycle) : Prop where
  freed : ∀ i, (s.thread i).stackFreed = true → (s.thread i).pc = .exited
  irqs : s.irqs = false → s.Quiet
  one : ∀ i j, (s.thread i).pc.alive = true → (s.thread j).pc.alive = true → i = j
  kept : s.lost = false
  failed : ∀ status, s.returned = some status → status ≠ runtimeBleOk → s.Quiet

/-- No callback unloads the session it belongs to, the new thread has begun
before the bring-up wait is over, and a bounded join sees it terminate. -/
def timely (s : Lifecycle) : LifeLabel → Bool
  | .unload (.callback _) => !s.loaded
  | .timeout =>
      match s.call with
      | some (_, .wait) => (s.thread s.newest).pc ≠ .created
      | some (_, .join _) => false
      | _ => true
  | _ => true

/-! ## The invariant -/

/-- What holds of the newest thread, and of the statics, at each point of a
call. -/
def Lifecycle.Phase (s : Lifecycle) : Prop :=
  match s.call with
  | none =>
      if s.loaded then
        s.irqs = true ∧ (s.thread s.newest).pc ≠ .unborn ∧ (s.thread s.newest).pc ≠ .created
      else s.Quiet
  | some (c, .alloc) | some (c, .reset) => c = .app ∧ s.loaded = false ∧ s.Quiet
  | some (c, .irqsOn) => c = .app ∧ s.loaded = false ∧ s.Quiet ∧ s.loadSem = false
  | some (c, .create) =>
      c = .app ∧ s.loaded = false ∧ s.Quiet ∧ s.loadSem = false ∧ s.irqs = true
  | some (c, .wait) =>
      c = .app ∧ s.loaded = false ∧ s.irqs = true ∧ (s.thread s.newest).pc ≠ .unborn ∧
        (s.thread s.newest).signalled = false ∧
        (s.loadSem = true → (s.thread s.newest).pc.gave = true)
  | some (c, .signal result) | some (c, .join result) =>
      c = .app ∧ (result = none ∨ s.loaded = false) ∧ s.irqs = true ∧
        (s.thread s.newest).pc ≠ .unborn ∧ (s.thread s.newest).pc ≠ .created
  | some (c, .irqsOff result) | some (c, .free result) =>
      c = .app ∧ (result = none ∨ s.loaded = false) ∧ (s.thread s.newest).pc = .exited

/-- The invariant: the newest thread is the only one that can live, and stands
where the call under way needs it. -/
structure Sound (s : Lifecycle) : Prop where
  one : ∀ i, (s.thread i).pc.alive = true → i = s.newest
  freed : ∀ i, (s.thread i).stackFreed = true → (s.thread i).pc = .exited
  kept : s.lost = false
  phase : s.Phase
  failed : ∀ status, s.returned = some status → status ≠ runtimeBleOk →
    s.call = none ∧ s.loaded = false

variable {s t : Lifecycle}

theorem quiet_of_exited (hone : ∀ i, (s.thread i).pc.alive = true → i = s.newest)
    (h : (s.thread s.newest).pc = .exited) : s.Quiet := by
  intro i
  by_contra halive
  rw [Bool.not_eq_false] at halive
  rw [hone i halive, h] at halive
  cases halive

theorem Sound.safe (h : Sound s) : Safe s where
  freed := h.freed
  irqs hirqs := by
    have hphase := h.phase
    unfold Lifecycle.Phase at hphase
    split at hphase
    · split at hphase
      · simp [hirqs] at hphase
      · exact hphase
    · exact hphase.2.2
    · exact hphase.2.2
    · exact hphase.2.2.1
    · simp [hirqs] at hphase
    · simp [hirqs] at hphase
    · simp [hirqs] at hphase
    · simp [hirqs] at hphase
    · exact quiet_of_exited h.one hphase.2.2
    · exact quiet_of_exited h.one hphase.2.2
  one i j hi hj := (h.one i hi).trans (h.one j hj).symm
  kept := h.kept
  failed status hreturned hstatus := by
    obtain ⟨hcall, hloaded⟩ := h.failed status hreturned hstatus
    simpa [Lifecycle.Phase, hcall, hloaded] using h.phase

theorem sound_init : Sound {} where
  one i h := by cases h
  freed i h := by cases h
  kept := rfl
  phase := fun _ => rfl
  failed status h := by cases h

/-! ## Steps of the thread -/

/-- What a step of thread `i` may change. -/
structure Moves (s t : Lifecycle) (i : Nat) : Prop where
  alive : (s.thread i).pc.alive = true
  moved : ∃ pc, t.thread = Function.update s.thread i { s.thread i with pc } ∧
    pc ≠ .unborn ∧ pc ≠ .created ∧ ((s.thread i).pc.gave = true → pc.gave = true) ∧
    (t.loadSem = true → s.loadSem = true ∨ pc.gave = true)
  lost : t.lost = s.lost ∨ (s.thread i).pc = .created ∧ t.lost = (s.lost || s.erases)
  newest : t.newest = s.newest
  call : t.call = s.call
  loaded : t.loaded = s.loaded
  irqs : t.irqs = s.irqs
  returned : t.returned = s.returned

/-- A thread that gets to `pc` may have written the statics on the way. -/
theorem moves_to {i : Nat} {pc : ThreadPc} {unloadReq loadSem lost : Bool} {status : Int}
    (halive : (s.thread i).pc.alive = true) (hborn : pc ≠ .unborn) (hcreated : pc ≠ .created)
    (hgave : (s.thread i).pc.gave = true → pc.gave = true)
    (hsem : loadSem = true → s.loadSem = true ∨ pc.gave = true)
    (hlost : lost = s.lost ∨ (s.thread i).pc = .created ∧ lost = (s.lost || s.erases)) :
    Moves s { s.setPc i pc with unloadReq, loadSem, status, lost } i where
  alive := halive
  moved := ⟨pc, rfl, hborn, hcreated, hgave, hsem⟩
  lost := hlost
  newest := rfl
  call := rfl
  loaded := rfl
  irqs := rfl
  returned := rfl

theorem moves_of_moveThread {i : Nat} {m : Move} (h : s.moveThread i m = some t) :
    Moves s t i := by
  unfold Lifecycle.moveThread at h
  split at h
  case h_1 hpc =>
      cases h
      exact moves_to (by simp [hpc, ThreadPc.alive]) (by simp) (by simp)
        (by simp [hpc, ThreadPc.gave]) .inl (.inr ⟨hpc, rfl⟩)
  case h_2 hpc | h_3 hpc =>
      cases h
      exact moves_to (by simp [hpc, ThreadPc.alive]) (by simp) (by simp)
        (by simp [hpc, ThreadPc.gave]) .inl (.inl rfl)
  case h_4 status hpc =>
      cases h
      have hgave : (if status = runtimeBleOk then ThreadPc.serving else .leaving).gave = true := by
        split <;> rfl
      refine moves_to (by simp [hpc, ThreadPc.alive]) ?_ ?_ (fun _ => hgave) (fun _ => .inr hgave)
        (.inl rfl)
      · split <;> simp
      · split <;> simp
  case h_5 hpc =>
      split at h
      · cases h
        exact moves_to (by simp [hpc, ThreadPc.alive]) (by simp) (by simp)
          (by simp [ThreadPc.gave]) .inl (.inl rfl)
      · cases h
  case h_6 hpc | h_7 hpc =>
      cases h
      exact moves_to (by simp [hpc, ThreadPc.alive]) (by simp) (by simp)
        (by simp [ThreadPc.gave]) .inl (.inl rfl)
  case h_8 => cases h

theorem alive_of_unaware {pc : ThreadPc} (h : pc.unaware = true) : pc.alive = true := by
  cases pc <;> first | rfl | cases h

/-- The newest thread is alive in a loaded session, in the wait of the load
that has created it, and up to its join. -/
theorem Sound.phase_of_alive (h : Sound s) (halive : (s.thread s.newest).pc.alive = true) :
    (s.call = none ∧ s.loaded = true ∧ s.irqs = true ∧ (s.thread s.newest).pc ≠ .created)
    ∨ (∃ c, s.call = some (c, .wait) ∧ c = .app ∧ s.loaded = false ∧ s.irqs = true ∧
        (s.thread s.newest).signalled = false ∧
        (s.loadSem = true → (s.thread s.newest).pc.gave = true))
    ∨ ∃ c result, (s.call = some (c, .signal result) ∨ s.call = some (c, .join result)) ∧
        c = .app ∧ (result = none ∨ s.loaded = false) ∧ s.irqs = true ∧
        (s.thread s.newest).pc ≠ .created := by
  have hphase := h.phase
  have hquiet : ¬ s.Quiet := fun hq => by simpa [halive] using hq s.newest
  unfold Lifecycle.Phase at hphase
  split at hphase
  · rename_i hcall
    split at hphase
    · rename_i hloaded
      exact .inl ⟨hcall, hloaded, hphase.1, hphase.2.2⟩
    · exact absurd hphase hquiet
  · exact absurd hphase.2.2 hquiet
  · exact absurd hphase.2.2 hquiet
  · exact absurd hphase.2.2.1 hquiet
  · exact absurd hphase.2.2.1 hquiet
  · rename_i c hcall
    obtain ⟨hc, hloaded, hirqs, -, hsignalled, hgave⟩ := hphase
    exact .inr (.inl ⟨c, hcall, hc, hloaded, hirqs, hsignalled, hgave⟩)
  · rename_i c result hcall
    obtain ⟨hc, hresult, hirqs, -, hbegun⟩ := hphase
    exact .inr (.inr ⟨c, result, .inl hcall, hc, hresult, hirqs, hbegun⟩)
  · rename_i c result hcall
    obtain ⟨hc, hresult, hirqs, -, hbegun⟩ := hphase
    exact .inr (.inr ⟨c, result, .inr hcall, hc, hresult, hirqs, hbegun⟩)
  · rw [hphase.2.2] at halive
    cases halive
  · rw [hphase.2.2] at halive
    cases halive

/-- A thread that is about to clear `UNLOAD_REQ` has not been signalled. -/
theorem Sound.erases_eq_false (h : Sound s) (hpc : (s.thread s.newest).pc = .created) :
    s.erases = false := by
  have hsignalled : (s.thread s.newest).signalled = false := by
    rcases h.phase_of_alive (by rw [hpc]; rfl) with hloaded | hwait | hending
    · exact absurd hpc hloaded.2.2.2
    · obtain ⟨c, -, -, -, -, hsignalled, -⟩ := hwait
      exact hsignalled
    · obtain ⟨c, result, -, -, -, -, hbegun⟩ := hending
      exact absurd hpc hbegun
  rw [Lifecycle.erases, List.any_eq_false]
  intro i _ hi
  rw [Bool.and_eq_true] at hi
  rw [h.one i (alive_of_unaware hi.2), hsignalled] at hi
  cases hi.1

theorem Sound.moved (h : Sound s) {i : Nat} (hm : Moves s t i) : Sound t := by
  -- only the newest thread moves
  obtain rfl : i = s.newest := h.one i hm.alive
  obtain ⟨pc, hthread, hborn, hcreated, hgave, hsem⟩ := hm.moved
  have hself : t.thread t.newest = { s.thread s.newest with pc } := by
    rw [hthread, hm.newest, Function.update_self]
  constructor
  · intro j hj
    by_cases hji : j = s.newest
    · rw [hji, hm.newest]
    · rw [hthread, Function.update_of_ne hji] at hj
      exact absurd (h.one j hj) hji
  · intro j hj
    by_cases hji : j = s.newest
    · subst hji
      rw [hthread, Function.update_self] at hj
      have halive := hm.alive
      rw [h.freed _ hj] at halive
      cases halive
    · rw [hthread, Function.update_of_ne hji] at hj ⊢
      exact h.freed j hj
  · -- a thread that is about to clear `UNLOAD_REQ` has not been signalled
    rcases hm.lost with hlost | ⟨hpc, hlost⟩
    · rw [hlost, h.kept]
    · rw [hlost, h.kept, h.erases_eq_false hpc]
      rfl
  · unfold Lifecycle.Phase
    rw [hm.call, hm.loaded, hm.irqs, hself]
    rcases h.phase_of_alive hm.alive with hloaded | hwait | hending
    · obtain ⟨hcall, hloaded, hirqs, -⟩ := hloaded
      rw [hcall, hloaded]
      exact ⟨hirqs, hborn, hcreated⟩
    · obtain ⟨c, hcall, hc, hloaded, hirqs, hsignalled, hgiven⟩ := hwait
      rw [hcall]
      refine ⟨hc, hloaded, hirqs, hborn, hsignalled, fun hload => ?_⟩
      rcases hsem hload with hold | hnew
      · exact hgave (hgiven hold)
      · exact hnew
    · obtain ⟨c, result, hcall, hc, hresult, hirqs, -⟩ := hending
      rcases hcall with hcall | hcall
      · rw [hcall]
        exact ⟨hc, hresult, hirqs, hborn, hcreated⟩
      · rw [hcall]
        exact ⟨hc, hresult, hirqs, hborn, hcreated⟩
  · intro status hreturned hstatus
    rw [hm.returned] at hreturned
    rw [hm.call, hm.loaded]
    exact h.failed status hreturned hstatus

/-! ## Steps of a call -/

/-- A step that leaves the threads alone. -/
theorem Sound.advance (h : Sound s) (hthread : t.thread = s.thread) (hnewest : t.newest = s.newest)
    (hlost : t.lost = s.lost) (hphase : t.Phase)
    (hfailed : ∀ status, t.returned = some status → status ≠ runtimeBleOk →
      t.call = none ∧ t.loaded = false) : Sound t where
  one i hi := by
    rw [hthread] at hi
    rw [hnewest]
    exact h.one i hi
  freed i hi := by
    rw [hthread] at hi ⊢
    exact h.freed i hi
  kept := hlost.trans h.kept
  phase := hphase
  failed := hfailed

/-- While a call is under way no failed load has just returned. -/
theorem Sound.not_failed (h : Sound s) {call : Context × CallPc} (hcall : s.call = some call)
    {status : Int} (hreturned : s.returned = some status) : status = runtimeBleOk := by
  by_contra hstatus
  have hnone := (h.failed status hreturned hstatus).1
  rw [hcall] at hnone
  cases hnone

/-- A step of a call that leaves the threads alone and returns nothing. -/
theorem Sound.goOn (h : Sound s) {call : Context × CallPc} (hcall : s.call = some call)
    (hthread : t.thread = s.thread) (hnewest : t.newest = s.newest) (hlost : t.lost = s.lost)
    (hreturned : t.returned = s.returned) (hphase : t.Phase) : Sound t := by
  refine h.advance hthread hnewest hlost hphase fun status hr hstatus => ?_
  rw [hreturned] at hr
  exact absurd (h.not_failed hcall hr) hstatus

theorem Sound.created (h : Sound s) {c : Context} (hcall : s.call = some (c, .create))
    (hs : s.proceed c .create = some t) : Sound t := by
  have hphase := h.phase
  simp only [Lifecycle.Phase, hcall] at hphase
  obtain ⟨hc, hloaded, hquiet, hsem, hirqs⟩ := hphase
  cases hs
  constructor
  · intro i (hi : (Function.update s.thread (s.newest + 1) { pc := .created } i).pc.alive = true)
    show i = s.newest + 1
    by_contra hne
    rw [Function.update_of_ne hne, hquiet i] at hi
    cases hi
  · intro i (hi : (Function.update s.thread (s.newest + 1) { pc := .created } i).stackFreed = true)
    show (Function.update s.thread (s.newest + 1) { pc := .created } i).pc = .exited
    by_cases hnew : i = s.newest + 1
    · subst hnew
      simp at hi
    · rw [Function.update_of_ne hnew] at hi ⊢
      exact h.freed i hi
  · exact h.kept
  · simp [Lifecycle.Phase, hc, hloaded, hirqs, hsem]
  · intro status hreturned hstatus
    exact absurd (h.not_failed hcall hreturned) hstatus

theorem Sound.signalled (h : Sound s) {c : Context} {result : Option Int}
    (hcall : s.call = some (c, .signal result)) (hs : s.proceed c (.signal result) = some t) :
    Sound t := by
  have hphase := h.phase
  simp only [Lifecycle.Phase, hcall] at hphase
  cases hs
  constructor
  · exact h.one
  · exact h.freed
  · exact h.kept
  · exact hphase
  · intro status hreturned hstatus
    exact absurd (h.not_failed hcall hreturned) hstatus

theorem Sound.stackFreed (h : Sound s) {c : Context} {result : Option Int}
    (hcall : s.call = some (c, .free result)) (hs : s.proceed c (.free result) = some t) :
    Sound t := by
  have hphase := h.phase
  simp only [Lifecycle.Phase, hcall] at hphase
  obtain ⟨-, hresult, hexited⟩ := hphase
  have hpc : ∀ i, (t.thread i).pc = (s.thread i).pc := by
    cases hs
    intro i
    show (Function.update s.thread s.newest _ i).pc = _
    by_cases hi : i = s.newest
    · rw [hi, Function.update_self]
    · rw [Function.update_of_ne hi]
  have hloaded : t.loaded = false := by
    cases hs
    rcases hresult with rfl | hloaded
    · simp
    · simp [hloaded]
  have hquiet : t.Quiet := fun i => by
    rw [hpc i]
    exact quiet_of_exited h.one hexited i
  constructor
  · intro i hi
    rw [hquiet i] at hi
    cases hi
  · intro i hi
    rw [hpc i]
    cases hs
    by_cases hnew : i = s.newest
    · rw [hnew, hexited]
    · have hold : (Function.update s.thread s.newest _ i).stackFreed = true := hi
      rw [Function.update_of_ne hnew] at hold
      exact h.freed i hold
  · cases hs
    exact h.kept
  · have hdone : t.call = none := by
      cases hs
      rfl
    simpa [Lifecycle.Phase, hdone, hloaded] using hquiet
  · intro status _ _
    cases hs
    exact ⟨rfl, hloaded⟩

theorem Sound.waited (h : Sound s) {c : Context} (hcall : s.call = some (c, .wait))
    (hs : s.proceed c .wait = some t) : Sound t := by
  have hphase := h.phase
  simp only [Lifecycle.Phase, hcall] at hphase
  obtain ⟨hc, hloaded, hirqs, hborn, -, hgave⟩ := hphase
  simp only [Lifecycle.proceed] at hs
  split at hs
  · rename_i hsem
    have hbegun : (s.thread s.newest).pc ≠ .created := by
      intro hcreated
      have hpc := hgave hsem
      rw [hcreated] at hpc
      cases hpc
    split at hs
    · cases hs
      refine h.advance rfl rfl rfl ⟨hirqs, hborn, hbegun⟩ fun status hreturned hstatus => ?_
      cases hreturned
      exact absurd rfl hstatus
    · cases hs
      exact h.goOn hcall rfl rfl rfl rfl ⟨hc, .inr hloaded, hirqs, hborn, hbegun⟩
  · cases hs

theorem Sound.proceeded (h : Sound s) {c : Context} {pc : CallPc} (hcall : s.call = some (c, pc))
    (hs : s.proceed c pc = some t) : Sound t := by
  have hphase := h.phase
  cases pc with
  | create => exact h.created hcall hs
  | wait => exact h.waited hcall hs
  | signal result => exact h.signalled hcall hs
  | free result => exact h.stackFreed hcall hs
  | alloc =>
      simp only [Lifecycle.Phase, hcall] at hphase
      cases hs
      exact h.goOn hcall rfl rfl rfl rfl hphase
  | reset =>
      simp only [Lifecycle.Phase, hcall] at hphase
      cases hs
      exact h.goOn hcall rfl rfl rfl rfl ⟨hphase.1, hphase.2.1, hphase.2.2, rfl⟩
  | irqsOn =>
      simp only [Lifecycle.Phase, hcall] at hphase
      cases hs
      exact h.goOn hcall rfl rfl rfl rfl ⟨hphase.1, hphase.2.1, hphase.2.2.1, hphase.2.2.2, rfl⟩
  | join result =>
      simp only [Lifecycle.Phase, hcall] at hphase
      simp only [Lifecycle.proceed] at hs
      split at hs
      · rename_i hjoined
        cases hs
        have hexited := hjoined.resolve_left fun hne => hne hphase.1
        exact h.goOn hcall rfl rfl rfl rfl ⟨hphase.1, hphase.2.1, hexited⟩
      · cases hs
  | irqsOff result =>
      simp only [Lifecycle.Phase, hcall] at hphase
      cases hs
      exact h.goOn hcall rfl rfl rfl rfl hphase

theorem Sound.timedOut (h : Sound s) (hok : timely s .timeout = true)
    (hs : s.timeOut = some t) : Sound t := by
  have hphase := h.phase
  simp only [Lifecycle.timeOut] at hs
  split at hs
  · rename_i c hcall
    simp only [Lifecycle.Phase, hcall] at hphase
    simp only [timely, hcall, ne_eq, decide_eq_true_eq] at hok
    obtain ⟨hc, hloaded, hirqs, hborn, -, -⟩ := hphase
    split at hs
    · cases hs
    · cases hs
      exact h.goOn hcall rfl rfl rfl rfl ⟨hc, .inr hloaded, hirqs, hborn, hok⟩
  · rename_i c status hcall
    simp [timely, hcall] at hok
  · cases hs

/-- A callback comes from a live thread, so from a loaded session. -/
theorem Sound.context (h : Sound s) {c : Context} (hcall : s.call = none)
    (hc : s.possible c = true) : c = .app ∨ s.loaded = true := by
  cases c with
  | app => exact .inl rfl
  | callback i =>
      right
      by_contra hloaded
      have hquiet : s.Quiet := by simpa [Lifecycle.Phase, hcall, hloaded] using h.phase
      have hdead := hquiet i
      simp only [Lifecycle.possible] at hc
      revert hc hdead
      cases (s.thread i).pc <;> simp [ThreadPc.callsBack, ThreadPc.alive]

theorem Sound.loadCalled (h : Sound s) {c : Context} (hs : lifeStep s (.load c) = some t) :
    Sound t := by
  have hphase := h.phase
  simp only [lifeStep] at hs
  split at hs
  · rename_i hcond
    simp only [Bool.and_eq_true, Option.isNone_iff_eq_none] at hcond
    obtain ⟨hcall, hpossible⟩ := hcond
    split at hs
    · cases hs
      refine h.advance rfl rfl rfl hphase fun status hr hne => ?_
      cases hr
      exact absurd rfl hne
    · rename_i hloaded
      rw [Bool.not_eq_true] at hloaded
      cases hs
      have hc : c = .app := (h.context hcall hpossible).resolve_right (by simp [hloaded])
      simp only [Lifecycle.Phase, hcall, hloaded] at hphase
      exact h.advance rfl rfl rfl ⟨hc, hloaded, hphase⟩ fun status hr => by cases hr
  · cases hs

theorem Sound.unloadCalled (h : Sound s) {c : Context} (hok : timely s (.unload c) = true)
    (hs : lifeStep s (.unload c) = some t) : Sound t := by
  have hphase := h.phase
  simp only [lifeStep] at hs
  split at hs
  · rename_i hcond
    simp only [Bool.and_eq_true, Option.isNone_iff_eq_none] at hcond
    split at hs
    · rename_i hloaded
      cases hs
      have hc : c = .app := by
        cases c with
        | app => rfl
        | callback i => simp [timely, hloaded] at hok
      simp only [Lifecycle.Phase, hcond.1, hloaded, ↓reduceIte] at hphase
      exact h.advance rfl rfl rfl ⟨hc, .inl rfl, hphase.1, hphase.2.1, hphase.2.2⟩
        fun status hr => by cases hr
    · cases hs
      exact h.advance rfl rfl rfl hphase fun status hr => by cases hr
  · cases hs

theorem Sound.step {l : LifeLabel} (h : Sound s) (hok : timely s l = true)
    (hs : lifeStep s l = some t) : Sound t := by
  cases l with
  | load c => exact h.loadCalled hs
  | unload c => exact h.unloadCalled hok hs
  | proceed =>
      obtain ⟨⟨c, pc⟩, hcall, hs⟩ := Option.bind_eq_some_iff.mp hs
      exact h.proceeded hcall hs
  | allocFails =>
      have hphase := h.phase
      simp only [lifeStep] at hs
      split at hs
      · rename_i c hcall
        simp only [Lifecycle.Phase, hcall] at hphase
        cases hs
        refine h.advance rfl rfl rfl ?_ fun _ _ _ => ⟨rfl, hphase.2.1⟩
        simp only [Lifecycle.Phase, hphase.2.1]
        exact hphase.2.2
      · cases hs
  | timeout => exact h.timedOut hok hs
  | thread i m =>
      simp only [lifeStep] at hs
      split at hs
      · cases hs
      · exact h.moved (moves_of_moveThread hs)

/-! ## Runs -/

/-- **A session is safe throughout every run** in which no callback unloads
its own session, the new thread begins within the bring-up wait, and every
bounded join sees the thread terminate. -/
theorem lifecycle_safe (h : lifecycle.Reach (fun s l => timely s l = true) s) : Safe s := by
  have hsound : Sound s := by
    refine h.invariant ?_ fun _ _ _ hs hok hstep => hs.step hok hstep
    rintro _ rfl
    exact sound_init
  exact hsound.safe

/-- Bring-up takes longer than both waits: the load fails, and the stack of
the running thread is freed under it. -/
theorem load_frees_running_stack : ¬ ∀ s, lifecycle.Reachable s → Safe s := by
  intro hsafe
  obtain ⟨s, hs, htest⟩ := Machine.exists_reachable_of_exec (M := lifecycle)
    [.load .app, .proceed, .proceed, .proceed, .proceed, .thread 1 .start, .thread 1 .pend,
      .timeout, .proceed, .timeout, .proceed, .proceed]
    (q := fun s => (s.thread 1).stackFreed && decide ((s.thread 1).pc = .bringUp)) (s := {})
    rfl (by decide)
  rw [Bool.and_eq_true, decide_eq_true_eq] at htest
  have hexited := (hsafe s hs).freed 1 htest.1
  rw [htest.2] at hexited
  cases hexited

-- the bring-up wait is over before the thread has begun, which then erases the signal
example : (lifecycle.exec {}
    [.load .app, .proceed, .proceed, .proceed, .proceed, .timeout, .proceed,
      .thread 1 .start]).map Lifecycle.lost = some true := by decide

-- a callback unloads its session: the thread frees the stack it runs on
example : (lifecycle.exec {}
    [.load .app, .proceed, .proceed, .proceed, .proceed, .thread 1 .start, .thread 1 .pend,
      .thread 1 (.publish runtimeBleOk), .thread 1 .give, .proceed, .unload (.callback 1),
      .proceed, .proceed, .proceed, .proceed]).map
    (fun s => ((s.thread 1).stackFreed, (s.thread 1).pc)) = some (true, .serving) := by decide

/-- A session up and down, and a load that fails for lack of MPSL. -/
theorem lifecycle_safe_run :
    ∃ s, Safe s ∧ s.returned = some runtimeBleErrMpsl ∧ (s.thread 1).stackFreed = true ∧
      (s.thread 2).stackFreed = true := by
  obtain ⟨s, hs, htest⟩ := Machine.exists_reach_of_execWhile (M := lifecycle) (p := timely)
    (fun _ _ h => h)
    [.load .app, .proceed, .proceed, .proceed, .proceed, .thread 1 .start, .thread 1 .pend,
      .thread 1 (.publish runtimeBleOk), .thread 1 .give, .proceed, .unload .app, .proceed,
      .thread 1 .seeUnload, .thread 1 .exit, .proceed, .proceed, .proceed,
      .load .app, .proceed, .proceed, .proceed, .proceed, .thread 2 .start, .thread 2 .pend,
      .thread 2 (.publish runtimeBleErrMpsl), .thread 2 .give, .proceed, .proceed,
      .thread 2 .exit, .proceed, .proceed, .proceed]
    (q := fun s => decide (s.returned = some runtimeBleErrMpsl ∧ (s.thread 1).stackFreed = true ∧
      (s.thread 2).stackFreed = true))
    (s := {}) rfl (by decide)
  exact ⟨s, lifecycle_safe hs, of_decide_eq_true htest⟩

end RuntimeBle.Session
