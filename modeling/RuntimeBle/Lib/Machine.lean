import Mathlib.Data.List.Basic

/-!
# Lib — Machine

Runs of a state machine, in three shapes.

* A TOTAL machine is a step function `σ → ι → σ`. `Always` says a
  predicate holds in every state of a run, `EachStep` that a condition
  is met at every step of it; `always_iff_eachStep` turns a one-step
  equivalence into an equivalence about whole runs.
* A PARTIAL machine (`Machine`) has steps that may be disabled. `Reach`
  collects the states of the runs whose steps all meet a side condition
  `ok`; with no condition these are the reachable states. `exec` replays
  a concrete schedule, which is how a bad reachable state is exhibited.
* An EVENT LOOP (`eventLoop`) handles events until one of them ends it.

Nothing here knows what the states are.
-/

namespace RuntimeBle.Lib

variable {σ τ ι κ : Type}

/-! ## Total machines -/

/-- `P` holds in every state of the run of `is` from `s`, the first and
the last included. -/
def Always (step : σ → ι → σ) (P : σ → Prop) : σ → List ι → Prop
  | s, [] => P s
  | s, i :: is => P s ∧ Always step P (step s i) is

/-- `ok` holds of every step of the run, at the state it is taken from. -/
def EachStep (step : σ → ι → σ) (ok : σ → ι → Prop) : σ → List ι → Prop
  | _, [] => True
  | s, i :: is => ok s i ∧ EachStep step ok (step s i) is

section Total

variable {step : σ → ι → σ} {P Q : σ → Prop} {ok ok' : σ → ι → Prop}

theorem Always.head {s : σ} {is : List ι} (h : Always step P s is) : P s := by
  cases is with
  | nil => exact h
  | cons i is => exact h.1

theorem Always.foldl {is : List ι} : ∀ {s : σ}, Always step P s is → P (is.foldl step s) := by
  induction is with
  | nil => intro s h; exact h
  | cons i is ih => intro s h; exact ih h.2

/-- **The invariant rule for runs**: what every step that meets `ok` keeps
holds throughout a run of such steps. -/
theorem EachStep.always (hkeep : ∀ s i, P s → ok s i → P (step s i)) :
    ∀ {is : List ι} {s : σ}, P s → EachStep step ok s is → Always step P s is := by
  intro is
  induction is with
  | nil => intro _ hs _; exact hs
  | cons i is ih =>
      intro s hs hok
      exact ⟨hs, ih (hkeep s i hs hok.1) hok.2⟩

theorem Always.mono (h : ∀ s, P s → Q s) :
    ∀ {is : List ι} {s : σ}, Always step P s is → Always step Q s is := by
  intro is
  induction is with
  | nil => intro _ hs; exact h _ hs
  | cons i is ih => intro s hs; exact ⟨h _ hs.1, ih hs.2⟩

/-- A step condition may be replaced by one that follows from it in the
states the run goes through. -/
theorem EachStep.mono (h : ∀ s i, P s → ok s i → ok' s i) :
    ∀ {is : List ι} {s : σ}, Always step P s is → EachStep step ok s is →
      EachStep step ok' s is := by
  intro is
  induction is with
  | nil => intro _ _ _; trivial
  | cons i is ih =>
      intro s hP hok
      exact ⟨h s i hP.1 hok.1, ih hP.2 hok.2⟩

theorem EachStep.imp (h : ∀ s i, ok s i → ok' s i) :
    ∀ {is : List ι} {s : σ}, EachStep step ok s is → EachStep step ok' s is := by
  intro is
  induction is with
  | nil => intro _ _; trivial
  | cons i is ih =>
      intro s hok
      exact ⟨h s i hok.1, ih hok.2⟩

theorem eachStep_append : ∀ {is js : List ι} {s : σ},
    EachStep step ok s (is ++ js)
      ↔ EachStep step ok s is ∧ EachStep step ok (is.foldl step s) js := by
  intro is
  induction is with
  | nil => intro js s; exact (and_iff_right trivial).symm
  | cons i is ih =>
      intro js s
      show ok s i ∧ EachStep step ok (step s i) (is ++ js) ↔ _
      rw [ih, ← and_assoc]
      rfl

/-- **From one step to a run.** Let `P` be an invariant of the steps that
meet `ok`, and `Q` a consequence of it that no other step keeps. Then `Q`
holds throughout a run from `P` exactly when all its steps meet `ok`. -/
theorem always_iff_eachStep (hPQ : ∀ s, P s → Q s)
    (hkeep : ∀ s i, P s → ok s i → P (step s i))
    (honly : ∀ s i, P s → Q (step s i) → ok s i) :
    ∀ (is : List ι) (s : σ), P s → (Always step Q s is ↔ EachStep step ok s is) := by
  intro is
  induction is with
  | nil => intro s hs; exact ⟨fun _ => trivial, fun _ => hPQ s hs⟩
  | cons i is ih =>
      intro s hs
      constructor
      · rintro ⟨-, htail⟩
        have hok : ok s i := honly s i hs htail.head
        exact ⟨hok, (ih _ (hkeep s i hs hok)).mp htail⟩
      · rintro ⟨hok, htail⟩
        exact ⟨hPQ s hs, (ih _ (hkeep s i hs hok)).mpr htail⟩

/-- What the steps of a run keep, the run keeps. -/
theorem foldl_keeps {is : List ι} (hkeep : ∀ s, ∀ i ∈ is, P s → P (step s i)) :
    ∀ {s : σ}, P s → P (is.foldl step s) := by
  induction is with
  | nil => intro s hs; exact hs
  | cons i is ih =>
      intro s hs
      exact ih (fun s j hj => hkeep s j (List.mem_cons_of_mem _ hj))
        (hkeep s i List.mem_cons_self hs)

/-- **The progress rule**: a tick brings the goal nearer and no other step
puts it off, so a run of more ticks than the goal is away comes by it. -/
theorem goal_of_ticks (goal : σ → Prop) (allowed : ι → Prop) (tick : ι → Bool) (due : σ → Nat)
    (hgoal : ∀ s i, goal s → goal (step s i))
    (hstep : ∀ s i, P s → allowed i → goal (step s i) ∨
      P (step s i) ∧ due (step s i) + (if tick i then 1 else 0) ≤ due s) :
    ∀ {is : List ι} {s : σ}, P s → (∀ i ∈ is, allowed i) → due s < is.countP tick →
      goal (is.foldl step s) := by
  intro is
  induction is with
  | nil => intro s _ _ hdue; exact absurd hdue (Nat.not_lt_zero _)
  | cons i is ih =>
      intro s hs hallowed hdue
      rcases hstep s i hs (hallowed i List.mem_cons_self) with hmet | ⟨hs', hnear⟩
      · show goal (is.foldl step (step s i))
        exact foldl_keeps (fun s j _ => hgoal s j) hmet
      · apply ih hs' fun j hj => hallowed j (List.mem_cons_of_mem _ hj)
        rw [List.countP_cons] at hdue
        omega

end Total

/-! ## Partial machines -/

/-- A machine whose steps may be disabled (`none`). -/
structure Machine (σ ι : Type) where
  init : σ → Prop
  step : σ → ι → Option σ

namespace Machine

variable {M : Machine σ ι} {ok ok' : σ → ι → Prop}

/-- The states reached by runs whose steps all meet `ok`. -/
inductive Reach (M : Machine σ ι) (ok : σ → ι → Prop) : σ → Prop
  | start {s : σ} (h : M.init s) : Reach M ok s
  | next {s t : σ} {i : ι} (h : Reach M ok s) (hok : ok s i)
      (hs : M.step s i = some t) : Reach M ok t

/-- The states reached by any run. -/
abbrev Reachable (M : Machine σ ι) : σ → Prop := M.Reach fun _ _ => True

/-- **The invariant rule**: what holds at the start and is kept by every
step that meets `ok` holds in every state reached. -/
theorem Reach.invariant {P : σ → Prop} (h0 : ∀ s, M.init s → P s)
    (hstep : ∀ s i t, P s → ok s i → M.step s i = some t → P t) :
    ∀ {s : σ}, M.Reach ok s → P s := by
  intro s h
  induction h with
  | start h => exact h0 _ h
  | next _ hok hs ih => exact hstep _ _ _ ih hok hs

theorem Reach.mono (hok : ∀ s i, ok s i → ok' s i) : ∀ {s : σ}, M.Reach ok s → M.Reach ok' s := by
  intro s h
  induction h with
  | start h => exact .start h
  | next _ hk hs ih => exact .next ih (hok _ _ hk) hs

/-- A run that meets `ok` also meets `ok'`, if an invariant of the runs
that meet `ok'` makes `ok'` follow from `ok`. -/
theorem Reach.strengthen {P : σ → Prop} (hP : ∀ {s}, M.Reach ok' s → P s)
    (hok : ∀ s i t, P s → ok s i → M.step s i = some t → ok' s i) :
    ∀ {s : σ}, M.Reach ok s → M.Reach ok' s := by
  intro s h
  induction h with
  | start h => exact .start h
  | next _ hk hs ih => exact .next ih (hok _ _ _ (hP ih) hk hs) hs

/-- **The simulation rule**: if every step of `N` that meets `okN` is, seen
through `f`, a step of `M` that meets `ok` or no step at all, then `f` sees
only states that `M` reaches so. -/
theorem Reach.simulate {N : Machine τ κ} {okN : τ → κ → Prop} {f : τ → σ}
    (h0 : ∀ s, N.init s → M.init (f s))
    (hstep : ∀ s j t, okN s j → N.step s j = some t →
      f t = f s ∨ ∃ i, ok (f s) i ∧ M.step (f s) i = some (f t)) :
    ∀ {s : τ}, N.Reach okN s → M.Reach ok (f s) := by
  intro s h
  induction h with
  | start h => exact .start (h0 _ h)
  | next _ hok hs ih =>
      rcases hstep _ _ _ hok hs with heq | ⟨i, hi, hsim⟩
      · exact heq ▸ ih
      · exact .next ih hi hsim

/-- Replay a schedule as long as the test `p` passes; `none` when it fails
or a step is disabled. -/
def execWhile (M : Machine σ ι) (p : σ → ι → Bool) : σ → List ι → Option σ
  | s, [] => some s
  | s, i :: is => if p s i then (M.step s i).bind fun t => M.execWhile p t is else none

theorem reach_of_execWhile {p : σ → ι → Bool} (hp : ∀ s i, p s i = true → ok s i)
    {is : List ι} : ∀ {s t : σ}, M.Reach ok s → M.execWhile p s is = some t → M.Reach ok t := by
  induction is with
  | nil =>
      intro s t hs h
      cases h
      exact hs
  | cons i is ih =>
      intro s t hs h
      rw [execWhile] at h
      split at h
      · obtain ⟨u, hu, ht⟩ := Option.bind_eq_some_iff.mp h
        exact ih (.next hs (hp s i ‹_›) hu) ht
      · cases h

/-- A schedule that runs to its end in a state where the test `q` is true
exhibits a state of that kind. -/
theorem exists_reach_of_execWhile {p : σ → ι → Bool} (hp : ∀ s i, p s i = true → ok s i)
    (is : List ι) {s : σ} {q : σ → Bool} (hs : M.init s)
    (h : (M.execWhile p s is).map q = some true) : ∃ t, M.Reach ok t ∧ q t = true := by
  obtain ⟨t, ht, hq⟩ := Option.map_eq_some_iff.mp h
  exact ⟨t, reach_of_execWhile hp (.start hs) ht, hq⟩

/-- Replay a schedule. -/
def exec (M : Machine σ ι) : σ → List ι → Option σ := M.execWhile fun _ _ => true

theorem exists_reachable_of_exec (is : List ι) {s : σ} {q : σ → Bool} (hs : M.init s)
    (h : (M.exec s is).map q = some true) : ∃ t, M.Reachable t ∧ q t = true :=
  exists_reach_of_execWhile (fun _ _ _ => trivial) is hs h

end Machine

/-! ## Event loops -/

/-- Where a loop is behind an event: it goes on, or it is left. -/
inductive Flow (σ : Type) where
  | next (s : σ)
  | stop (s : σ)

/-- The state behind an event, whether the loop goes on or not. -/
def Flow.state : Flow σ → σ
  | next s | stop s => s

/-- A loop over events that the handler may stop. -/
def eventLoop (handle : σ → ι → Flow σ) : σ → List ι → σ
  | s, [] => s
  | s, i :: is =>
      match handle s i with
      | .next t => eventLoop handle t is
      | .stop t => t

section EventLoop

variable {handle : σ → ι → Flow σ} {handle' : σ → κ → Flow σ}

/-- Loops that handle corresponding events alike do alike. -/
theorem eventLoop_map {f : ι → κ} (h : ∀ s i, handle' s (f i) = handle s i) (is : List ι)
    (s : σ) : eventLoop handle' s (is.map f) = eventLoop handle s is := by
  induction is generalizing s with
  | nil => rfl
  | cons i is ih =>
      simp only [List.map_cons, eventLoop, h]
      cases handle s i with
      | next t => exact ih t
      | stop t => rfl

/-- **The loop rule**: what every event of the list keeps holds at the end. -/
theorem eventLoop_keeps {P : σ → Prop} {is : List ι}
    (h : ∀ s i, i ∈ is → P s → P (handle s i).state) :
    ∀ {s : σ}, P s → P (eventLoop handle s is) := by
  induction is with
  | nil => intro s hs; exact hs
  | cons i is ih =>
      intro s hs
      have hi : P (handle s i).state := h s i List.mem_cons_self hs
      rw [eventLoop]
      cases hflow : handle s i with
      | next t =>
          rw [hflow] at hi
          exact ih (fun s j hj => h s j (List.mem_cons_of_mem _ hj)) hi
      | stop t =>
          rw [hflow] at hi
          exact hi

end EventLoop

end RuntimeBle.Lib
