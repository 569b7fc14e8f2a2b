import Mathlib.Algebra.Ring.Nat
import Mathlib.Order.Fin.Basic
import RuntimeBle.Lib.Machine

/-!
# Time — Alarm

`ZephyrDriver`: the queue of pending expirations of `embassy-time`, and the
one `k_timer` that has to fire for the earliest of them.

The queue is another crate's. `TimerQueue` is what the driver relies on:
`next_expiration` drops what is due and returns the earliest that is left,
or `u64::MAX`; `schedule_wake` says when the alarm must be recomputed.
-/

namespace RuntimeBle.Time

open RuntimeBle.Lib

/-! ## The queue -/

/-- The timer queue of the executor's crate. -/
structure TimerQueue where
  Queue : Type
  new : Queue
  /-- The expirations that are waited for. -/
  pending : Queue → List UInt64
  scheduleWake : Queue → UInt64 → Bool × Queue
  nextExpiration : Queue → Nat → UInt64 × Queue
  pending_new : pending new = []
  schedule_same : ∀ q at', (scheduleWake q at').1 = false →
    ((pending (scheduleWake q at').2).map UInt64.toNat).min?
      = ((pending q).map UInt64.toNat).min?
  mem_next : ∀ q now e,
    e ∈ pending (nextExpiration q now).2 ↔ e ∈ pending q ∧ now < e.toNat
  next_eq : ∀ q now, (nextExpiration q now).1.toNat
    = ((pending (nextExpiration q now).2).map UInt64.toNat).min?.getD (2 ^ 64 - 1)

/-- The earliest pending expiration. -/
def TimerQueue.earliest (T : TimerQueue) (q : T.Queue) : Option Nat :=
  ((T.pending q).map UInt64.toNat).min?

/-! ## The driver -/

/-- What `k_uptime_get` returns: an `int64_t`, never negative. -/
abbrev Uptime := Fin (2 ^ 63)

/-- The value of `x` in an `int64_t`. -/
def toInt64 (x : Int) : Int := x.bmod (2 ^ 64)

/-- The delay of `runtime_alarm_set`, in ms. -/
def alarmDelay (uptime : Uptime) (atMs : UInt64) : Nat :=
  let d := toInt64 (toInt64 atMs.toNat - uptime.val)
  if d < 0 then 0 else d.toNat

/-- `timer` is the uptime the `k_timer` is armed for, `armedAt` the uptime
of the last `k_timer_start`. -/
structure Driver (T : TimerQueue) where
  now : Uptime
  queue : T.Queue
  timer : Option Nat
  armedAt : Nat

variable {T : TimerQueue}

namespace Driver

/-- Nothing is armed. -/
def start (T : TimerQueue) (now : Uptime) : Driver T :=
  { now, queue := T.new, timer := none, armedAt := 0 }

/-- `runtime_alarm_set`: the timer starts anew. -/
def runtimeAlarmSet (s : Driver T) (atMs : UInt64) : Driver T :=
  { s with timer := some (s.now.val + alarmDelay s.now atMs), armedAt := s.now.val }

/-- `next_expiration(now)` and `runtime_alarm_set`, which reads the clock
again: it shows `later` by then. -/
def recompute (s : Driver T) (later : Uptime) : Driver T :=
  let r := T.nextExpiration s.queue s.now.val
  runtimeAlarmSet { s with now := max s.now later, queue := r.2 } r.1

/-- `schedule_wake`: the alarm is set where the queue says so. -/
def scheduleWake (s : Driver T) (at' : UInt64) (later : Uptime) : Driver T :=
  let r := T.scheduleWake s.queue at'
  if r.1 then recompute { s with queue := r.2 } later else { s with queue := r.2 }

/-- The `k_timer` expires: `runtime_alarm_fired`. -/
def runtimeAlarmFired (s : Driver T) (later : Uptime) : Driver T :=
  recompute { s with timer := none } later

end Driver

/-- Time passes, a wake is asked for, or the timer expires. -/
inductive AlarmLabel where
  | wait (until' : Uptime)
  | scheduleWake (at' : UInt64) (later : Uptime)
  | expire (later : Uptime)

/-- Time passes, a future asks to be woken, or the timer, once it is due,
expires. -/
def alarmStep (s : Driver T) : AlarmLabel → Driver T
  | .wait until' => { s with now := max s.now until' }
  | .scheduleWake at' later => s.scheduleWake at' later
  | .expire later =>
      if s.timer.any (· ≤ s.now.val) then s.runtimeAlarmFired later else s

/-- The timer is armed for the earliest expiration, or for the moment it was
armed when that had passed; with nothing pending it is not armed. -/
def Armed (s : Driver T) : Prop := s.timer = (T.earliest s.queue).map (max s.armedAt)

/-! ## The delay -/

theorem alarm_time (now : Uptime) (atMs : UInt64) :
    now.val + alarmDelay now atMs
      = if atMs.toNat < now.val + 2 ^ 63 then max now.val atMs.toNat else now.val := by
  have hat : atMs.toNat < 2 ^ 64 := atMs.toNat_lt
  have hnow : now.val < 2 ^ 63 := now.isLt
  unfold alarmDelay toInt64
  generalize now.val = n at *
  generalize atMs.toNat = a at *
  simp only [Int.bmod_def]
  split_ifs <;> omega

/-- **`runtime_alarm_set` ends no delay early, save for an alarm 2^63 ms or
more away.** -/
theorem le_alarm_time_iff (now : Uptime) (atMs : UInt64) :
    atMs.toNat ≤ now.val + alarmDelay now atMs ↔ atMs.toNat < now.val + 2 ^ 63 := by
  have hnow : now.val < 2 ^ 63 := now.isLt
  rw [alarm_time]
  split <;> omega

/-! ## Recomputing the alarm -/

/-- A pending expiration that is to come, but not 2^63 ms or more away. -/
def Near (now later : Uptime) (es : List UInt64) : Prop :=
  ∃ e ∈ es, now.val < e.toNat ∧ e.toNat < (max now later).val + 2 ^ 63

theorem earliest_eq_none {q : T.Queue} : T.earliest q = none ↔ T.pending q = [] := by
  simp [TimerQueue.earliest]

theorem earliest_mem {q : T.Queue} {m : Nat} (h : T.earliest q = some m) :
    ∃ e ∈ T.pending q, e.toNat = m := by
  simpa using List.min?_mem h

theorem earliest_le {q : T.Queue} {m : Nat} (h : T.earliest q = some m) {e : UInt64}
    (he : e ∈ T.pending q) : m ≤ e.toNat :=
  (List.min?_eq_some_iff.mp h).2 _ (List.mem_map_of_mem he)

/-- The alarm is right exactly when there is something near to fire for. -/
theorem armed_recompute_iff {s : Driver T} {later : Uptime} :
    Armed (s.recompute later) ↔ Near s.now later (T.pending s.queue) := by
  set r := T.nextExpiration s.queue s.now.val
  have hmem : ∀ e, e ∈ T.pending r.2 ↔ e ∈ T.pending s.queue ∧ s.now.val < e.toNat :=
    T.mem_next s.queue s.now.val
  have hnext : r.1.toNat = (T.earliest r.2).getD (2 ^ 64 - 1) := T.next_eq s.queue s.now.val
  have harmed : Armed (s.recompute later)
      ↔ some ((max s.now later).val + alarmDelay (max s.now later) r.1)
        = (T.earliest r.2).map (max (max s.now later).val) := Iff.rfl
  rw [harmed]
  cases hearliest : T.earliest r.2 with
  | none =>
      rw [earliest_eq_none] at hearliest
      constructor
      · intro h
        cases h
      · rintro ⟨e, he, hlt, -⟩
        have hleft := (hmem e).mpr ⟨he, hlt⟩
        rw [hearliest] at hleft
        cases hleft
  | some m =>
      rw [hearliest, Option.getD_some] at hnext
      rw [alarm_time, hnext, Option.map_some, Option.some.injEq]
      constructor
      · intro h
        obtain ⟨e, he, rfl⟩ := earliest_mem hearliest
        refine ⟨e, ((hmem e).mp he).1, ((hmem e).mp he).2, ?_⟩
        split at h <;> omega
      · rintro ⟨e, he, hlt, hnear⟩
        have hle := earliest_le hearliest ((hmem e).mpr ⟨he, hlt⟩)
        rw [if_pos (by omega)]

/-- With nothing left to wait for the alarm is set to fire at once. -/
theorem recompute_for_nothing {s : Driver T} (later : Uptime) (h : T.pending s.queue = []) :
    T.pending (s.recompute later).queue = [] ∧
      (s.recompute later).timer = some (s.recompute later).now.val := by
  have hempty : T.pending (T.nextExpiration s.queue s.now.val).2 = [] := by
    refine List.eq_nil_iff_forall_not_mem.mpr fun e he => ?_
    have hold := ((T.mem_next _ _ _).mp he).1
    rw [h] at hold
    cases hold
  refine ⟨hempty, ?_⟩
  have hnext : (T.nextExpiration s.queue s.now.val).1.toNat = 2 ^ 64 - 1 := by
    rw [T.next_eq, hempty]
    rfl
  have hlater : (max s.now later).val < 2 ^ 63 := (max s.now later).isLt
  show some ((max s.now later).val + _) = some (max s.now later).val
  rw [alarm_time, hnext, if_neg (by omega)]

/-- And it fires over and over. -/
theorem refires {s : Driver T} {later : Uptime} (h : T.pending s.queue = [])
    (hdue : s.timer = some s.now.val) (n : Nat) :
    Always alarmStep (fun s => s.timer = some s.now.val) s (List.replicate n (.expire later)) := by
  induction n generalizing s with
  | zero => exact hdue
  | succ n ih =>
      have hstep : alarmStep s (.expire later) = s.runtimeAlarmFired later := by
        simp [alarmStep, hdue]
      obtain ⟨hempty, htimer⟩ := recompute_for_nothing (s := { s with timer := none }) later h
      refine ⟨hdue, ?_⟩
      rw [hstep]
      exact ih hempty htimer

/-! ## Runs -/

/-- Whenever the alarm is recomputed, something near is pending. -/
def Upcoming (s : Driver T) : AlarmLabel → Prop
  | .wait _ => True
  | .scheduleWake at' later =>
      (T.scheduleWake s.queue at').1 = true →
        Near s.now later (T.pending (T.scheduleWake s.queue at').2)
  | .expire later => s.timer.any (· ≤ s.now.val) = true → Near s.now later (T.pending s.queue)

/-- One step: an alarm that is right stays right exactly when the step meets
`Upcoming`. -/
theorem armed_step_iff {s : Driver T} {l : AlarmLabel} (hs : Armed s) :
    Armed (alarmStep s l) ↔ Upcoming s l := by
  cases l with
  | wait until' => exact iff_of_true hs trivial
  | scheduleWake at' later =>
      simp only [alarmStep, Driver.scheduleWake, Upcoming]
      split
      · rename_i hagain
        rw [armed_recompute_iff]
        simp [hagain]
      · rename_i hsame
        have hearliest : T.earliest (T.scheduleWake s.queue at').2 = T.earliest s.queue :=
          T.schedule_same _ _ (by simpa using hsame)
        refine iff_of_true ?_ fun h => absurd h hsame
        show s.timer = (T.earliest (T.scheduleWake s.queue at').2).map (max s.armedAt)
        rw [hearliest]
        exact hs
  | expire later =>
      simp only [alarmStep, Upcoming]
      split
      · rename_i hdue
        rw [Driver.runtimeAlarmFired, armed_recompute_iff]
        simp [hdue]
      · rename_i hnot
        exact iff_of_true hs fun h => absurd h hnot

/-- **The alarm is right throughout a run exactly when something near is
pending at every recomputation**, whatever the queue; and a delay is never
too short exactly for alarms less than 2^63 ms away. -/
theorem alarm_exact_iff (T : TimerQueue) (now : Uptime) (ops : List AlarmLabel) :
    (Always alarmStep Armed (Driver.start T now) ops
        ↔ EachStep alarmStep Upcoming (Driver.start T now) ops) ∧
      ∀ (uptime : Uptime) (atMs : UInt64),
        atMs.toNat ≤ uptime.val + alarmDelay uptime atMs ↔ atMs.toNat < uptime.val + 2 ^ 63 := by
  constructor
  · refine always_iff_eachStep (fun _ h => h) (fun _ _ hs hl => (armed_step_iff hs).mpr hl)
      (fun _ _ hs h => (armed_step_iff hs).mp h) ops _ ?_
    show none = (T.earliest T.new).map _
    rw [earliest_eq_none.mpr T.pending_new, Option.map_none]
  · exact le_alarm_time_iff

/-! ## The queue of one waker -/

/-- All wakers of this executor wake the same thread, so the queue holds at
most one entry. -/
def oneWaker : TimerQueue where
  Queue := Option UInt64
  new := none
  pending := Option.toList
  scheduleWake q at' :=
    match q with
    | none => (true, some at')
    | some e => if at' < e then (true, some at') else (false, some e)
  nextExpiration q now :=
    match q with
    | none => (0xffffffffffffffff, none)
    | some e => if e.toNat ≤ now then (0xffffffffffffffff, none) else (e, some e)
  pending_new := rfl
  schedule_same q at' h := by
    cases q with
    | none => cases h
    | some e =>
        by_cases hlt : at' < e
        · simp [hlt] at h
        · simp [hlt]
  mem_next q now e := by
    cases q with
    | none => simp
    | some e' =>
        by_cases hle : e'.toNat ≤ now
        · simp only [hle, ↓reduceIte, Option.toList_none, List.not_mem_nil, Option.toList_some,
            List.mem_singleton, false_iff, not_and, not_lt]
          rintro rfl
          exact hle
        · simp only [hle, ↓reduceIte, Option.toList_some, List.mem_singleton, iff_self_and]
          rintro rfl
          omega
  next_eq q now := by
    cases q with
    | none => rfl
    | some e =>
        by_cases hle : e.toNat ≤ now
        · simp only [hle, ↓reduceIte]
          rfl
        · simp [hle]

/-- The last expiration is due: the queue is empty, and the timer is armed
again, to fire at once, and again. -/
theorem alarm_rearms_for_nothing :
    ¬ Always alarmStep Armed (Driver.start oneWaker 0)
      [.scheduleWake 10 0, .wait 10, .expire 10, .expire 10] := by
  intro h
  have hlast : some 10 = none := h.2.2.2.2
  cases hlast

/-- While no expiration is reached the alarm is right. -/
theorem alarm_exact_ahead :
    Always alarmStep Armed (Driver.start oneWaker 0)
      [.scheduleWake 10 0, .wait 5, .scheduleWake 7 6] :=
  (alarm_exact_iff oneWaker 0 _).1.mpr
    ⟨fun _ => ⟨10, by decide, by decide, by decide⟩, trivial,
      fun _ => ⟨7, by decide, by decide, by decide⟩, trivial⟩

end RuntimeBle.Time
