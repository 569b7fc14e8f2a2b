import RuntimeBle.Session.Executor
import RuntimeBle.Time.Alarm

/-!
# Time — Sleeping

The BLE thread and its clock together. A poll of the session's future asks
the `ZephyrDriver` to be woken at its deadlines; what `next_expiration` finds
due is woken by `runtime_ble_wake`, and `block_on` polls again.

All wakers are the one of `block_on`, so it does not matter which of them
the queue keeps.
-/

namespace RuntimeBle.Time

open RuntimeBle.Lib RuntimeBle.Session

variable {T : TimerQueue}

/-- What a queue with room does with an expiration it is given: behind it,
each that is waited for has one that is no later, and none is new but it. -/
structure TimerQueue.Keeping (T : TimerQueue) : Prop where
  covered : ∀ q at', ∀ e ∈ at' :: T.pending q,
    ∃ e' ∈ T.pending (T.scheduleWake q at').2, e'.toNat ≤ e.toNat
  origin : ∀ q at', ∀ e ∈ T.pending (T.scheduleWake q at').2, e ∈ at' :: T.pending q

/-! ## The thread and its clock -/

/-- `next_expiration(now)` finds something to wake. -/
def Driver.anyDue (s : Driver T) : Bool := (T.pending s.queue).any fun e => e.toNat ≤ s.now.val

/-- `schedule_wake` asks for the next expiration, and finds something to wake. -/
def Driver.wakesAt (s : Driver T) (at' : UInt64) : Bool :=
  let r := T.scheduleWake s.queue at'
  r.1 && Driver.anyDue { s with queue := r.2 }

/-- `runtime_ble_wake`, if the waker is woken. -/
def wakenIf (woken : Bool) (s : Executor) : Executor :=
  if woken then { s with sem := semGive s.sem, log := .wake :: s.log } else s

/-- `asked` is what the most recent poll has asked to be woken at, and
`everAsked` what any poll has. -/
structure Sleeper (T : TimerQueue) where
  exec : Executor
  driver : Driver T
  asked : List UInt64
  everAsked : List UInt64

/-- A step of the executor, or of the alarm driver. -/
inductive SleepLabel where
  | exec (l : ExecLabel)
  | wait (until' : Uptime)
  | scheduleWake (at' : UInt64) (later : Uptime)
  | expire (later : Uptime)

/-- A step of the thread or a wake from elsewhere, time that passes, a
deadline that the future asks for within a poll, and the `k_timer`'s expiry
once it is due. -/
def sleepStep (s : Sleeper T) : SleepLabel → Option (Sleeper T)
  | .exec l => (execStep s.exec l).map fun exec =>
      { s with exec, asked := if l = .pollStart then [] else s.asked }
  | .wait until' => some { s with driver := alarmStep s.driver (.wait until') }
  | .scheduleWake at' later =>
      if s.exec.pc = .polling then
        some
          { exec := wakenIf (s.driver.wakesAt at') s.exec
            driver := alarmStep s.driver (.scheduleWake at' later)
            asked := at' :: s.asked
            everAsked := at' :: s.everAsked }
      else none
  | .expire later =>
      if s.driver.timer.any (· ≤ s.driver.now.val) then
        some
          { s with
            exec := wakenIf s.driver.anyDue s.exec
            driver := alarmStep s.driver (.expire later) }
      else none

/-- Both from boot on, with nothing asked. -/
def sleeper (T : TimerQueue) : Machine (Sleeper T) SleepLabel where
  init s := ∃ now, s = { exec := {}, driver := Driver.start T now, asked := [], everAsked := [] }
  step := sleepStep

/-! ## The clock -/

/-- The timer is armed no later than the earliest expiration, or than the
moment it was armed when that had passed. -/
structure Guards (s : Driver T) : Prop where
  armed : ∀ m, T.earliest s.queue = some m → ∃ t, s.timer = some t ∧ t ≤ max s.armedAt m
  past : s.armedAt ≤ s.now.val

theorem Guards.start (T : TimerQueue) (now : Uptime) : Guards (Driver.start T now) := by
  refine ⟨fun m hm => ?_, Nat.zero_le _⟩
  have hnone : T.earliest T.new = none := earliest_eq_none.mpr T.pending_new
  rw [show (Driver.start T now).queue = T.new from rfl, hnone] at hm
  cases hm

/-- However far away the earliest expiration is, the alarm is not late. -/
theorem Guards.recompute (s : Driver T) (later : Uptime) : Guards (s.recompute later) := by
  refine ⟨fun m hm => ?_, le_refl _⟩
  have hnext : (T.nextExpiration s.queue s.now.val).1.toNat
      = (T.earliest (T.nextExpiration s.queue s.now.val).2).getD (2 ^ 64 - 1) := T.next_eq _ _
  rw [show T.earliest (T.nextExpiration s.queue s.now.val).2 = some m from hm,
    Option.getD_some] at hnext
  refine ⟨_, rfl, ?_⟩
  show (max s.now later).val + alarmDelay (max s.now later) _ ≤ max (max s.now later).val m
  rw [alarm_time, hnext]
  split <;> omega

theorem Guards.step {s : Driver T} (h : Guards s) (l : AlarmLabel) : Guards (alarmStep s l) := by
  cases l with
  | wait until' =>
      refine ⟨h.armed, h.past.trans ?_⟩
      exact Fin.val_le_of_le (le_max_left s.now until')
  | scheduleWake at' later =>
      simp only [alarmStep, Driver.scheduleWake]
      split
      · exact Guards.recompute _ later
      · rename_i hsame
        have hearliest : T.earliest (T.scheduleWake s.queue at').2 = T.earliest s.queue :=
          T.schedule_same _ _ (by simpa using hsame)
        refine ⟨fun m hm => ?_, h.past⟩
        apply h.armed
        rw [← hearliest]
        exact hm
  | expire later =>
      simp only [alarmStep]
      split
      · exact Guards.recompute _ later
      · exact h

/-- What is waited for is guarded. -/
theorem Guards.pending {s : Driver T} (h : Guards s) {e : UInt64} (he : e ∈ T.pending s.queue) :
    ∃ t, s.timer = some t ∧ t ≤ max s.armedAt e.toNat := by
  cases hearliest : T.earliest s.queue with
  | none =>
      rw [earliest_eq_none.mp hearliest] at he
      cases he
  | some m =>
      obtain ⟨t, ht, hle⟩ := h.armed m hearliest
      have hm := earliest_le hearliest he
      exact ⟨t, ht, by omega⟩

/-- `next_expiration` drops nothing that it does not wake. -/
theorem pending_recompute {s : Driver T} {later : Uptime} {e : UInt64}
    (he : e ∈ T.pending s.queue) (hdue : s.anyDue = false) :
    e ∈ T.pending (s.recompute later).queue := by
  have hnot : ¬ e.toNat ≤ s.now.val := by
    intro hle
    rw [Driver.anyDue, List.any_eq_false] at hdue
    exact hdue e he (decide_eq_true hle)
  exact (T.mem_next _ _ _).mpr ⟨he, by omega⟩

theorem pending_of_recompute {s : Driver T} {later : Uptime} {e : UInt64}
    (he : e ∈ T.pending (s.recompute later).queue) : e ∈ T.pending s.queue :=
  ((T.mem_next _ _ _).mp he).1

/-- A deadline that is given to the driver, or was, is covered behind it, or
the waker is woken. -/
theorem covered_scheduleWake (hT : T.Keeping) {s : Driver T} {at' : UInt64} (later : Uptime)
    {e : UInt64} (he : e ∈ at' :: T.pending s.queue) :
    s.wakesAt at' = true
      ∨ ∃ e' ∈ T.pending (s.scheduleWake at' later).queue, e'.toNat ≤ e.toNat := by
  obtain ⟨e', he', hle⟩ := hT.covered s.queue at' e he
  simp only [Driver.wakesAt, Driver.scheduleWake]
  split
  · rename_i hagain
    cases hdue : Driver.anyDue { s with queue := (T.scheduleWake s.queue at').2 } with
    | true => exact .inl (by rw [hagain]; rfl)
    | false => exact .inr ⟨e', pending_recompute he' hdue, hle⟩
  · exact .inr ⟨e', he', hle⟩

theorem origin_scheduleWake (hT : T.Keeping) {s : Driver T} {at' e : UInt64} {later : Uptime}
    (he : e ∈ T.pending (s.scheduleWake at' later).queue) : e ∈ at' :: T.pending s.queue := by
  apply hT.origin
  unfold Driver.scheduleWake at he
  dsimp only at he
  split at he
  · exact pending_of_recompute he
  · exact he

/-! ## The thread -/

section Waken

variable {woken : Bool} {s : Executor}

@[simp] theorem wakenIf_pc : (wakenIf woken s).pc = s.pc := by
  cases woken <;> rfl

theorem wakesSincePoll_wakenIf :
    wakesSincePoll (wakenIf woken s).log
      = wakesSincePoll s.log + if woken then 1 else 0 := by
  cases woken with
  | false => rfl
  | true => exact wakesSincePoll_wake _

theorem noWakeLost_wakenIf (h : NoWakeLost s) : NoWakeLost (wakenIf woken s) := by
  cases woken with
  | false => exact h
  | true => exact noWakeLost_step (l := .wake) h rfl

end Waken

/-- A parked thread has had no wake since its last poll began. -/
theorem no_wake_of_blocked {s : Executor} (h : NoWakeLost s) (hblocked : s.Blocked) :
    wakesSincePoll s.log = 0 := by
  obtain ⟨hpc, hzero⟩ := hblocked
  have hle := (h.behindPoll (.inr hpc)).2
  have hsem := h.sem
  omega

/-! ## Together -/

/-- The thread is in its most recent poll, or waits behind it. -/
def BehindPoll (s : Executor) : Prop := s.pc = .polling ∨ s.pc = .waiting

/-- Each deadline of the most recent poll is covered by what the clock waits
for, or the thread has been woken since. -/
structure Watched (s : Sleeper T) : Prop where
  thread : NoWakeLost s.exec
  clock : Guards s.driver
  covered : BehindPoll s.exec → ∀ e ∈ s.asked,
    1 ≤ wakesSincePoll s.exec.log ∨ ∃ e' ∈ T.pending s.driver.queue, e'.toNat ≤ e.toNat
  origin : ∀ e ∈ T.pending s.driver.queue, e ∈ s.everAsked

section Steps

variable {s t : Sleeper T}

/-- The thread's own steps and the wakes from elsewhere. -/
theorem Watched.exec {l : ExecLabel} {exec : Executor} (h : Watched s)
    (hs : execStep s.exec l = some exec) :
    Watched { s with exec, asked := if l = .pollStart then [] else s.asked } := by
  refine ⟨noWakeLost_step h.thread hs, h.clock, fun hpc e he => ?_, h.origin⟩
  cases l with
  | pollStart => cases he
  | wake =>
      simp only [execStep, Option.some.injEq] at hs
      subst hs
      left
      dsimp only
      rw [wakesSincePoll_wake]
      omega
  | pollEnd ready =>
      simp only [execStep, Option.ite_none_right_eq_some, Option.some.injEq] at hs
      obtain ⟨hpolling, rfl⟩ := hs
      exact h.covered (.inl hpolling) e he
  | load | enter | take | exit =>
      simp only [execStep, Option.ite_none_right_eq_some, Option.some.injEq] at hs
      obtain ⟨-, rfl⟩ := hs
      rcases hpc with hpc | hpc <;> cases hpc

theorem Watched.scheduleWake (hT : T.Keeping) (h : Watched s) (at' : UInt64) (later : Uptime)
    (hpc : s.exec.pc = .polling) :
    Watched
      { exec := wakenIf (s.driver.wakesAt at') s.exec
        driver := alarmStep s.driver (.scheduleWake at' later)
        asked := at' :: s.asked
        everAsked := at' :: s.everAsked : Sleeper T } := by
  refine ⟨noWakeLost_wakenIf h.thread, h.clock.step (.scheduleWake at' later), fun _ e he => ?_,
    fun e he => ?_⟩
  · -- The deadline itself or one that covers it is now given to the driver.
    have hcovered : 1 ≤ wakesSincePoll s.exec.log
        ∨ ∃ e₁ ∈ at' :: T.pending s.driver.queue, e₁.toNat ≤ e.toNat := by
      rcases List.mem_cons.mp he with rfl | he
      · exact .inr ⟨e, List.mem_cons_self, le_refl _⟩
      · rcases h.covered (.inl hpc) e he with hwoken | ⟨e₁, he₁, hle⟩
        · exact .inl hwoken
        · exact .inr ⟨e₁, List.mem_cons_of_mem _ he₁, hle⟩
    dsimp only
    rw [wakesSincePoll_wakenIf]
    rcases hcovered with hwoken | ⟨e₁, he₁, hle₁⟩
    · left
      omega
    · rcases covered_scheduleWake hT later he₁ with hwakes | ⟨e₂, he₂, hle₂⟩
      · left
        rw [hwakes, if_pos rfl]
        omega
      · exact .inr ⟨e₂, he₂, hle₂.trans hle₁⟩
  · rcases List.mem_cons.mp (origin_scheduleWake hT he) with rfl | hold
    · exact List.mem_cons_self
    · exact List.mem_cons_of_mem _ (h.origin e hold)

theorem Watched.expire (h : Watched s) (later : Uptime)
    (hdue : s.driver.timer.any (· ≤ s.driver.now.val) = true) :
    Watched
      { s with
        exec := wakenIf s.driver.anyDue s.exec
        driver := alarmStep s.driver (.expire later) } := by
  have hfired : alarmStep s.driver (.expire later) = s.driver.runtimeAlarmFired later := by
    rw [alarmStep, if_pos hdue]
  refine ⟨noWakeLost_wakenIf h.thread, h.clock.step (.expire later), fun hpc e he => ?_,
    fun e he => ?_⟩
  · dsimp only
    rw [wakesSincePoll_wakenIf, hfired]
    cases hany : s.driver.anyDue with
    | true =>
        left
        rw [if_pos rfl]
        omega
    | false =>
        rcases h.covered (by simpa [BehindPoll] using hpc) e he with hwoken | ⟨e', he', hle⟩
        · exact .inl (by omega)
        · exact .inr ⟨e', pending_recompute (s := { s.driver with timer := none }) he' hany, hle⟩
  · dsimp only at he
    rw [hfired] at he
    exact h.origin e (pending_of_recompute he)

theorem Watched.step (hT : T.Keeping) {l : SleepLabel} (h : Watched s)
    (hs : sleepStep s l = some t) : Watched t := by
  cases l with
  | exec l =>
      obtain ⟨exec, hexec, rfl⟩ := Option.map_eq_some_iff.mp hs
      exact h.exec hexec
  | wait until' =>
      cases hs
      exact ⟨h.thread, h.clock.step (.wait until'), h.covered, h.origin⟩
  | scheduleWake at' later =>
      simp only [sleepStep, Option.ite_none_right_eq_some, Option.some.injEq] at hs
      obtain ⟨hpc, rfl⟩ := hs
      exact h.scheduleWake hT at' later hpc
  | expire later =>
      simp only [sleepStep, Option.ite_none_right_eq_some, Option.some.injEq] at hs
      obtain ⟨hdue, rfl⟩ := hs
      exact h.expire later hdue

theorem watched_of_reachable (hT : T.Keeping) (h : (sleeper T).Reachable s) : Watched s := by
  refine Machine.Reach.invariant (P := Watched) ?_ ?_ h
  · rintro s ⟨now, rfl⟩
    refine ⟨⟨rfl, nofun, nofun, trivial⟩, Guards.start T now, nofun, fun e he => ?_⟩
    rw [show (Driver.start T now).queue = T.new from rfl, T.pending_new] at he
    cases he
  · intro s l t h _ hs
    exact h.step hT hs

/-- A parked thread's deadlines are covered. -/
theorem Watched.covered_of_blocked (h : Watched s) (hblocked : s.exec.Blocked) {e : UInt64}
    (he : e ∈ s.asked) : ∃ e' ∈ T.pending s.driver.queue, e'.toNat ≤ e.toNat := by
  have hnone := no_wake_of_blocked h.thread hblocked
  rcases h.covered (.inr hblocked.1) e he with hwoken | hcovered
  · omega
  · exact hcovered

/-- A parked thread's deadlines are guarded by the timer. -/
theorem Watched.guarded_of_blocked (h : Watched s) (hblocked : s.exec.Blocked) {e : UInt64}
    (he : e ∈ s.asked) :
    ∃ t, s.driver.timer = some t ∧ t ≤ max s.driver.armedAt e.toNat := by
  obtain ⟨e', he', hle⟩ := h.covered_of_blocked hblocked he
  obtain ⟨t, ht, hle'⟩ := h.clock.pending he'
  exact ⟨t, ht, by omega⟩

/-- The expiry of the timer wakes a parked thread exactly when something is
due. -/
theorem blocked_of_expire {later : Uptime} (hblocked : s.exec.Blocked)
    (hs : sleepStep s (.expire later) = some t) :
    t.exec.Blocked ↔ s.driver.anyDue = false := by
  simp only [sleepStep, Option.ite_none_right_eq_some, Option.some.injEq] at hs
  obtain ⟨-, rfl⟩ := hs
  cases s.driver.anyDue with
  | false => exact iff_of_true hblocked rfl
  | true =>
      refine iff_of_false (fun h => ?_) nofun
      have hsem : semGive s.exec.sem = 0 := h.2
      rw [hblocked.2] at hsem
      cases hsem

/-- **No deadline is overslept, and none is woken for too early.** While the
thread is parked, the timer is armed no later than any deadline its last
poll has asked for; unless the timer's expiry is due, these all lie ahead,
and once one has come, the expiry lets the thread go on. An expiry that does
so finds a deadline that some poll has asked for and that has come. -/
theorem no_deadline_overslept (hT : T.Keeping) (h : (sleeper T).Reachable s)
    (hblocked : s.exec.Blocked) :
    (∀ e ∈ s.asked, ∃ t, s.driver.timer = some t ∧ t ≤ max s.driver.armedAt e.toNat)
    ∧ (s.driver.timer.any (· ≤ s.driver.now.val) = false →
        ∀ e ∈ s.asked, s.driver.now.val < e.toNat)
    ∧ (∀ e ∈ s.asked, e.toNat ≤ s.driver.now.val → ∀ later, ∃ t,
        sleepStep s (.expire later) = some t ∧ (execStep t.exec .take).isSome)
    ∧ ∀ later t, sleepStep s (.expire later) = some t → ¬ t.exec.Blocked →
        ∃ e ∈ s.everAsked, e.toNat ≤ s.driver.now.val := by
  have hwatched := watched_of_reachable hT h
  have hpast := hwatched.clock.past
  have hdue : ∀ e ∈ s.asked, e.toNat ≤ s.driver.now.val →
      s.driver.timer.any (· ≤ s.driver.now.val) = true := by
    intro e he hle
    obtain ⟨t, ht, hguard⟩ := hwatched.guarded_of_blocked hblocked he
    rw [ht, Option.any_some, decide_eq_true_eq]
    omega
  refine ⟨fun e => hwatched.guarded_of_blocked hblocked, ?_, ?_, ?_⟩
  · intro hnot e he
    by_contra hle
    rw [hdue e he (by omega)] at hnot
    cases hnot
  · intro e he hle later
    obtain ⟨e', he', hle'⟩ := hwatched.covered_of_blocked hblocked he
    have hany : s.driver.anyDue = true :=
      List.any_eq_true.mpr ⟨e', he', decide_eq_true (hle'.trans hle)⟩
    refine ⟨_, if_pos (hdue e he hle), ?_⟩
    rw [hany]
    simp [wakenIf, execStep, hblocked.1, hblocked.2, semGive]
  · intro later t hs hnot
    rw [blocked_of_expire hblocked hs, Bool.not_eq_false] at hnot
    obtain ⟨e, he, hle⟩ := List.any_eq_true.mp hnot
    exact ⟨e, hwatched.origin e he, of_decide_eq_true hle⟩

end Steps

/-! ## One waker -/

theorem keeping_oneWaker : oneWaker.Keeping := by
  constructor
  · intro q at' e he
    cases q with
    | none => exact ⟨e, he, le_refl _⟩
    | some e₀ =>
        by_cases hlt : at' < e₀
        · have hlt' : at'.toNat < e₀.toNat := hlt
          rw [show oneWaker.scheduleWake (some e₀) at' = (true, some at') from if_pos hlt]
          refine ⟨at', List.mem_singleton_self _, ?_⟩
          rcases List.mem_cons.mp he with rfl | he
          · exact le_refl _
          · rw [List.mem_singleton.mp he]
            omega
        · have hle : e₀.toNat ≤ at'.toNat := not_lt.mp hlt
          rw [show oneWaker.scheduleWake (some e₀) at' = (false, some e₀) from if_neg hlt]
          refine ⟨e₀, List.mem_singleton_self _, ?_⟩
          rcases List.mem_cons.mp he with rfl | he
          · exact hle
          · rw [List.mem_singleton.mp he]
  · intro q at' e he
    cases q with
    | none => exact he
    | some e₀ =>
        by_cases hlt : at' < e₀
        · rw [show oneWaker.scheduleWake (some e₀) at' = (true, some at') from if_pos hlt] at he
          rw [List.mem_singleton.mp he]
          exact List.mem_cons_self
        · rw [show oneWaker.scheduleWake (some e₀) at' = (false, some e₀) from if_neg hlt] at he
          exact List.mem_cons_of_mem _ he

/-- Two deadlines are asked for, the nearer one last; at 10 ms the thread is
still parked, and the expiry is due. -/
theorem no_deadline_overslept_tick :
    ∃ s : Sleeper oneWaker, (sleeper oneWaker).Reachable s ∧ s.exec.Blocked
      ∧ s.asked = [10, 30] ∧ s.driver.now.val = 10
      ∧ ∀ later, ∃ t, sleepStep s (.expire later) = some t ∧ (execStep t.exec .take).isSome := by
  let start : Sleeper oneWaker :=
    { exec := {}, driver := Driver.start oneWaker 0, asked := [], everAsked := [] }
  have hexec : ((sleeper oneWaker).exec start
      [.exec .load, .exec .enter, .exec .pollStart, .scheduleWake 30 0, .scheduleWake 10 0,
        .exec (.pollEnd false), .wait 10]).map
      (fun s => decide ((s.exec.pc = .waiting ∧ s.exec.sem = 0) ∧ s.asked = [10, 30]
        ∧ s.driver.now.val = 10)) = some true := by
    decide
  obtain ⟨s, hreach, hs⟩ := Machine.exists_reachable_of_exec _
    (show (sleeper oneWaker).init start from ⟨0, rfl⟩) hexec
  obtain ⟨hblocked, hasked, hnow⟩ := of_decide_eq_true hs
  refine ⟨s, hreach, hblocked, hasked, hnow, ?_⟩
  apply (no_deadline_overslept keeping_oneWaker hreach hblocked).2.2.1 10
  · rw [hasked]
    exact List.mem_cons_self
  · rw [hnow]
    decide

end RuntimeBle.Time
