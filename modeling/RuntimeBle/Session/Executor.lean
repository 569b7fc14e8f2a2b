import RuntimeBle.Lib.History
import RuntimeBle.Lib.Machine

/-!
# Session — Executor

`block_on` on the BLE thread, parked on the binary semaphore of the glue,
against wakes that come from anywhere at any time.

A give that finds the thread waiting is a `wake` with the `take` right
behind it. The log of a state is what has happened, the newest first.
-/

namespace RuntimeBle.Session

open RuntimeBle.Lib

/-- Where the BLE thread is: no thread, before `block_on`, at the head of
its loop, within a poll, in `runtime_ble_wait`, behind `block_on`. -/
inductive ExecPc where
  | absent
  | starting
  | top
  | polling
  | waiting
  | returned
deriving DecidableEq

/-- What happens to the semaphore and the future. -/
inductive ExecEvent where
  | reset
  | wake
  | pollStart
  | take
deriving DecidableEq

/-- `sem` is the count of `runtime_sem`. -/
structure Executor where
  pc : ExecPc := .absent
  sem : Nat := 0
  log : List ExecEvent := []
deriving DecidableEq

/-- The steps of the two threads, and wakes from anywhere. -/
inductive ExecLabel where
  | load
  | enter
  | pollStart
  | pollEnd (ready : Bool)
  | take
  | exit
  | wake
deriving DecidableEq

/-- `k_sem_give` of a semaphore with limit 1. -/
def semGive (count : Nat) : Nat := if count < 1 then count + 1 else count

/-- `runtime_ble_load`, the loop of `block_on`, and a wake. -/
def execStep (s : Executor) : ExecLabel → Option Executor
  -- `runtime_ble_load`: the reset, and then the thread
  | .load =>
      if s.pc = .absent then some { pc := .starting, sem := 0, log := .reset :: s.log } else none
  | .enter => if s.pc = .starting then some { s with pc := .top } else none
  | .pollStart =>
      if s.pc = .top then some { s with pc := .polling, log := .pollStart :: s.log } else none
  | .pollEnd ready =>
      if s.pc = .polling then some { s with pc := if ready then .returned else .waiting } else none
  -- `k_sem_take` with no timeout
  | .take =>
      if s.pc = .waiting ∧ 0 < s.sem then
        some { pc := .top, sem := s.sem - 1, log := .take :: s.log }
      else none
  | .exit =>
      if s.pc = .starting ∨ s.pc = .returned then some { s with pc := .absent } else none
  | .wake => some { s with sem := semGive s.sem, log := .wake :: s.log }

/-- The machine from boot on. -/
def executor : Machine Executor ExecLabel where
  init s := s = {}
  step := execStep

/-- The thread is parked. -/
def Executor.Blocked (s : Executor) : Prop := s.pc = .waiting ∧ s.sem = 0

/-! ## Counting -/

/-- A round ends with a take; a load begins the first one anew. -/
def endsRound : ExecEvent → Bool
  | .take | .reset => true
  | .wake | .pollStart => false

/-- The wakes since the last take or reset. -/
def wakesInRound (log : List ExecEvent) : Nat := (since endsRound log).count .wake

/-- The polls begun since then. -/
def pollsInRound (log : List ExecEvent) : Nat := (since endsRound log).count .pollStart

/-- The wakes since the start of the most recent poll. -/
def wakesSincePoll (log : List ExecEvent) : Nat := (since (· = .pollStart) log).count .wake

section Count

variable (log : List ExecEvent)

@[simp] theorem wakesInRound_wake : wakesInRound (.wake :: log) = wakesInRound log + 1 := by
  rw [wakesInRound, since_cons_of_not rfl, List.count_cons_self]
  rfl

@[simp] theorem wakesInRound_poll : wakesInRound (.pollStart :: log) = wakesInRound log := by
  rw [wakesInRound, since_cons_of_not rfl, List.count_cons_of_ne (by decide)]
  rfl

@[simp] theorem wakesInRound_take : wakesInRound (.take :: log) = 0 := rfl

@[simp] theorem wakesInRound_reset : wakesInRound (.reset :: log) = 0 := rfl

@[simp] theorem pollsInRound_wake : pollsInRound (.wake :: log) = pollsInRound log := by
  rw [pollsInRound, since_cons_of_not rfl, List.count_cons_of_ne (by decide)]
  rfl

@[simp] theorem pollsInRound_poll : pollsInRound (.pollStart :: log) = pollsInRound log + 1 := by
  rw [pollsInRound, since_cons_of_not rfl, List.count_cons_self]
  rfl

@[simp] theorem pollsInRound_take : pollsInRound (.take :: log) = 0 := rfl

@[simp] theorem pollsInRound_reset : pollsInRound (.reset :: log) = 0 := rfl

@[simp] theorem wakesSincePoll_wake : wakesSincePoll (.wake :: log) = wakesSincePoll log + 1 := by
  rw [wakesSincePoll, since_cons_of_not rfl, List.count_cons_self]
  rfl

@[simp] theorem wakesSincePoll_poll : wakesSincePoll (.pollStart :: log) = 0 := rfl

end Count

/-! ## The invariant -/

/-- A take ends a round with a wake and exactly one poll. -/
def TakeInOrder (e : ExecEvent) (log : List ExecEvent) : Prop :=
  e = .take → 1 ≤ wakesInRound log ∧ pollsInRound log = 1

/-- The semaphore remembers whether the round has a wake; a round has its
poll when the thread is in it or waits behind it. -/
structure NoWakeLost (s : Executor) : Prop where
  sem : s.sem = min 1 (wakesInRound s.log)
  beforePoll : s.pc = .starting ∨ s.pc = .top → pollsInRound s.log = 0
  behindPoll : s.pc = .polling ∨ s.pc = .waiting →
    pollsInRound s.log = 1 ∧ wakesSincePoll s.log ≤ wakesInRound s.log
  rounds : EachEvent TakeInOrder s.log

theorem noWakeLost_step {s t : Executor} {l : ExecLabel} (h : NoWakeLost s)
    (hs : execStep s l = some t) : NoWakeLost t := by
  obtain ⟨hsem, hbefore, hbehind, hrounds⟩ := h
  cases l with
  | wake =>
      simp only [execStep, Option.some.injEq] at hs
      subst hs
      -- a wake more, which the semaphore counts or has counted
      refine ⟨?_, ?_, ?_, ⟨nofun, hrounds⟩⟩
      · simp only [hsem, semGive, wakesInRound_wake]
        split <;> omega
      · intro hpc
        simpa using hbefore hpc
      · intro hpc
        obtain ⟨hpolls, hle⟩ := hbehind hpc
        simp only [pollsInRound_wake, wakesSincePoll_wake, wakesInRound_wake]
        omega
  | load =>
      simp only [execStep, Option.ite_none_right_eq_some, Option.some.injEq] at hs
      obtain ⟨-, rfl⟩ := hs
      exact ⟨rfl, fun _ => rfl, nofun, ⟨nofun, hrounds⟩⟩
  | enter =>
      simp only [execStep, Option.ite_none_right_eq_some, Option.some.injEq] at hs
      obtain ⟨hpc, rfl⟩ := hs
      exact ⟨hsem, fun _ => hbefore (.inl hpc), nofun, hrounds⟩
  | pollStart =>
      simp only [execStep, Option.ite_none_right_eq_some, Option.some.injEq] at hs
      obtain ⟨hpc, rfl⟩ := hs
      -- the first poll of its round
      have hpolls := hbefore (.inr hpc)
      refine ⟨by simpa using hsem, nofun, fun _ => ?_, ⟨nofun, hrounds⟩⟩
      simp [hpolls]
  | pollEnd ready =>
      simp only [execStep, Option.ite_none_right_eq_some, Option.some.injEq] at hs
      obtain ⟨hpc, rfl⟩ := hs
      cases ready with
      | true => exact ⟨hsem, nofun, nofun, hrounds⟩
      | false => exact ⟨hsem, nofun, fun _ => hbehind (.inl hpc), hrounds⟩
  | take =>
      simp only [execStep, Option.ite_none_right_eq_some, Option.some.injEq] at hs
      obtain ⟨⟨hpc, hpos⟩, rfl⟩ := hs
      refine ⟨?_, fun _ => rfl, nofun, ⟨fun _ => ⟨?_, (hbehind (.inr hpc)).1⟩, hrounds⟩⟩
      · simp only [wakesInRound_take]
        omega
      · omega
  | exit =>
      simp only [execStep, Option.ite_none_right_eq_some, Option.some.injEq] at hs
      obtain ⟨-, rfl⟩ := hs
      exact ⟨hsem, nofun, nofun, hrounds⟩

theorem noWakeLost_of_reachable {s : Executor} (h : executor.Reachable s) : NoWakeLost s := by
  refine Machine.Reach.invariant (P := NoWakeLost) ?_ ?_ h
  · rintro s rfl
    exact ⟨rfl, nofun, nofun, trivial⟩
  · intro s l t h _ hs
    exact noWakeLost_step h hs

/-- **No wake-up is lost.** A parked thread has had no wake since its last
poll began. A thread that waits may go on exactly when there was a wake
since the last take (or the load); and from there to the next take there is
at least one wake, and exactly one poll. -/
theorem no_lost_wakeup {s : Executor} (h : executor.Reachable s) :
    (s.Blocked → wakesSincePoll s.log = 0)
    ∧ (s.pc = .waiting → ((execStep s .take).isSome ↔ 1 ≤ wakesInRound s.log))
    ∧ ∀ post mid start pre, s.log = post ++ .take :: (mid ++ start :: pre) →
        endsRound start = true → (∀ e ∈ mid, endsRound e = false) →
        1 ≤ mid.count .wake ∧ mid.count .pollStart = 1 := by
  obtain ⟨hsem, -, hbehind, hrounds⟩ := noWakeLost_of_reachable h
  refine ⟨?_, ?_, ?_⟩
  · intro ⟨hpc, hzero⟩
    have hle := (hbehind (.inr hpc)).2
    omega
  · intro hpc
    simp only [execStep, hpc, true_and]
    split
    · rename_i hpos
      exact iff_of_true rfl (by omega)
    · rename_i hpos
      exact iff_of_false nofun (by omega)
  · intro post mid start pre hlog hstart hmid
    rw [hlog] at hrounds
    have horder := hrounds.of_append rfl
    rwa [wakesInRound, pollsInRound, since_append_cons hmid hstart] at horder

/-- Two wakes during the first poll and one behind it make one take, and
the thread is parked after the next poll. -/
theorem no_lost_wakeup_parked :
    let s : Executor :=
      { pc := .waiting
        log := [.pollStart, .take, .wake, .wake, .wake, .pollStart, .reset] }
    (s.Blocked → wakesSincePoll s.log = 0)
    ∧ (s.pc = .waiting → ((execStep s .take).isSome ↔ 1 ≤ wakesInRound s.log))
    ∧ ∀ post mid start pre, s.log = post ++ .take :: (mid ++ start :: pre) →
        endsRound start = true → (∀ e ∈ mid, endsRound e = false) →
        1 ≤ mid.count .wake ∧ mid.count .pollStart = 1 := by
  apply no_lost_wakeup
  have hexec : executor.exec {}
      [.load, .enter, .pollStart, .wake, .wake, .pollEnd false, .wake, .take, .pollStart,
        .pollEnd false]
      = some
        { pc := .waiting
          log := [.pollStart, .take, .wake, .wake, .wake, .pollStart, .reset] } := by
    decide
  exact Machine.reach_of_execWhile (fun _ _ _ => trivial) (.start rfl) hexec

end RuntimeBle.Session
