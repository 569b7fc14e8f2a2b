import RuntimeBle.Lib.Desk
import RuntimeBle.Request.Handover

/-!
# Request — Sessions

One session after another. The request slots are statics: they outlive the
BLE thread, and `runtime_ble_run` finds them as they were left. It clears
`SEND_REQ`; the two flags of the L2CAP channels are cleared when a channel
opens.

A request carries the number of sessions that had begun when it was
accepted, a consumer the number of the session it works for.
-/

namespace RuntimeBle.Request

open RuntimeBle.Lib Mailbox

/-- The consumers of a session with `config.role`. The pump belongs to the
channels. -/
def Consumer.runsIn (b : Build) (role : UInt8) : Consumer → Bool
  | txLoop => !(b.central && role = 1)
  | l2capPump => b.l2cap
  | linkControl | bondAdmin => true
  | waitIdle | runScan | clientSession => b.central && (role = 1 || role = 2)

/-- The statics, with calls tagged by the session they were accepted in. -/
abbrev SessionDesk := Desk Slot Word Buf (ApiCall × Nat) (Consumer × Nat) Outcome

/-- `disconnectReq` is `L2CAP_DISCONNECT_REQ` with the number of the call
that set it last; `closed` lists the disconnects carried out, each with the
number of its call and of the session that closed the channel. -/
structure SessionState where
  desk : SessionDesk
  disconnectReq : Option Nat := none
  closed : List (Nat × Nat) := []
  running : Option UInt8 := none
  channels : Nat := 0
  count : Nat := 0

/-- Sessions and channels come and go, and calls are made. -/
inductive SessionLabel where
  | run (role : UInt8)
  | exit
  | channelOpens
  | channelCloses
  | call (a : ApiCall)
  | l2capDisconnect
  | poll (k : Consumer)

namespace SessionState

/-- Before the first session. -/
def start (p : ReqParams) : SessionState := { desk := Desk.start p }

/-- A store of `false` to a flag. -/
def clear (s : SessionState) (slot : Slot) : SessionState :=
  { s with desk := { s.desk with slot := Function.update s.desk.slot slot none } }

/-- The send loop of `l2cap_serve` looks at `L2CAP_DISCONNECT_REQ` first. -/
def takeDisconnect (s : SessionState) : SessionState :=
  match s.disconnectReq with
  | none => s
  | some n =>
      { s.clear .l2capSendReq with
        disconnectReq := none
        closed := s.closed ++ [(n, s.count)] }

/-- A consumer serves its slot. -/
def serve (b : Build) (isValid : RequestedConnParams → Bool) (s : SessionState) (k : Consumer) :
    SessionState :=
  { s with desk := s.desk.serve (mailbox b isValid).tagged (k, s.count) }

/-- The consumer is being polled. -/
def active (b : Build) (s : SessionState) (k : Consumer) : Bool :=
  s.running.any (fun role => k.runsIn b role) && (k ≠ .l2capPump || s.channels ≠ 0)

end SessionState

/-- One step; what is not possible in a state changes nothing. -/
def sessionStep (b : Build) (isValid : RequestedConnParams → Bool) (s : SessionState) :
    SessionLabel → SessionState
  -- `runtime_ble_run`
  | .run role =>
      if s.running.isNone then
        { s.clear .sendReq with running := some role, count := s.count + 1 }
      else s
  | .exit => { s with running := none, channels := 0 }
  -- `l2cap_serve`
  | .channelOpens =>
      if s.running.isSome && b.l2cap then
        { s.clear .l2capSendReq with disconnectReq := none, channels := s.channels + 1 }
      else s
  | .channelCloses => { s with channels := s.channels - 1 }
  | .call a =>
      match a.entry b with
      | .error _ => s
      | .ok c => { s with desk := (s.desk.call (a, s.count) c).2 }
  | .l2capDisconnect => if b.l2cap then { s with disconnectReq := some s.count } else s
  | .poll k =>
      if s.active b k then
        if k = .l2capPump then s.takeDisconnect.serve b isValid k else s.serve b isValid k
      else s

/-! ## The two halves of the property -/

/-- No request was carried out by a session that began after it was
accepted. -/
structure InSession (s : SessionState) : Prop where
  served : ∀ r k o, (r, k, o) ∈ s.desk.served → k.2 ≤ r.2
  closed : ∀ n m, (n, m) ∈ s.closed → m ≤ n

/-- Every request slot is empty. -/
def SessionState.AllEmpty (s : SessionState) : Prop :=
  (∀ slot, s.desk.slot slot = none) ∧ s.disconnectReq = none

/-- A session begins with every request slot empty. -/
def BeginsEmpty (b : Build) (isValid : RequestedConnParams → Bool) (s : SessionState) :
    SessionLabel → Prop
  | .run role => s.running = none → (sessionStep b isValid s (.run role)).AllEmpty
  | _ => True

/-- A session begins when nothing is left in the slots `runtime_ble_run`
does not clear. -/
def NothingLeft (s : SessionState) : SessionLabel → Prop
  | .run _ =>
      s.running = none →
        (∀ slot ≠ .sendReq, s.desk.slot slot = none) ∧ s.disconnectReq = none
  | _ => True

/-- The same of the slots whose commands are carried out without a look at
when they were queued. -/
def NoCommandLeft (s : SessionState) : SessionLabel → Prop
  | .run _ => s.running = none → ∀ slot ∈ [Slot.linkCmd, .bondCmd, .centralCmd],
      s.desk.slot slot = none
  | _ => True

/-! ## The invariant -/

/-- What is queued in the slot was accepted in the session that runs. -/
def SessionState.Current (s : SessionState) (slot : Slot) : Prop :=
  ∀ q, s.desk.slot slot = some q → s.count ≤ q.req.2

/-- The slots of a session hold its own requests; those of the channels do
so while one is open. -/
structure OwnRequests (s : SessionState) : Prop extends InSession s where
  own : s.running.isSome → ∀ slot ≠ .l2capSendReq, s.Current slot
  channel : s.channels ≠ 0 → s.Current .l2capSendReq ∧ ∀ n, s.disconnectReq = some n → s.count ≤ n
  idle : s.running = none → s.channels = 0

variable {b : Build} {isValid : RequestedConnParams → Bool} {s : SessionState}

theorem current_clear {slot slot' : Slot} (h : slot' = slot ∨ s.Current slot') :
    (s.clear slot).Current slot' := by
  intro q hq
  by_cases hs : slot' = slot
  · simp [SessionState.clear, hs] at hq
  · exact h.resolve_left hs q (by simpa [SessionState.clear, hs] using hq)

theorem ownRequests_start (p : ReqParams) : OwnRequests (.start p) where
  served _ _ _ h := by cases h
  closed _ _ h := by cases h
  own h := by cases h
  channel h := absurd rfl h
  idle _ := rfl

namespace OwnRequests

/-- A new session finds its slots empty. -/
theorem run (h : OwnRequests s) (role : UInt8) (hl : NoCommandLeft s (.run role)) :
    OwnRequests (sessionStep b isValid s (.run role)) := by
  simp only [sessionStep]
  split
  · rename_i hnone
    rw [Option.isNone_iff_eq_none] at hnone
    refine ⟨⟨h.served, h.closed⟩, ?_, ?_, ?_⟩
    · intro _ slot hslot q hq
      by_cases hsend : slot = .sendReq
      · simp [SessionState.clear, hsend] at hq
      · have hempty : s.desk.slot slot = none := by
          apply hl hnone slot
          cases slot with
          | sendReq => exact absurd rfl hsend
          | l2capSendReq => exact absurd rfl hslot
          | linkCmd | bondCmd | centralCmd => decide
        have hold : s.desk.slot slot = some q := by
          simpa [SessionState.clear, hsend] using hq
        rw [hempty] at hold
        cases hold
    · exact fun hchannels => absurd (h.idle hnone) hchannels
    · intro hrun
      cases hrun
  · exact h

theorem channelOpens (h : OwnRequests s) : OwnRequests (sessionStep b isValid s .channelOpens) := by
  simp only [sessionStep]
  split
  · rename_i hcond
    rw [Bool.and_eq_true] at hcond
    refine ⟨⟨h.served, h.closed⟩, ?_, ?_, ?_⟩
    · exact fun hrun slot hslot => current_clear (.inr (h.own hrun slot hslot))
    · exact fun _ => ⟨current_clear (.inl rfl), fun _ hn => (by cases hn)⟩
    · intro hnone
      rw [show s.running = none from hnone] at hcond
      cases hcond.1
  · exact h

/-- A request carries the number of the session it is accepted in. -/
theorem called {a : ApiCall} {c : ReqCall} (h : OwnRequests s) :
    OwnRequests { s with desk := (s.desk.call (a, s.count) c).2 } := by
  cases hfree : s.desk.slot c.slot with
  | some q =>
      simp only [Desk.call, hfree]
      exact { h with }
  | none =>
      have hcurrent : ∀ slot, s.Current slot →
          SessionState.Current { s with desk := (s.desk.call (a, s.count) c).2 } slot := by
        intro slot hold q hq
        simp only [Desk.call, hfree] at hq
        by_cases hs : slot = c.slot
        · simp only [hs, Function.update_self, Option.some.injEq] at hq
          exact hq ▸ Nat.le_refl _
        · exact hold q (by simpa [hs] using hq)
      refine ⟨⟨?_, h.closed⟩, ?_, ?_, h.idle⟩
      · simp only [Desk.call, hfree]
        exact h.served
      · exact fun hrun slot hslot => hcurrent slot (h.own hrun slot hslot)
      · exact fun hopen => ⟨hcurrent _ (h.channel hopen).1, (h.channel hopen).2⟩

/-- A consumer that finds only requests of the session serves one. -/
theorem served' (h : OwnRequests s) {k : Consumer} (hk : s.Current k.slotOf) :
    OwnRequests (s.serve b isValid k) := by
  cases hq : s.desk.slot k.slotOf with
  | none =>
      have hnop : s.serve b isValid k = s := by
        simp only [SessionState.serve, Desk.serve]
        rw [show s.desk.slot ((mailbox b isValid).tagged.slotOf (k, s.count)) = none from hq]
      rw [hnop]
      exact h
  | some q =>
      have hserve : s.serve b isValid k
          = { s with desk := { s.desk with
                slot := Function.update s.desk.slot k.slotOf none
                served := s.desk.served ++ [(q.req, (k, s.count),
                  ((mailbox b isValid).handle k q.cmd).eval s.desk.params)] } } := by
        simp only [SessionState.serve, Desk.serve]
        rw [show s.desk.slot ((mailbox b isValid).tagged.slotOf (k, s.count)) = some q from hq]
        rfl
      rw [hserve]
      have hcurrent : ∀ slot, s.Current slot → (s.clear k.slotOf).Current slot :=
        fun slot hold => current_clear (.inr hold)
      refine ⟨⟨?_, h.closed⟩, ?_, ?_, h.idle⟩
      · intro r k' o hmem
        rcases List.mem_append.mp hmem with hold | hnew
        · exact h.served r k' o hold
        · simp only [List.mem_singleton, Prod.mk.injEq] at hnew
          obtain ⟨rfl, rfl, -⟩ := hnew
          exact hk q hq
      · exact fun hrun slot hslot => hcurrent slot (h.own hrun slot hslot)
      · exact fun hopen => ⟨hcurrent _ (h.channel hopen).1, (h.channel hopen).2⟩

theorem takeDisconnect (h : OwnRequests s) (hopen : s.channels ≠ 0) :
    OwnRequests s.takeDisconnect ∧ s.takeDisconnect.Current .l2capSendReq := by
  unfold SessionState.takeDisconnect
  split
  · exact ⟨h, (h.channel hopen).1⟩
  · rename_i n hn
    refine ⟨?_, current_clear (.inl rfl)⟩
    refine ⟨⟨h.served, ?_⟩, ?_, ?_, h.idle⟩
    · intro n' m hmem
      rcases List.mem_append.mp hmem with hold | hnew
      · exact h.closed n' m hold
      · simp only [List.mem_singleton, Prod.mk.injEq] at hnew
        obtain ⟨rfl, rfl⟩ := hnew
        exact (h.channel hopen).2 _ hn
    · exact fun hrun slot hslot => current_clear (.inr (h.own hrun slot hslot))
    · exact fun _ => ⟨current_clear (.inl rfl), fun _ hnone => (by cases hnone)⟩

theorem polled (h : OwnRequests s) (k : Consumer) :
    OwnRequests (sessionStep b isValid s (.poll k)) := by
  simp only [sessionStep]
  split
  · rename_i hactive
    simp only [SessionState.active, Bool.and_eq_true, Bool.or_eq_true, decide_eq_true_eq]
      at hactive
    obtain ⟨hrun, hopen⟩ := hactive
    have hrunning : s.running.isSome := by
      cases hr : s.running with
      | none => simp [hr] at hrun
      | some role => rfl
    split
    · rename_i hpump
      subst hpump
      obtain ⟨htaken, hcurrent⟩ := h.takeDisconnect (hopen.resolve_left fun hne => hne rfl)
      exact htaken.served' hcurrent
    · rename_i hpump
      refine h.served' (h.own hrunning _ ?_)
      cases k with
      | l2capPump => exact absurd rfl hpump
      | _ => decide
  · exact h

theorem step (l : SessionLabel) (h : OwnRequests s) (hl : NoCommandLeft s l) :
    OwnRequests (sessionStep b isValid s l) := by
  cases l with
  | run role => exact h.run role hl
  | exit =>
      refine ⟨⟨h.served, h.closed⟩, ?_, fun hopen => absurd rfl hopen, fun _ => rfl⟩
      intro hrun
      cases hrun
  | channelOpens => exact h.channelOpens
  | channelCloses =>
      refine ⟨⟨h.served, h.closed⟩, h.own, fun hopen => h.channel fun hzero => hopen ?_, ?_⟩
      · show s.channels - 1 = 0
        omega
      · intro hnone
        have hzero := h.idle hnone
        show s.channels - 1 = 0
        omega
  | call a =>
      simp only [sessionStep]
      split
      · exact h
      · exact h.called
  | l2capDisconnect =>
      simp only [sessionStep]
      split
      · refine ⟨⟨h.served, h.closed⟩, h.own, fun hopen => ⟨(h.channel hopen).1, ?_⟩, h.idle⟩
        intro n hn
        cases hn
        exact Nat.le_refl _
      · exact h
  | poll k => exact h.polled k

end OwnRequests

/-! ## Runs -/

/-- Commands left over are all that can cross into a session: notifications
and what belongs to the channels never do. -/
theorem inSession_of_noCommandLeft {p : ReqParams} {ops : List SessionLabel}
    (h : EachStep (sessionStep b isValid) NoCommandLeft (.start p) ops) :
    Always (sessionStep b isValid) InSession (.start p) ops :=
  (EachStep.always (fun _ l hs hl => OwnRequests.step l hs hl) (ownRequests_start p) h).mono
    fun _ hs => hs.toInSession

theorem noCommandLeft_of_nothingLeft (l : SessionLabel) (h : NothingLeft s l) :
    NoCommandLeft s l := by
  cases l with
  | run role =>
      intro hnone slot hslot
      apply (h hnone).1 slot
      rintro rfl
      simp at hslot
  | _ => trivial

/-- `runtime_ble_run` empties one slot. -/
theorem beginsEmpty_iff (l : SessionLabel) : BeginsEmpty b isValid s l ↔ NothingLeft s l := by
  cases l with
  | run role =>
      refine imp_congr_right fun hnone => ?_
      simp only [sessionStep, hnone, Option.isNone_none, ↓reduceIte, SessionState.AllEmpty]
      refine and_congr_left fun _ => forall_congr' fun slot => ?_
      by_cases hsend : slot = .sendReq
      · simp [SessionState.clear, hsend]
      · simp [SessionState.clear, hsend]
  | _ => exact Iff.rfl

/-- **Requests keep to their session, and sessions begin with empty slots,
exactly in the runs** in which no session begins with anything queued in a
slot other than `SEND_REQ`. -/
theorem requests_keep_session_iff (b : Build) (isValid : RequestedConnParams → Bool)
    (p : ReqParams) (ops : List SessionLabel) :
    (Always (sessionStep b isValid) InSession (.start p) ops
        ∧ EachStep (sessionStep b isValid) (BeginsEmpty b isValid) (.start p) ops)
      ↔ EachStep (sessionStep b isValid) NothingLeft (.start p) ops := by
  constructor
  · intro h
    exact h.2.imp fun _ l => (beginsEmpty_iff l).mp
  · intro h
    refine ⟨inSession_of_noCommandLeft (h.imp fun _ l => noCommandLeft_of_nothingLeft l), ?_⟩
    exact h.imp fun _ l => (beginsEmpty_iff l).mpr

/-- A bond deletion asked for before any session is carried out by the
first one. -/
theorem bondDelete_crosses_session :
    ¬ ∀ (b : Build) (isValid : RequestedConnParams → Bool) (p : ReqParams)
        (ops : List SessionLabel), Always (sessionStep b isValid) InSession (.start p) ops := by
  intro h
  let run : List SessionLabel := [.call (.bondDelete 0), .run 0, .poll .bondAdmin]
  have hlast := (h {} (fun _ => true) bootMem.params run).2.2.2
  have hserved := hlast.served (.bondDelete 0, 0) (.bondAdmin, 1) (.bondAdmin (.delete 0))
    (by decide)
  exact absurd hserved (by decide)

end RuntimeBle.Request
