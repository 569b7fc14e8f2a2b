import RuntimeBle.Lib.History
import RuntimeBle.Request.Handover

/-!
# Link — Channel

`l2cap_serve` on one channel, access by access, and the calls of
`runtime_ble_l2cap_send` and `runtime_ble_l2cap_disconnect` beside it.

One channel is open, and one caller is at work at a time: calls are made one
after the other, at any point of the pump; from inside a callback they come
where the pump stands then. The receiving half is left out, but that it may
end the channel.
-/

namespace RuntimeBle.Link

open RuntimeBle.Lib RuntimeBle.Request

/-! ## States -/

/-- Where `l2cap_serve` is: at its start, behind `on_l2cap_connected` with
the two flags to be reset, in the loop of `send`, and behind
`on_l2cap_disconnected`. -/
inductive PumpPc where
  | start
  | opened
  | clearing
  | polling
  | disconnecting
  | polled
  | reading (fetch : ReqFetch (List UInt8))
  | sending
  | sleeping
  | closed

/-- `on_l2cap_connected` has been invoked, `on_l2cap_disconnected` has not. -/
def PumpPc.isOpen : PumpPc → Bool
  | .start | .closed => false
  | _ => true

/-- `L2CAP_SEND_REQ` is reset, too. -/
def PumpPc.isReset : PumpPc → Bool
  | .start | .opened | .closed => false
  | _ => true

/-- The pump is in its loop. -/
def PumpPc.isLooping : PumpPc → Bool
  | .start | .opened | .clearing | .closed => false
  | _ => true

/-- `select3` may be left: none of the three is at work. -/
def PumpPc.awaits : PumpPc → Bool
  | .polling | .sending | .sleeping => true
  | _ => false

/-- What callers are promised, and what the pump does for it. -/
inductive ChannelEvent where
  | accepted (sdu : List UInt8)
  | passed (bytes : List UInt8)
  | disconnectAccepted
  | disconnected
deriving DecidableEq

/-- A call of `runtime_ble_l2cap_send` behind its busy test. -/
structure Sending where
  sdu : List UInt8
  call : ReqCall
  todo : List (Put Word Buf)

/-- The one channel that is open, and the one call under way. The log is of the
time the channel is open, the newest event first. -/
structure Channel where
  mem : ReqMem
  disconnectReq : Bool
  caller : Option Sending
  pc : PumpPc
  log : List ChannelEvent

/-- `l2cap_serve` is entered, with the statics as they are. -/
def Channel.entered (mem : ReqMem) (disconnectReq : Bool) : Channel where
  mem
  disconnectReq
  caller := none
  pc := .start
  log := []

/-- The channel is closed for a request. -/
def ChannelEvent.isDisconnected : ChannelEvent → Bool
  | .disconnected => true
  | _ => false

/-- The SDUs that are accepted, the newest first. -/
def accepted (log : List ChannelEvent) : List (List UInt8) :=
  log.filterMap fun
    | .accepted sdu => some sdu
    | _ => none

/-- What is passed to the channel writer, the newest first. -/
def passed (log : List ChannelEvent) : List (List UInt8) :=
  log.filterMap fun
    | .passed bytes => some bytes
    | _ => none

/-- A disconnect request was accepted and the writer has not disconnected
since. -/
def Unanswered (log : List ChannelEvent) : Prop :=
  .disconnectAccepted ∈ since ChannelEvent.isDisconnected log

section Log

variable {log : List ChannelEvent} {bytes : List UInt8}

@[simp] theorem accepted_nil : accepted [] = [] := rfl

@[simp] theorem accepted_accepted : accepted (.accepted bytes :: log) = bytes :: accepted log := rfl

@[simp] theorem accepted_passed : accepted (.passed bytes :: log) = accepted log := rfl

@[simp] theorem accepted_disconnectAccepted :
    accepted (.disconnectAccepted :: log) = accepted log := rfl

@[simp] theorem accepted_disconnected : accepted (.disconnected :: log) = accepted log := rfl

@[simp] theorem passed_nil : passed [] = [] := rfl

@[simp] theorem passed_accepted : passed (.accepted bytes :: log) = passed log := rfl

@[simp] theorem passed_passed : passed (.passed bytes :: log) = bytes :: passed log := rfl

@[simp] theorem passed_disconnectAccepted : passed (.disconnectAccepted :: log) = passed log := rfl

@[simp] theorem passed_disconnected : passed (.disconnected :: log) = passed log := rfl

theorem not_unanswered_nil : ¬ Unanswered [] := List.not_mem_nil

theorem Unanswered.mem (h : Unanswered log) : .disconnectAccepted ∈ log :=
  (List.takeWhile_prefix _).mem h

@[simp] theorem unanswered_accepted : Unanswered (.accepted bytes :: log) ↔ Unanswered log := by
  rw [Unanswered, since_cons_of_not rfl, List.mem_cons]
  exact or_iff_right ChannelEvent.noConfusion

@[simp] theorem unanswered_passed : Unanswered (.passed bytes :: log) ↔ Unanswered log := by
  rw [Unanswered, since_cons_of_not rfl, List.mem_cons]
  exact or_iff_right ChannelEvent.noConfusion

@[simp] theorem unanswered_disconnectAccepted : Unanswered (.disconnectAccepted :: log) := by
  rw [Unanswered, since_cons_of_not rfl]
  exact List.mem_cons_self

@[simp] theorem not_unanswered_disconnected : ¬ Unanswered (.disconnected :: log) := by
  rw [Unanswered, since_cons_of_stop rfl]
  exact List.not_mem_nil

end Log

/-! ## Steps -/

/-- `run` is the next access of the pump, `act` that of the call under way;
`close` ends the receiving half or unloads. -/
inductive ChannelStep where
  | run
  | enter (data : Option (List UInt8))
  | act
  | disconnect
  | close
deriving DecidableEq

namespace Channel

variable (b : Build) (s : Channel)

/-- What happens while the channel is not open is not logged. -/
def record (e : ChannelEvent) : Channel :=
  if s.pc.isOpen then { s with log := e :: s.log } else s

/-- `L2CAP_SEND_REQ.store(false)`. -/
def freed : ReqMem := { s.mem with slot := Function.update s.mem.slot .l2capSendReq 0 }

/-- The next access of `l2cap_serve`'s pump. -/
def pump : Channel :=
  match s.pc with
  | .start => { s with pc := .opened }
  | .opened => { s with mem := s.freed, pc := .clearing }
  | .clearing => { s with disconnectReq := false, pc := .polling }
  | .polling =>
      { s with disconnectReq := false, pc := if s.disconnectReq then .disconnecting else .polled }
  | .disconnecting => { s with mem := s.freed, pc := .polled, log := .disconnected :: s.log }
  | .polled =>
      { s with pc := if s.mem.slot .l2capSendReq ≠ 0 then .reading (l2capPump b) else .sleeping }
  -- the slot is free before `writer.send` is awaited
  | .reading (.done bytes) =>
      { s with mem := s.freed, pc := .sending, log := .passed bytes :: s.log }
  | .reading fetch => { s with pc := .reading (fetch.step s.mem.params) }
  | .sending => { s with pc := .sleeping }
  | .sleeping => { s with pc := .polling }
  | .closed => s

/-- `runtime_ble_l2cap_send` up to its busy test; refused calls leave no
trace. -/
def enterSend (data : Option (List UInt8)) : Channel :=
  match s.caller, runtimeBleL2capSend b data with
  | none, .ok call =>
      if s.mem.slot call.slot ≠ 0 then s
      else { s with caller := some { sdu := data.getD [], call, todo := call.late } }
  | _, _ => s

/-- A write of the call under way. -/
def written (c : Sending) (x : Put Word Buf) (todo : List (Put Word Buf)) : Channel :=
  { s with
    mem := { s.mem with params := s.mem.params.put x }
    caller := some { c with todo } }

/-- The last access of the call: the command into the slot. -/
def requested (c : Sending) : Channel :=
  { s with
    mem := { s.mem with slot := Function.update s.mem.slot c.call.slot c.call.cmd }
    caller := none }

/-- The next access of the call under way. -/
def act : Channel :=
  match s.caller with
  | none => s
  | some c =>
      match c.todo with
      | x :: todo => s.written c x todo
      | [] => (s.requested c).record (.accepted c.sdu)

/-- `runtime_ble_l2cap_disconnect`. -/
def disconnect : Channel :=
  if b.l2cap then record { s with disconnectReq := true } .disconnectAccepted else s

/-- The channel ends, where the pump awaits something. -/
def close : Channel := if s.pc.awaits then { s with pc := .closed } else s

/-- A step of the pump, of the caller or of the link. -/
def step : ChannelStep → Channel
  | .run => s.pump b
  | .enter data => s.enterSend b data
  | .act => s.act
  | .disconnect => s.disconnect b
  | .close => s.close

/-! ## What the application is told -/

/-- More accesses than a lap of the pump has. -/
def lap : Nat := 8

/-- The requests accepted so far are served. `passes` and `disconnects`
speak of every way to go on: in a lap of the pump, whatever else is called
meanwhile, what is accepted is passed on and the writer disconnects. -/
structure Faithful : Prop where
  once : (passed s.log).Sublist ((accepted s.log).map (List.take b.valueLen))
  inOrder : .disconnectAccepted ∉ s.log → passed s.log <:+ accepted s.log
  passes : s.pc ≠ .closed → .disconnectAccepted ∉ s.log → ∀ is : List ChannelStep,
    .close ∉ is → .disconnect ∉ is → lap ≤ is.count .run →
      accepted s.log <:+ passed (is.foldl (step b) s).log
  disconnects : s.pc ≠ .closed → Unanswered s.log → ∀ is : List ChannelStep,
    .close ∉ is → lap ≤ is.count .run →
      ∃ later, (is.foldl (step b) s).log = later ++ s.log ∧ .disconnected ∈ later

/-- For the one channel and the one caller at work: the step does not come too
early, nor is its SDU too long. An SDU is accepted behind the reset of
`L2CAP_SEND_REQ` and fits a value, unless the channel is to be disconnected; a
disconnect request is accepted behind the reset of `L2CAP_DISCONNECT_REQ`. -/
def InTime : ChannelStep → Prop
  | .act =>
      s.pc.isOpen = true → .disconnectAccepted ∉ s.log →
        ∀ c, s.caller = some c → c.todo = [] → s.pc.isReset = true ∧ c.sdu.length ≤ b.valueLen
  | .disconnect => b.l2cap = true → s.pc.isOpen = true → s.pc.isLooping = true
  | _ => True

/-! ## What every run keeps -/

/-- What the pump reads for an SDU that stands in the buffer. -/
abbrev standing : List UInt8 := (l2capPump b).eval s.mem.params

/-- The SDU that is accepted and not yet passed on. -/
def awaited : List (List UInt8) :=
  if s.pc.isReset = true ∧ s.mem.slot .l2capSendReq ≠ 0 then [s.standing b] else []

/-- A call under way has the slot for itself, and a fetch the buffer; what
is passed on was accepted. -/
structure Sound : Prop where
  calling : ∀ c, s.caller = some c → runtimeBleL2capSend b (some c.sdu) = .ok c.call ∧
    s.mem.slot .l2capSendReq = 0 ∧
    (l2capPump b).eval (s.mem.params.puts c.todo) = c.sdu.take b.valueLen
  reading : ∀ fetch, s.pc = .reading fetch →
    s.mem.slot .l2capSendReq ≠ 0 ∧ fetch.eval s.mem.params = s.standing b ∧
      fetch.accesses s.mem.params ≤ 2
  once : (s.awaited b ++ passed s.log).Sublist ((accepted s.log).map (List.take b.valueLen))

variable {b : Build} {s : Channel}

theorem freed_slot : s.freed.slot .l2capSendReq = 0 := by simp [freed]

theorem awaited_of_free (h : s.mem.slot .l2capSendReq = 0) : s.awaited b = [] :=
  if_neg fun hs => hs.2 h

theorem awaited_of_not_isReset (h : s.pc.isReset = false) : s.awaited b = [] := by
  refine if_neg fun hs => ?_
  rw [h] at hs
  exact Bool.false_ne_true hs.1

theorem once_of_free (h : s.mem.slot .l2capSendReq = 0)
    (hlog : (passed s.log).Sublist ((accepted s.log).map (List.take b.valueLen))) :
    (s.awaited b ++ passed s.log).Sublist ((accepted s.log).map (List.take b.valueLen)) := by
  rw [awaited_of_free h]
  exact hlog

theorem Sound.entered (mem : ReqMem) (disconnectReq : Bool) :
    (entered mem disconnectReq).Sound b where
  calling := nofun
  reading := nofun
  once := List.Sublist.refl []

/-- The pump goes on, past no reset. -/
theorem Sound.setPc (h : s.Sound b) {pc : PumpPc} {disconnectReq : Bool}
    (hreading : ∀ fetch, pc ≠ .reading fetch) (hreset : pc.isReset = true → s.pc.isReset = true) :
    ({ s with pc, disconnectReq } : Channel).Sound b where
  calling := h.calling
  reading fetch hfetch := absurd hfetch (hreading fetch)
  once := by
    apply List.Sublist.trans _ h.once
    unfold awaited
    split
    · rename_i hs
      rw [if_pos ⟨hreset hs.1, hs.2⟩]
    · exact List.sublist_append_right ..

/-- The pump clears the flag. -/
theorem Sound.setFreed (h : s.Sound b) {pc : PumpPc} {log : List ChannelEvent}
    (hreading : ∀ fetch, pc ≠ .reading fetch)
    (hlog : (passed log).Sublist ((accepted log).map (List.take b.valueLen))) :
    ({ s with mem := s.freed, pc, log } : Channel).Sound b where
  calling c hc := by
    obtain ⟨hcall, -, hputs⟩ := h.calling c hc
    exact ⟨hcall, freed_slot, hputs⟩
  reading fetch hfetch := absurd hfetch (hreading fetch)
  once := once_of_free freed_slot hlog

/-- With the slot taken there is no call past its busy test. -/
theorem Sound.caller_eq_none (h : s.Sound b) (hslot : s.mem.slot .l2capSendReq ≠ 0) :
    s.caller = none := by
  by_contra hsome
  obtain ⟨c, hc⟩ := Option.ne_none_iff_exists'.mp hsome
  exact hslot (h.calling c hc).2.1

/-- What is passed on is what was accepted. -/
theorem Sound.once_passed (h : s.Sound b) :
    (passed s.log).Sublist ((accepted s.log).map (List.take b.valueLen)) :=
  (List.sublist_append_right ..).trans h.once

theorem Sound.pump (h : s.Sound b) : (s.pump b).Sound b := by
  unfold Channel.pump
  split
  case h_1 => exact h.setPc nofun nofun
  case h_2 => exact h.setFreed nofun h.once_passed
  case h_3 hpc => exact h.setPc nofun fun _ => by rw [hpc]; rfl
  case h_4 hpc =>
    cases s.disconnectReq
    · exact h.setPc nofun fun _ => by rw [hpc]; rfl
    · exact h.setPc nofun fun _ => by rw [hpc]; rfl
  case h_5 => exact h.setFreed nofun h.once_passed
  case h_6 hpc =>
    split
    · rename_i hslot
      refine ⟨h.calling, ?_, ?_⟩
      · rintro fetch ⟨⟩
        exact ⟨hslot, rfl, Nat.le_refl 2⟩
      · have honce := h.once
        rw [awaited, if_pos ⟨by rw [hpc]; rfl, hslot⟩] at honce
        rw [awaited, if_pos ⟨rfl, hslot⟩]
        exact honce
    · exact h.setPc nofun fun _ => by rw [hpc]; rfl
  case h_7 bytes hpc =>
    obtain ⟨hslot, hbytes, -⟩ := h.reading _ hpc
    have honce := h.once
    rw [awaited, if_pos ⟨by rw [hpc]; rfl, hslot⟩, ← hbytes] at honce
    exact h.setFreed nofun honce
  case h_8 fetch hmore hpc =>
    obtain ⟨hslot, hfetch, hleft⟩ := h.reading _ hpc
    refine ⟨h.calling, ?_, ?_⟩
    · rintro fetch' ⟨⟩
      have hless := Fetch.accesses_step (p := s.mem.params) hmore
      exact ⟨hslot, (Fetch.eval_step fetch).trans hfetch, by dsimp only; omega⟩
    · have honce := h.once
      rw [awaited, if_pos ⟨by rw [hpc]; rfl, hslot⟩] at honce
      rw [awaited, if_pos ⟨rfl, hslot⟩]
      exact honce
  case h_9 hpc => exact h.setPc nofun fun _ => by rw [hpc]; rfl
  case h_10 hpc => exact h.setPc nofun fun _ => by rw [hpc]; rfl
  case h_11 => exact h

/-- Once all is written, the pump reads the SDU, as far as it carries it. -/
theorem eval_late {data : Option (List UInt8)} {call : ReqCall} {p : ReqParams}
    (h : runtimeBleL2capSend b data = .ok call) :
    runtimeBleL2capSend b (some (data.getD [])) = .ok call ∧
      (l2capPump b).eval (p.puts call.late) = (data.getD []).take b.valueLen := by
  have hasks := handover_l2cap (a := .l2capSend data) (p := p) h rfl
  obtain ⟨sdu, rfl, -, -, rfl⟩ := l2capSend_ok h
  exact ⟨h, hasks⟩

theorem Sound.enterSend (h : s.Sound b) (data : Option (List UInt8)) :
    (s.enterSend b data).Sound b := by
  unfold Channel.enterSend
  split
  · rename_i call hcaller hcall
    split
    · exact h
    · rename_i hslot
      have hfree : call.slot = .l2capSendReq := by
        obtain ⟨sdu, -, -, -, rfl⟩ := l2capSend_ok hcall
        rfl
      rw [hfree, not_not] at hslot
      refine ⟨?_, h.reading, h.once⟩
      rintro c ⟨⟩
      obtain ⟨hsdu, hlate⟩ := eval_late (p := s.mem.params) hcall
      exact ⟨hsdu, hslot, hlate⟩
  · exact h

/-- What an access of the call under way can do. -/
theorem act_cases (s : Channel) : s.act = s ∨
    ∃ c, s.caller = some c ∧
      ((∃ x todo, c.todo = x :: todo ∧ s.act = s.written c x todo) ∨
        c.todo = [] ∧ s.act = (s.requested c).record (.accepted c.sdu)) := by
  unfold act
  split
  · exact .inl rfl
  · rename_i c hc
    split
    · rename_i x todo htodo
      exact .inr ⟨c, hc, .inl ⟨x, todo, htodo, rfl⟩⟩
    · rename_i htodo
      exact .inr ⟨c, hc, .inr ⟨htodo, rfl⟩⟩

theorem record_of_open (s : Channel) {e : ChannelEvent} (h : s.pc.isOpen = true) :
    s.record e = { s with log := e :: s.log } := if_pos h

theorem record_of_not_open (s : Channel) {e : ChannelEvent} (h : s.pc.isOpen = false) :
    s.record e = s :=
  if_neg (by rw [h]; exact Bool.false_ne_true)

theorem PumpPc.isReset_of_not_isOpen {pc : PumpPc} (h : pc.isOpen = false) :
    pc.isReset = false := by
  cases pc <;> first | rfl | cases h

theorem PumpPc.isLooping_of_not_isOpen {pc : PumpPc} (h : pc.isOpen = false) :
    pc.isLooping = false := by
  cases pc <;> first | rfl | cases h

section Request

variable {c : Sending} (hcall : runtimeBleL2capSend b (some c.sdu) = .ok c.call)
include hcall

theorem requested_slot : (s.requested c).mem.slot .l2capSendReq ≠ 0 := by
  obtain ⟨sdu, -, -, -, hc⟩ := l2capSend_ok hcall
  simp [requested, hc]

/-- With the flag set the SDU is awaited, if the pump is past the reset. -/
theorem awaited_requested (hputs : s.standing b = c.sdu.take b.valueLen) :
    (s.requested c).awaited b = if s.pc.isReset = true then [c.sdu.take b.valueLen] else [] := by
  by_cases hreset : s.pc.isReset = true
  · rw [if_pos hreset, awaited, if_pos ⟨hreset, requested_slot hcall⟩, ← hputs]
    rfl
  · rw [if_neg hreset, awaited, if_neg fun hs => hreset hs.1]

end Request

theorem Sound.act (h : s.Sound b) : s.act.Sound b := by
  obtain heq | ⟨c, hc, ⟨x, todo, htodo, heq⟩ | ⟨htodo, heq⟩⟩ := act_cases s
  · rw [heq]
    exact h
  · obtain ⟨hcall, hslot, hputs⟩ := h.calling c hc
    rw [heq]
    refine ⟨?_, fun fetch hfetch => absurd hslot (h.reading fetch hfetch).1,
      once_of_free hslot h.once_passed⟩
    rintro c' ⟨⟩
    rw [htodo] at hputs
    exact ⟨hcall, hslot, hputs⟩
  · obtain ⟨hcall, hslot, hputs⟩ := h.calling c hc
    rw [htodo] at hputs
    have hawaited := awaited_requested hcall (s := s) hputs
    have hreading : ∀ fetch, s.pc ≠ .reading fetch :=
      fun fetch hfetch => (h.reading fetch hfetch).1 hslot
    rw [heq]
    cases hopen : s.pc.isOpen with
    | true =>
        rw [record_of_open (s.requested c) hopen]
        refine ⟨nofun, fun fetch hfetch => absurd hfetch (hreading fetch), ?_⟩
        show ((s.requested c).awaited b ++ passed s.log).Sublist _
        rw [hawaited]
        split
        · exact h.once_passed.cons_cons _
        · exact h.once_passed.cons _
    | false =>
        rw [record_of_not_open (s.requested c) hopen]
        refine ⟨nofun, fun fetch hfetch => absurd hfetch (hreading fetch), ?_⟩
        rw [hawaited, PumpPc.isReset_of_not_isOpen hopen]
        exact h.once_passed

theorem Sound.disconnect (h : s.Sound b) : (s.disconnect b).Sound b := by
  unfold Channel.disconnect record
  split
  · split
    · exact ⟨h.calling, h.reading, h.once⟩
    · exact ⟨h.calling, h.reading, h.once⟩
  · exact h

theorem Sound.close (h : s.Sound b) : s.close.Sound b := by
  unfold Channel.close
  split
  · exact h.setPc nofun nofun
  · exact h

theorem Sound.step (h : s.Sound b) (i : ChannelStep) : (s.step b i).Sound b := by
  cases i with
  | run => exact h.pump
  | enter data => exact h.enterSend data
  | act => exact h.act
  | disconnect => exact h.disconnect
  | close => exact h.close

theorem record_same (e : ChannelEvent) : (s.record e).pc = s.pc ∧
    (s.record e).disconnectReq = s.disconnectReq ∧ (s.record e).mem = s.mem := by
  unfold record
  split <;> exact ⟨rfl, rfl, rfl⟩

/-- The calls leave the pump where it is and no disconnect request out, and
with none under way they write nothing. -/
theorem step_call {i : ChannelStep} (hrun : i ≠ .run) (hclose : i ≠ .close) :
    (s.step b i).pc = s.pc ∧ (s.disconnectReq = true → (s.step b i).disconnectReq = true) ∧
      (s.caller = none → (s.step b i).mem.params = s.mem.params) := by
  cases i with
  | run => exact absurd rfl hrun
  | enter data =>
      rw [Channel.step, enterSend]
      split
      · split <;> exact ⟨rfl, id, fun _ => rfl⟩
      · exact ⟨rfl, id, fun _ => rfl⟩
  | act =>
      rw [Channel.step]
      obtain heq | ⟨c, hc, ⟨x, todo, -, heq⟩ | ⟨-, heq⟩⟩ := act_cases s
      · rw [heq]
        exact ⟨rfl, id, fun _ => rfl⟩
      · rw [heq, hc]
        exact ⟨rfl, id, nofun⟩
      · obtain ⟨hpc, hreq, hmem⟩ := record_same (s := s.requested c) (.accepted c.sdu)
        rw [heq, hpc, hreq, hmem]
        exact ⟨rfl, id, fun _ => rfl⟩
  | disconnect =>
      rw [Channel.step, Channel.disconnect]
      split
      · obtain ⟨hpc, hreq, hmem⟩ :=
          record_same (s := { s with disconnectReq := true }) .disconnectAccepted
        rw [hpc, hreq, hmem]
        exact ⟨rfl, fun _ => rfl, fun _ => rfl⟩
      · exact ⟨rfl, id, fun _ => rfl⟩
  | close => exact absurd rfl hclose

/-- A channel is closed by `close` alone. -/
theorem pc_ne_closed_of_step {i : ChannelStep} (h : s.pc ≠ .closed)
    (hi : i = .close → s.pc.awaits = false) : (s.step b i).pc ≠ .closed := by
  by_cases hclose : i = .close
  · subst hclose
    rw [Channel.step, Channel.close, hi rfl]
    exact h
  · by_cases hrun : i = .run
    · subst hrun
      rw [Channel.step, Channel.pump]
      split
      case h_4 => cases s.disconnectReq <;> nofun
      case h_6 => split <;> nofun
      case h_11 => exact h
      all_goals nofun
    · rw [(step_call hrun hclose).1]
      exact h

/-- What the steps in time keep: what is accepted is passed on but for the
SDU that is awaited, and no disconnect request is forgotten. -/
structure Kept (b : Build) (s : Channel) : Prop where
  sound : s.Sound b
  sdus : .disconnectAccepted ∉ s.log →
    ∃ lost, accepted s.log = lost ++ passed s.log ∧ (s.pc ≠ .closed → lost = s.awaited b)
  quiet : .disconnectAccepted ∉ s.log →
    s.pc ≠ .disconnecting ∧ (s.pc.isLooping = true → s.disconnectReq = false)
  asked : Unanswered s.log → s.pc ≠ .closed →
    s.pc.isLooping = true ∧ (s.disconnectReq = true ∨ s.pc = .disconnecting)

theorem Kept.entered (mem : ReqMem) (disconnectReq : Bool) :
    (entered mem disconnectReq).Kept b where
  sound := .entered mem disconnectReq
  sdus _ := ⟨[], rfl, fun _ => (awaited_of_not_isReset rfl).symm⟩
  quiet _ := ⟨nofun, nofun⟩
  asked h := absurd h not_unanswered_nil

/-- A step that accepts nothing, passes nothing on and awaits what was
awaited. -/
theorem Kept.sdus_same {t : Channel} (h : s.Kept b) (hpc : s.pc ≠ .closed) (hlog : t.log = s.log)
    (hawaited : t.awaited b = s.awaited b) (hnot : .disconnectAccepted ∉ t.log) :
    ∃ lost, accepted t.log = lost ++ passed t.log ∧ (t.pc ≠ .closed → lost = t.awaited b) := by
  rw [hlog] at hnot ⊢
  obtain ⟨lost, hlost, hrest⟩ := h.sdus hnot
  exact ⟨lost, hlost, fun _ => (hrest hpc).trans hawaited.symm⟩

/-- The pump goes on, with no SDU and no request behind it. -/
theorem Kept.setPc (h : s.Kept b) {pc old : PumpPc} (hsound : ({ s with pc } : Channel).Sound b)
    (hpc : s.pc = old) (hreset : pc.isReset = old.isReset) (hloop : pc.isLooping = old.isLooping)
    (hclosed : old ≠ .closed) (hold : old ≠ .disconnecting) (hnew : pc ≠ .disconnecting) :
    ({ s with pc } : Channel).Kept b where
  sound := hsound
  sdus := h.sdus_same (hpc ▸ hclosed) rfl (by rw [awaited, awaited, hpc, hreset])
  quiet hnot := ⟨hnew, fun hl => (h.quiet hnot).2 (by rw [hpc, ← hloop, hl])⟩
  asked hun _ := by
    obtain ⟨hl, hreq⟩ := h.asked hun (hpc ▸ hclosed)
    rw [hpc] at hl hreq
    exact ⟨hloop.trans hl, .inl (hreq.resolve_right hold)⟩

theorem Kept.pump (h : s.Kept b) : (s.pump b).Kept b := by
  have hsound := h.sound.pump
  unfold Channel.pump at hsound ⊢
  split at hsound
  case h_1 hpc => exact h.setPc hsound hpc rfl rfl nofun nofun nofun
  case h_2 hpc =>
    -- the reset of the slot: nothing has been awaited before it
    have hawaited : s.awaited b = [] := awaited_of_not_isReset (by rw [hpc]; rfl)
    refine ⟨hsound, h.sdus_same (by rw [hpc]; nofun) rfl ?_, fun _ => ⟨nofun, nofun⟩,
      fun hun _ => ?_⟩
    · rw [awaited_of_free freed_slot, hawaited]
    · have hloop := (h.asked hun (by rw [hpc]; nofun)).1
      rw [hpc] at hloop
      cases hloop
  case h_3 hpc =>
    refine ⟨hsound, h.sdus_same (by rw [hpc]; nofun) rfl ?_, fun _ => ⟨nofun, fun _ => rfl⟩,
      fun hun _ => ?_⟩
    · rw [awaited, awaited, hpc]
      rfl
    · have hloop := (h.asked hun (by rw [hpc]; nofun)).1
      rw [hpc] at hloop
      cases hloop
  case h_4 hpc =>
    have hopen : s.pc ≠ .closed := by rw [hpc]; nofun
    refine ⟨hsound, h.sdus_same hopen rfl ?_, fun hnot => ?_, fun hun _ => ?_⟩
    · rw [awaited, awaited, hpc]
      cases s.disconnectReq <;> rfl
    · have hreq := (h.quiet hnot).2 (by rw [hpc]; rfl)
      rw [hreq]
      exact ⟨nofun, fun _ => rfl⟩
    · have hreq := (h.asked hun hopen).2.resolve_right (by rw [hpc]; nofun)
      rw [hreq]
      exact ⟨rfl, .inr rfl⟩
  case h_5 hpc =>
    -- the pump disconnects for a request only
    have hmem : ChannelEvent.disconnectAccepted ∈ s.log := by
      by_contra hnot
      exact (h.quiet hnot).1 hpc
    have hmem' := List.mem_cons_of_mem ChannelEvent.disconnected hmem
    exact ⟨hsound, absurd hmem', absurd hmem', fun hun => absurd hun not_unanswered_disconnected⟩
  case h_6 hpc =>
    by_cases hslot : s.mem.slot .l2capSendReq ≠ 0
    · rw [if_pos hslot] at hsound ⊢
      exact h.setPc hsound hpc rfl rfl nofun nofun nofun
    · rw [if_neg hslot] at hsound ⊢
      exact h.setPc hsound hpc rfl rfl nofun nofun nofun
  case h_7 bytes hpc =>
    -- the SDU is passed on as it has been read, and the slot is free
    obtain ⟨hslot, hbytes, -⟩ := h.sound.reading _ hpc
    have hopen : s.pc ≠ .closed := by rw [hpc]; nofun
    have hback : ∀ {P : Prop}, (.disconnectAccepted ∉ s.log → P) →
        .disconnectAccepted ∉ ChannelEvent.passed bytes :: s.log → P :=
      fun hP hnot => hP fun hmem => hnot (List.mem_cons_of_mem _ hmem)
    refine ⟨hsound, hback fun hnot => ?_, hback fun hnot => ?_, fun hun _ => ?_⟩
    · obtain ⟨lost, hlost, hrest⟩ := h.sdus hnot
      refine ⟨[], ?_, fun _ => (awaited_of_free freed_slot).symm⟩
      rw [accepted_passed, passed_passed, hlost, hrest hopen, awaited,
        if_pos ⟨by rw [hpc]; rfl, hslot⟩, ← hbytes]
      rfl
    · exact ⟨nofun, fun _ => (h.quiet hnot).2 (by rw [hpc]; rfl)⟩
    · have hreq := (h.asked (unanswered_passed.mp hun) hopen).2
      exact ⟨rfl, .inl (hreq.resolve_right (by rw [hpc]; nofun))⟩
  case h_8 hpc => exact h.setPc hsound hpc rfl rfl nofun nofun nofun
  case h_9 hpc => exact h.setPc hsound hpc rfl rfl nofun nofun nofun
  case h_10 hpc => exact h.setPc hsound hpc rfl rfl nofun nofun nofun
  case h_11 => exact h

theorem Kept.enterSend (h : s.Kept b) (data : Option (List UInt8)) :
    (s.enterSend b data).Kept b := by
  have hsound := h.sound.enterSend data
  unfold Channel.enterSend at hsound ⊢
  split
  · split
    · exact h
    · rename_i hcaller hcall hslot
      simp only [hcaller, hcall, if_neg hslot] at hsound
      exact ⟨hsound, h.sdus, h.quiet, h.asked⟩
  · exact h

theorem Kept.act (h : s.Kept b) (htime : s.InTime b .act) : s.act.Kept b := by
  have hsound := h.sound.act
  obtain heq | ⟨c, hc, ⟨x, todo, htodo, heq⟩ | ⟨htodo, heq⟩⟩ := act_cases s
  · rw [heq]
    exact h
  · obtain ⟨-, hslot, -⟩ := h.sound.calling c hc
    rw [heq] at hsound ⊢
    refine ⟨hsound, fun hnot => ?_, h.quiet, h.asked⟩
    obtain ⟨lost, hlost, hrest⟩ := h.sdus hnot
    refine ⟨lost, hlost, fun hclosed => ?_⟩
    rw [hrest hclosed, awaited_of_free hslot]
    exact (awaited_of_free (s := s.written c x todo) hslot).symm
  · obtain ⟨hcall, hslot, hputs⟩ := h.sound.calling c hc
    rw [htodo] at hputs
    have hawaited := awaited_requested hcall (s := s) hputs
    rw [heq] at hsound ⊢
    cases hopen : s.pc.isOpen with
    | true =>
        have hopen' : s.pc ≠ .closed := fun hpc => by rw [hpc] at hopen; cases hopen
        rw [record_of_open (s.requested c) hopen] at hsound ⊢
        have hback : .disconnectAccepted ∉ ChannelEvent.accepted c.sdu :: s.log →
            .disconnectAccepted ∉ s.log := fun hnot hmem => hnot (List.mem_cons_of_mem _ hmem)
        refine ⟨hsound, fun hnot => ?_, fun hnot => h.quiet (hback hnot),
          fun hun => h.asked (unanswered_accepted.mp hun)⟩
        obtain ⟨lost, hlost, hrest⟩ := h.sdus (hback hnot)
        obtain ⟨hreset, hfits⟩ := htime hopen (hback hnot) c hc htodo
        rw [hrest hopen', awaited_of_free hslot] at hlost
        refine ⟨[c.sdu], congrArg (c.sdu :: ·) hlost, fun _ => ?_⟩
        show _ = (s.requested c).awaited b
        rw [hawaited, if_pos hreset, List.take_of_length_le hfits]
    | false =>
        rw [record_of_not_open (s.requested c) hopen] at hsound ⊢
        refine ⟨hsound, fun hnot => ?_, h.quiet, h.asked⟩
        obtain ⟨lost, hlost, hrest⟩ := h.sdus hnot
        refine ⟨lost, hlost, fun hclosed => ?_⟩
        rw [hrest hclosed, awaited_of_free hslot, hawaited, PumpPc.isReset_of_not_isOpen hopen]
        rfl

theorem Kept.disconnect (h : s.Kept b) (htime : s.InTime b .disconnect) :
    (s.disconnect b).Kept b := by
  have hsound := h.sound.disconnect
  unfold Channel.disconnect at hsound ⊢
  by_cases hb : b.l2cap = true
  · rw [if_pos hb] at hsound ⊢
    cases hopen : s.pc.isOpen with
    | true =>
        rw [record_of_open { s with disconnectReq := true } hopen] at hsound ⊢
        refine ⟨hsound, ?_, ?_, fun _ _ => ⟨htime hb hopen, .inl rfl⟩⟩
        · exact fun hnot => absurd List.mem_cons_self hnot
        · exact fun hnot => absurd List.mem_cons_self hnot
    | false =>
        have hloop := PumpPc.isLooping_of_not_isOpen hopen
        rw [record_of_not_open { s with disconnectReq := true } hopen] at hsound ⊢
        refine ⟨hsound, h.sdus, fun hnot => ⟨(h.quiet hnot).1, fun hl => ?_⟩,
          fun hun hclosed => ?_⟩
        · exact absurd (hloop.symm.trans hl) Bool.false_ne_true
        · exact absurd (hloop.symm.trans (h.asked hun hclosed).1) Bool.false_ne_true
  · rw [if_neg hb]
    exact h

theorem Kept.close (h : s.Kept b) : s.close.Kept b := by
  have hsound := h.sound.close
  unfold Channel.close at hsound ⊢
  by_cases hawaits : s.pc.awaits = true
  · rw [if_pos hawaits] at hsound ⊢
    refine ⟨hsound, fun hnot => ?_, fun _ => ⟨nofun, nofun⟩, fun _ hclosed => absurd rfl hclosed⟩
    obtain ⟨lost, hlost, -⟩ := h.sdus hnot
    exact ⟨lost, hlost, fun hclosed => absurd rfl hclosed⟩
  · rw [if_neg hawaits]
    exact h

theorem Kept.step (h : s.Kept b) (i : ChannelStep) (htime : s.InTime b i) :
    (s.step b i).Kept b := by
  cases i with
  | run => exact h.pump
  | enter data => exact h.enterSend data
  | act => exact h.act htime
  | disconnect => exact h.disconnect htime
  | close => exact h.close

end Channel

end RuntimeBle.Link
