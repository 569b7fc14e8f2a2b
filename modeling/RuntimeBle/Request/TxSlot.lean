import RuntimeBle.Request.Handover

/-!
# Request — TxSlot

The TX slot of a peripheral session: one thread in `queue_tx`, the tx loop
of `connection_task`, and what comes and goes around them. There is no second
thread, and nobody calls `runtime_ble_client_write`, which shares `SEND_BUF`
in a session with the central role. The loop is a future of its connection:
it is dropped at an await when the connection ends, and the next connection
starts a new one. `runtime_ble_run` clears the flag when a session starts,
before any loop exists.

`txMailbox` is the slot by itself; `txMachine` runs it under connections
and sessions.
-/

namespace RuntimeBle.Request

open RuntimeBle.Lib Mailbox

/-! ## The slot -/

/-- The arguments of `queue_tx`. -/
structure TxRequest where
  chr : Nat
  kind : Nat
  data : Option (List UInt8)
deriving DecidableEq

/-- The `(chr, kind, first min(len, VALUE_LEN) bytes)` of a request. -/
def TxRequest.snapshot (b : Build) (r : TxRequest) : TxSnapshot :=
  { chr := r.chr, kind := r.kind, bytes := payload b r.data }

/-- The slot is held while it is read; `runtime_ble_run` may clear it. -/
def txMailbox (b : Build) : Mailbox Slot Word Buf TxRequest Unit TxSnapshot where
  call r := (queueTx r.chr r.kind r.data).toOption
  slotOf _ := .sendReq
  holds _ := true
  handle _ _ := txLoop b
  asks _ r := r.snapshot b
  clearable s := s = .sendReq

variable {b : Build}

theorem txMailbox_call {r : TxRequest} {c : ReqCall} (h : (txMailbox b).call r = some c) :
    ∃ d, r.data = some d ∧ d.length ≤ sendBufCap ∧
      c =
        { early := []
          slot := .sendReq
          late := [.copy .sendBuf d, .store .sendChr r.chr, .store .sendKind r.kind,
            .store .sendLen d.length]
          cmd := 1 } := by
  have hentry : queueTx r.chr r.kind r.data = .ok c := by
    cases hq : queueTx r.chr r.kind r.data with
    | error err => simp [txMailbox, hq, Except.toOption] at h
    | ok c' => simpa [txMailbox, hq, Except.toOption] using h
  obtain ⟨d, hd, -, hlen, hc⟩ := queueTx_ok hentry
  exact ⟨d, hd, hlen, hc⟩

theorem txMailbox_lawful : (txMailbox b).Lawful where
  cmd_ne_zero r c h := by
    obtain ⟨d, -, -, rfl⟩ := txMailbox_call h
    simp
  targets r c h := by
    obtain ⟨d, -, -, rfl⟩ := txMailbox_call h
    simp [Put.target]
  handover r c _ h _ p := by
    obtain ⟨d, hd, hlen, rfl⟩ := txMailbox_call h
    simp [txMailbox, txLoop, Fetch.eval, Params.put, TxRequest.snapshot, hd, take_payload hlen]

theorem txMailbox_freesLast : (txMailbox b).FreesLast .sendReq where
  early r c h := by
    obtain ⟨d, -, -, rfl⟩ := txMailbox_call h
    rfl
  slot r c h := by
    obtain ⟨d, -, -, rfl⟩ := txMailbox_call h
    rfl
  slotOf _ := rfl
  holds _ := rfl

/-! ## Connections and sessions -/

/-- Where the tx loop is. `polling` and `sending` stand at an await. -/
inductive TxLoop where
  | absent
  | polling
  | reading
  | sending
deriving DecidableEq

/-- The slot with its one calling thread. -/
abbrev TxBox := State Slot Word Buf TxRequest Unit TxSnapshot Unit

/-- The slot, and the loop of the connection. -/
structure TxState where
  box : TxBox
  loop : TxLoop

/-- `call` enters `queue_tx`, and `act` is its next access. The loop's are
`poll`, `read` and `clear`; at `sent` it has awaited the transmission. -/
inductive TxLabel where
  | call (r : TxRequest)
  | act
  | connect
  | poll
  | read
  | clear
  | sent
  | drop
  | startSession

/-- The accesses are those of `txMailbox`. -/
def txStep (b : Build) (s : TxState) : TxLabel → Option TxState
  | .call r => ((txMailbox b).step s.box (.enter () r)).map fun box => { s with box }
  | .act => ((txMailbox b).step s.box (.act ())).map fun box => { s with box }
  | .connect => if s.loop = .absent then some { s with loop := .polling } else none
  | .poll =>
      if s.loop = .polling then
        match (txMailbox b).step s.box (.take ()) with
        | some box => some { box, loop := .reading }
        | none => some s -- the flag is clear: wait for the next tick
      else none
  | .read =>
      if s.loop = .reading then
        ((txMailbox b).step s.box .read).map fun box => { s with box }
      else none
  | .clear =>
      if s.loop = .reading then
        ((txMailbox b).step s.box .finish).map fun box => { box, loop := .sending }
      else none
  | .sent => if s.loop = .sending then some { s with loop := .polling } else none
  | .drop =>
      if s.loop = .polling ∨ s.loop = .sending then some { s with loop := .absent } else none
  | .startSession =>
      if s.loop = .absent then
        match (txMailbox b).step s.box (.discard .sendReq) with
        | some box => some { s with box }
        | none => some s -- nothing was queued
      else none

/-- One calling thread, all of whose calls are of `queue_tx`, under any
connections and sessions. -/
def txMachine (b : Build) : Machine TxState TxLabel where
  init s := s.box.Idle ∧ s.loop = .absent
  step := txStep b

/-- Under connections and sessions the slot takes steps of its own only. -/
theorem box_reachable {s : TxState} (h : (txMachine b).Reachable s) :
    ((txMailbox b).machine Unit).Reachable s.box := by
  refine Machine.Reach.simulate (N := txMachine b) (M := (txMailbox b).machine Unit)
    (f := TxState.box) (fun _ hinit => hinit.1) ?_ h
  intro s l t _ (hs : txStep b s l = some t)
  cases l with
  | call r =>
      obtain ⟨box, hbox, rfl⟩ := Option.map_eq_some_iff.mp hs
      exact .inr ⟨.enter () r, trivial, hbox⟩
  | act =>
      obtain ⟨box, hbox, rfl⟩ := Option.map_eq_some_iff.mp hs
      exact .inr ⟨.act (), trivial, hbox⟩
  | read =>
      simp only [txStep] at hs
      split_ifs at hs
      obtain ⟨box, hbox, rfl⟩ := Option.map_eq_some_iff.mp hs
      exact .inr ⟨.read, trivial, hbox⟩
  | clear =>
      simp only [txStep] at hs
      split_ifs at hs
      obtain ⟨box, hbox, rfl⟩ := Option.map_eq_some_iff.mp hs
      exact .inr ⟨.finish, trivial, hbox⟩
  | connect | sent | drop =>
      simp only [txStep] at hs
      split_ifs at hs
      cases hs
      exact .inl rfl
  | poll =>
      simp only [txStep] at hs
      split_ifs at hs
      split at hs
      · rename_i box hbox
        cases hs
        exact .inr ⟨.take (), trivial, hbox⟩
      · cases hs
        exact .inl rfl
  | startSession =>
      simp only [txStep] at hs
      split_ifs at hs
      split at hs
      · rename_i box hbox
        cases hs
        exact .inr ⟨.discard .sendReq, trivial, hbox⟩
      · cases hs
        exact .inl rfl

/-- Only a loop that is at its reads has anything in hand, so a loop is
never dropped with a request half read. -/
theorem reader_eq_none {s : TxState} (h : (txMachine b).Reachable s) (hloop : s.loop ≠ .reading) :
    s.box.reader = none := by
  refine Machine.Reach.invariant (M := txMachine b)
    (P := fun s => s.loop ≠ .reading → s.box.reader = none) (fun _ hinit _ => hinit.1.reader)
    ?_ h hloop
  intro s l t ih _ (hs : txStep b s l = some t) hloop
  cases l with
  | call r | act =>
      obtain ⟨box, hbox, rfl⟩ := Option.map_eq_some_iff.mp hs
      cases steps_of_step hbox <;> exact ih hloop
  | connect | sent | drop =>
      simp only [txStep] at hs
      split_ifs at hs with hat
      cases hs
      exact ih (by grind)
  | poll =>
      simp only [txStep] at hs
      split_ifs at hs with hat
      split at hs
      · cases hs
        exact absurd rfl hloop
      · cases hs
        exact ih hloop
  | read =>
      simp only [txStep] at hs
      split_ifs at hs with hat
      obtain ⟨box, hbox, rfl⟩ := Option.map_eq_some_iff.mp hs
      exact absurd hat hloop
  | clear =>
      simp only [txStep] at hs
      split_ifs at hs with hat
      obtain ⟨box, hbox, rfl⟩ := Option.map_eq_some_iff.mp hs
      cases steps_of_step hbox <;> rfl
  | startSession =>
      simp only [txStep] at hs
      split_ifs at hs with hat
      split at hs
      · rename_i box hbox
        cases hs
        cases steps_of_step hbox
        exact ih hloop
      · cases hs
        exact ih hloop

/-- So the start of a session does leave the flag clear. -/
theorem startSession_frees {s t : TxState} (h : (txMachine b).Reachable s)
    (hs : txStep b s .startSession = some t) : t.box.slot .sendReq = none := by
  simp only [txStep] at hs
  split_ifs at hs with hat
  have hreader : s.box.reader = none := reader_eq_none h (by simp [hat])
  split at hs
  · rename_i box hbox
    cases hs
    cases steps_of_step hbox
    simp [State.free, State.settle]
  · rename_i hnone
    cases hs
    cases hq : s.box.slot .sendReq with
    | none => rfl
    | some q => simp [step, txMailbox, hreader, hq] at hnone

/-- The caller is about to get `ERR_NO_MEM`. -/
def TxState.Refusing (s : TxState) : Prop :=
  ∃ ic, s.box.caller () = some ic ∧ ic.admitted = false ∧ ic.todo = [] ∧
    s.box.word .sendReq ≠ 0

/-- **The TX slot is an exact mailbox**: every snapshot is of the request it
was taken for; the requests that were settled (transmitted, or cleared by
the start of a session) are the accepted ones in their order, less one that
may be waiting; and a request is refused only while one is. -/
theorem tx_slot_exact {s : TxState} (h : (txMachine b).Reachable s) :
    (∀ r k out, (r, some (k, out)) ∈ s.box.settled .sendReq → out = r.snapshot b) ∧
      s.box.accepted .sendReq
        = (s.box.settled .sendReq).map (·.1) ++ s.box.waiting .sendReq ∧
      (s.Refusing → ∃ r, s.box.waiting .sendReq = [r]) := by
  obtain ⟨hfaithful, haccounted⟩ :=
    txMailbox_freesLast.sound txMailbox_lawful (box_reachable h)
  refine ⟨fun r k out hmem => hfaithful.exact _ r k out trivial hmem, ?_, ?_⟩
  · have hacc := haccounted.account .sendReq
    have hhand : s.box.inHand (txMailbox b) .sendReq = [] := by
      simp only [State.inHand]
      split <;> simp [txMailbox]
    rwa [hhand, List.append_nil] at hacc
  · rintro ⟨ic, -, -, -, hbusy⟩
    cases hq : s.box.slot .sendReq with
    | none => simp [State.word, hq] at hbusy
    | some q => exact ⟨q.req, by simp [State.waiting, hq]⟩

/-- One notification over two connections and a session start. -/
theorem tx_slot_exact_run : ∃ s : TxState,
    s.box.settled .sendReq
        = [({ chr := nusTxChr, kind := sendKindAuto, data := some [7, 8] },
            some ((), { chr := nusTxChr, kind := sendKindAuto, bytes := [7, 8] })),
          ({ chr := 3, kind := sendKindIndicate, data := some [9] }, none)] ∧
      (∀ r k out, (r, some (k, out)) ∈ s.box.settled .sendReq → out = r.snapshot {}) ∧
      s.box.accepted .sendReq
        = (s.box.settled .sendReq).map (·.1) ++ s.box.waiting .sendReq ∧
      (s.Refusing → ∃ r, s.box.waiting .sendReq = [r]) := by
  obtain ⟨s, hs, htest⟩ := Machine.exists_reachable_of_exec (M := txMachine {})
    [.connect, .call { chr := nusTxChr, kind := sendKindAuto, data := some [7, 8] },
      .act, .act, .poll, .act, .act, .act, .drop, .act, .connect, .poll, .read, .read, .read,
      .read, .clear, .call { chr := 3, kind := sendKindIndicate, data := some [9] }, .act, .sent,
      .act, .act, .act, .act, .drop, .act, .startSession]
    (q := fun s => decide (s.box.settled .sendReq
        = [({ chr := nusTxChr, kind := sendKindAuto, data := some [7, 8] },
            some ((), { chr := nusTxChr, kind := sendKindAuto, bytes := [7, 8] })),
          ({ chr := 3, kind := sendKindIndicate, data := some [9] }, none)]))
    (s := { box := State.start bootMem.params, loop := .absent }) ⟨State.idle_start, rfl⟩
    (by decide)
  exact ⟨s, of_decide_eq_true htest, tx_slot_exact hs⟩

end RuntimeBle.Request
