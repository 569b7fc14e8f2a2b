import RuntimeBle.Lib.Desk
import RuntimeBle.Request.Handover

/-!
# Request — DualRole

A dual-role session: the tx loop of the peripheral connection and the
command loop of the central client run side by side, on two slots. A
notification and a client write leave their bytes in the same `SEND_BUF`
and their length in the same `SEND_LEN`.

One application thread makes the calls; a call, and a consumer's turn, take
effect at once.
-/

namespace RuntimeBle.Request

open RuntimeBle.Lib Mailbox

/-! ## The two kinds of transmission -/

/-- The call is for `tx_loop`. -/
def ApiCall.isTx : ApiCall → Bool
  | .send _ | .notify .. | .indicate .. => true
  | _ => false

/-- The call is a client's write. -/
def ApiCall.isWrite : ApiCall → Bool
  | .clientWrite .. | .clientWriteNoRsp .. | .clientWriteDescriptor .. => true
  | _ => false

/-- The payload argument of a transmission. -/
def ApiCall.data? : ApiCall → Option (List UInt8)
  | .send data | .notify _ data | .indicate _ data | .clientWrite _ data
  | .clientWriteNoRsp _ data | .clientWriteDescriptor _ data => data
  | _ => none

/-- The payload that stands in memory. -/
def pendingPayload (b : Build) (p : ReqParams) : List UInt8 :=
  (p.buf .sendBuf).take (payloadLen b (p.word .sendLen))

variable {b : Build} {isValid : RequestedConnParams → Bool} {a : ApiCall} {c : ReqCall}
  {p : ReqParams}

theorem eval_txLoop :
    (txLoop b).eval p
      = { chr := p.word .sendChr, kind := p.word .sendKind, bytes := pendingPayload b p } :=
  rfl

theorem eval_clientWritePayload {op : UInt16 → List UInt8 → ClientOp} :
    (clientWritePayload b op).eval p
      = op (lowHandle (p.word .centralHandle)) (pendingPayload b p) :=
  rfl

/-- A transmission's payload is what stands in memory after the call. -/
theorem pendingPayload_puts (h : a.entry b = .ok c) (ha : a.isTx = true ∨ a.isWrite = true) :
    pendingPayload b (p.puts (c.early ++ c.late)) = payload b a.data? := by
  cases a with
  | send data | notify chr data | indicate chr data =>
      obtain ⟨d, rfl, -, hd, rfl⟩ := queueTx_ok h
      simp [pendingPayload, Params.put, ApiCall.data?, take_payload hd]
  | clientWrite handle data | clientWriteNoRsp handle data | clientWriteDescriptor handle data =>
      obtain ⟨d, rfl, -, hd, -, rfl⟩ := centralWrite_ok h
      simp [pendingPayload, Params.put, ApiCall.data?, take_payload hd]
  | _ => simp [ApiCall.isTx, ApiCall.isWrite] at ha

/-- A client write leaves the other words of a notification alone. -/
theorem write_spares_tx (h : a.entry b = .ok c) (ha : a.isWrite = true) :
    (p.puts (c.early ++ c.late)).word .sendChr = p.word .sendChr ∧
      (p.puts (c.early ++ c.late)).word .sendKind = p.word .sendKind := by
  cases a with
  | clientWrite handle data | clientWriteNoRsp handle data | clientWriteDescriptor handle data =>
      obtain ⟨d, -, -, -, -, rfl⟩ := centralWrite_ok h
      simp [Params.put]
  | _ => cases ha

/-- And a notification the handle of a client write. -/
theorem tx_spares_write (h : a.entry b = .ok c) (ha : a.isTx = true) :
    (p.puts (c.early ++ c.late)).word .centralHandle = p.word .centralHandle := by
  cases a with
  | send data | notify chr data | indicate chr data =>
      obtain ⟨d, -, -, -, rfl⟩ := queueTx_ok h
      simp [Params.put]
  | _ => cases ha

theorem slot_of_isTx (ha : a.isTx = true) : a.slot = .sendReq := by
  cases a <;> first | rfl | cases ha

theorem slot_of_isWrite (ha : a.isWrite = true) : a.slot = .centralCmd := by
  cases a <;> first | rfl | cases ha

theorem cmd_of_isWrite (h : a.entry b = .ok c) (ha : a.isWrite = true) :
    c.cmd = ccmdWrite ∨ c.cmd = ccmdWriteNoRsp := by
  cases a with
  | clientWrite handle data | clientWriteDescriptor handle data =>
      obtain ⟨d, -, -, -, -, rfl⟩ := centralWrite_ok h
      exact .inl rfl
  | clientWriteNoRsp handle data =>
      obtain ⟨d, -, -, -, -, rfl⟩ := centralWrite_ok h
      exact .inr rfl
  | _ => cases ha

/-! ## The session -/

/-- A call, or a turn of one of the loops. -/
inductive DualLabel where
  | call (a : ApiCall)
  | turn (k : Consumer)

/-- The statics of a session that has both roles. -/
abbrev DualDesk := Desk Slot Word Buf ApiCall Consumer Outcome

/-- A transmission is called and accepted, or a consumer takes its turn. -/
def dualMachine (b : Build) (isValid : RequestedConnParams → Bool) :
    Machine DualDesk DualLabel where
  init d := ∃ p, d = Desk.start p
  step d
    | .call a =>
        match a.entry b with
        | .error _ => none
        | .ok c =>
            if (a.isTx || a.isWrite) && (d.slot c.slot).isNone then some (d.call a c).2 else none
    | .turn k => some (d.serve (mailbox b isValid) k)

theorem dual_call {d d' : DualDesk} (h : (dualMachine b isValid).step d (.call a) = some d') :
    ∃ c, a.entry b = .ok c ∧ (a.isTx = true ∨ a.isWrite = true) ∧ d.slot c.slot = none ∧
      d' = (d.call a c).2 := by
  simp only [dualMachine] at h
  split at h
  · cases h
  · rename_i c hc
    split at h
    · rename_i hcond
      simp only [Bool.and_eq_true, Bool.or_eq_true, Option.isNone_iff_eq_none] at hcond
      cases h
      exact ⟨c, hc, hcond.1, hcond.2, rfl⟩
    · cases h

/-- Everything that was carried out was carried out as its call asked. -/
def SentAsAsked (b : Build) (isValid : RequestedConnParams → Bool) (d : DualDesk) : Prop :=
  ∀ a k o, (a, k, o) ∈ d.served → o = Consumer.asks b isValid k a

/-- The slot of the other kind of transmission. -/
def ApiCall.rival (a : ApiCall) : Slot := if a.isTx then .centralCmd else .sendReq

/-- A transmission is called only while none of the other kind is queued, or
with the payload of that one. -/
def PayloadsAgree (b : Build) (d : DualDesk) : DualLabel → Prop
  | .call a => d.slot a.rival = none ∨ payload b a.data? = pendingPayload b d.params
  | .turn _ => True

instance (b : Build) (d : DualDesk) : DecidablePred (PayloadsAgree b d) := fun l =>
  match l with
  | .call a => inferInstanceAs
      (Decidable (d.slot a.rival = none ∨ payload b a.data? = pendingPayload b d.params))
  | .turn _ => inferInstanceAs (Decidable True)

/-! ## The invariant -/

/-- What may stand in a slot: a notification in its own, a client write in
the client's. -/
def Fits (s : Slot) (q : Queued ApiCall) : Prop :=
  (s = .sendReq ∧ q.req.isTx = true) ∨
    (s = .centralCmd ∧ (q.cmd = ccmdWrite ∨ q.cmd = ccmdWriteNoRsp))

/-- What is queued will be carried out as asked, and is where it belongs. -/
structure Matched (b : Build) (isValid : RequestedConnParams → Bool) (d : DualDesk) : Prop where
  sent : SentAsAsked b isValid d
  pending : ∀ k q, d.slot (Consumer.slotOf k) = some q →
    (Consumer.handle b isValid k q.cmd).eval d.params = Consumer.asks b isValid k q.req
  fits : ∀ s q, d.slot s = some q → Fits s q

/-- A queued client write does not notice a notification with its payload. -/
theorem eval_write_congr {k : Consumer} {cmd : Nat} {p' : ReqParams}
    (hk : k.slotOf = .centralCmd) (hcmd : cmd = ccmdWrite ∨ cmd = ccmdWriteNoRsp)
    (hhandle : p'.word .centralHandle = p.word .centralHandle)
    (hpayload : pendingPayload b p' = pendingPayload b p) :
    (k.handle b isValid cmd).eval p' = (k.handle b isValid cmd).eval p := by
  cases k with
  | waitIdle | runScan => rcases hcmd with rfl | rfl <;> rfl
  | clientSession =>
      rcases hcmd with rfl | rfl <;>
        simp only [Consumer.handle, Fetch.eval_map, clientSession, eval_clientWritePayload,
          hhandle, hpayload]
  | _ => cases hk

/-- Nor a queued notification a client write with its payload. -/
theorem eval_tx_congr {k : Consumer} {cmd : Nat} {p' : ReqParams} (hk : k.slotOf = .sendReq)
    (hchr : p'.word .sendChr = p.word .sendChr) (hkind : p'.word .sendKind = p.word .sendKind)
    (hpayload : pendingPayload b p' = pendingPayload b p) :
    (k.handle b isValid cmd).eval p' = (k.handle b isValid cmd).eval p := by
  cases k with
  | txLoop =>
      simp only [Consumer.handle, Fetch.eval_map, eval_txLoop, hchr, hkind, hpayload]
  | _ => cases hk

theorem matched_start : Matched b isValid (Desk.start p) where
  sent _ _ _ h := by cases h
  pending _ _ h := by cases h
  fits _ _ h := by cases h

variable {d : DualDesk}

/-- A transmission with a payload that suits what is queued on the other
side leaves that as it was. -/
theorem Matched.rival_unmoved (hd : Matched b isValid d) (h : a.entry b = .ok c)
    (ha : a.isTx = true ∨ a.isWrite = true) (hagree : PayloadsAgree b d (.call a))
    {k : Consumer} {q : Queued ApiCall} (hk : k.slotOf ≠ c.slot)
    (hq : d.slot k.slotOf = some q) :
    (k.handle b isValid q.cmd).eval (d.params.puts (c.early ++ c.late))
      = (k.handle b isValid q.cmd).eval d.params := by
  have hpayload : d.slot a.rival ≠ none →
      pendingPayload b (d.params.puts (c.early ++ c.late)) = pendingPayload b d.params := by
    intro hbusy
    rw [pendingPayload_puts h ha]
    exact hagree.resolve_left hbusy
  rw [(call_spec h).2.2.1] at hk
  rcases ha with ha | ha
  · rw [slot_of_isTx ha] at hk
    rcases hd.fits _ q hq with ⟨hsend, -⟩ | ⟨hcentral, hcmd⟩
    · exact absurd hsend hk
    · refine eval_write_congr hcentral hcmd (tx_spares_write h ha) (hpayload ?_)
      simp [ApiCall.rival, ha, ← hcentral, hq]
  · rw [slot_of_isWrite ha] at hk
    have hrival : a.rival = .sendReq := by
      cases a <;> first | rfl | cases ha
    rcases hd.fits _ q hq with ⟨hsend, -⟩ | ⟨hcentral, -⟩
    · obtain ⟨hchr, hkind⟩ := write_spares_tx (p := d.params) h ha
      refine eval_tx_congr hsend hchr hkind (hpayload ?_)
      simp [hrival, ← hsend, hq]
    · exact absurd hcentral hk

/-- An accepted call. -/
theorem Matched.called (hd : Matched b isValid d) (h : a.entry b = .ok c)
    (ha : a.isTx = true ∨ a.isWrite = true) (hfree : d.slot c.slot = none)
    (hagree : PayloadsAgree b d (.call a)) : Matched b isValid (d.call a c).2 := by
  simp only [Desk.call, hfree]
  constructor
  · exact hd.sent
  · intro k q hq
    by_cases hk : k.slotOf = c.slot
    · simp only [hk, Function.update_self, Option.some.injEq] at hq
      subst hq
      exact handover h k hk
    · simp only [Function.update_of_ne hk] at hq
      rw [← hd.pending k q hq]
      exact hd.rival_unmoved h ha hagree hk hq
  · refine forall_update_some (fun s q _ hq => hd.fits s q hq) ?_
    intro _ heq
    cases heq
    rw [(call_spec h).2.2.1]
    rcases ha with ha | ha
    · exact .inl ⟨slot_of_isTx ha, ha⟩
    · exact .inr ⟨slot_of_isWrite ha, cmd_of_isWrite h ha⟩

/-- A consumer's turn. -/
theorem Matched.served (hd : Matched b isValid d) (k : Consumer) :
    Matched b isValid (d.serve (mailbox b isValid) k) := by
  unfold Desk.serve
  cases hq : d.slot ((mailbox b isValid).slotOf k) with
  | none => exact hd
  | some q =>
      have hleft : ∀ s r, Function.update d.slot ((mailbox b isValid).slotOf k) none s = some r →
          d.slot s = some r :=
        forall_update_some (fun _ _ _ hr => hr) (fun _ h => by cases h)
      constructor
      · intro a' k' o hmem
        rcases List.mem_append.mp hmem with hold | hnew
        · exact hd.sent a' k' o hold
        · simp only [List.mem_singleton, Prod.mk.injEq] at hnew
          obtain ⟨rfl, rfl, rfl⟩ := hnew
          exact hd.pending k' q hq
      · exact fun k' r hr => hd.pending k' r (hleft _ r hr)
      · exact fun s r hr => hd.fits s r (hleft s r hr)

theorem Matched.step {l : DualLabel} {d' : DualDesk} (hd : Matched b isValid d)
    (hl : PayloadsAgree b d l) (h : (dualMachine b isValid).step d l = some d') :
    Matched b isValid d' := by
  cases l with
  | turn k =>
      cases h
      exact hd.served k
  | call a =>
      obtain ⟨c, hc, ha, hfree, rfl⟩ := dual_call h
      exact hd.called hc ha hfree hl

/-! ## Runs -/

/-- **No transmission carries another's payload**, in a run in which every
transmission is called while none of the other kind is queued, or with the
same payload. -/
theorem sent_as_asked (h : (dualMachine b isValid).Reach (PayloadsAgree b) d) :
    SentAsAsked b isValid d := by
  have hmatched : Matched b isValid d := by
    refine h.invariant ?_ fun _ _ _ hd hl hs => hd.step hl hs
    rintro _ ⟨p, rfl⟩
    exact matched_start
  exact hmatched.sent

/-- A write called behind a notification: the notification goes out with
the bytes of the write. -/
theorem send_carries_write :
    ∃ d, (dualMachine { central := true } fun _ => true).Reachable d ∧
      ¬ SentAsAsked { central := true } (fun _ => true) d := by
  obtain ⟨d, hd, htest⟩ := Machine.exists_reachable_of_exec
    (M := dualMachine { central := true } fun _ => true)
    [.call (.send (some [1])), .call (.clientWrite 5 (some [2])), .turn .txLoop]
    (q := fun d => decide (d.served = [(.send (some [1]), .txLoop,
      .tx { chr := nusTxChr, kind := sendKindAuto, bytes := [2] })]))
    ⟨bootMem.params, rfl⟩ (by decide)
  refine ⟨d, hd, fun hsent => ?_⟩
  have hbytes := hsent (.send (some [1])) .txLoop
    (.tx { chr := nusTxChr, kind := sendKindAuto, bytes := [2] })
    (by rw [of_decide_eq_true htest]; exact List.mem_singleton_self _)
  revert hbytes
  decide

/-- One after the other they go out as asked. -/
theorem send_then_write :
    ∃ d, (d.served.map fun e => e.1) = [.send (some [1]), .clientWrite 5 (some [2])] ∧
      SentAsAsked { central := true } (fun _ => true) d := by
  obtain ⟨d, hd, htest⟩ := Machine.exists_reach_of_execWhile
    (M := dualMachine { central := true } fun _ => true)
    (p := fun d l => decide (PayloadsAgree { central := true } d l))
    (fun _ _ => of_decide_eq_true)
    [.call (.send (some [1])), .turn .txLoop, .call (.clientWrite 5 (some [2])),
      .turn .clientSession]
    (q := fun d => decide ((d.served.map fun e => e.1)
      = [.send (some [1]), .clientWrite 5 (some [2])]))
    ⟨bootMem.params, rfl⟩ (by decide)
  exact ⟨d, of_decide_eq_true htest, sent_as_asked hd⟩

end RuntimeBle.Request
