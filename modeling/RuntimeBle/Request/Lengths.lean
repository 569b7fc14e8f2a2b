import RuntimeBle.Request.Handover

/-!
# Request — Lengths

What becomes of a payload that is accepted: the functions take up to
`SEND_BUF_CAP` bytes, and their consumers carry up to `VALUE_LEN`.
-/

namespace RuntimeBle.Request

open RuntimeBle.Lib

/-- The payload of a call, and the consumer that carries it. -/
def ApiCall.carried : ApiCall → Option (List UInt8 × Consumer)
  | .send (some data) | .notify _ (some data) | .indicate _ (some data) => some (data, .txLoop)
  | .clientWrite _ (some data) | .clientWriteNoRsp _ (some data)
  | .clientWriteDescriptor _ (some data) => some (data, .clientSession)
  | .l2capSend (some data) => some (data, .l2capPump)
  | _ => none

/-- The feature that the calls with a payload for it need. -/
def Consumer.inBuild (b : Build) : Consumer → Bool
  | .clientSession => b.central
  | .l2capPump => b.l2cap
  | _ => true

/-- The bytes that are passed to the stack. -/
def Outcome.bytes : Outcome → Option (List UInt8)
  | .tx snapshot => some snapshot.bytes
  | .sdu bytes => some bytes
  | .client (.write _ bytes) | .client (.writeNoRsp _ bytes) => some bytes
  | _ => none

section Lengths

variable {b : Build} {isValid : RequestedConnParams → Bool} {m : ReqMem} {a : ApiCall}
  {data : List UInt8} {k : Consumer}

/-- If the call is accepted, its consumer passes on the whole payload, as it
finds the memory behind the call. -/
def CarriedWhole (b : Build) (isValid : RequestedConnParams → Bool) (m : ReqMem) (a : ApiCall)
    (data : List UInt8) (k : Consumer) : Prop :=
  ∀ m', invoke b m a = (runtimeBleOk, m') →
    ((k.handle b isValid (m'.slot k.slotOf)).eval m'.params).bytes = some data

/-- The functions refuse the payload by itself. -/
def Unfit (b : Build) (data : List UInt8) (k : Consumer) : Prop :=
  k.inBuild b = false ∨ data.length = 0 ∨ data.length > sendBufCap

/-- Or because the slot is taken. -/
def Refused (b : Build) (m : ReqMem) (data : List UInt8) (k : Consumer) : Prop :=
  Unfit b data k ∨ m.slot k.slotOf ≠ 0

theorem queueTx_of_fit {chr kind : Nat} :
    (Unfit b data .txLoop → queueTx chr kind (some data) = .error runtimeBleErrInvalid) ∧
      (¬ Unfit b data .txLoop → ∃ c, queueTx chr kind (some data) = .ok c ∧ c.slot = .sendReq) := by
  simp only [Unfit, Consumer.inBuild, Bool.true_eq_false, false_or, queueTx]
  exact ⟨fun hlen => if_pos hlen, fun hlen => ⟨_, if_neg hlen, rfl⟩⟩

theorem centralWrite_of_fit {cmd : Nat} {handle : UInt16} :
    (Unfit b data .clientSession →
        centralWrite b cmd handle (some data) = .error runtimeBleErrInvalid) ∧
      (¬ Unfit b data .clientSession →
        ∃ c, centralWrite b cmd handle (some data) = .ok c ∧ c.slot = .centralCmd) := by
  simp only [Unfit, Consumer.inBuild, centralWrite, centralCmd]
  by_cases hlen : data.length = 0 ∨ data.length > sendBufCap
  · rw [if_pos hlen]
    exact ⟨fun _ => rfl, fun hfit => absurd (.inr hlen) hfit⟩
  · rw [if_neg hlen]
    cases b.central with
    | false => exact ⟨fun _ => rfl, fun hfit => absurd (.inl rfl) hfit⟩
    | true =>
        exact ⟨fun hunfit => absurd (hunfit.resolve_left (by simp)) hlen, fun _ => ⟨_, rfl, rfl⟩⟩

theorem l2capSend_of_fit :
    (Unfit b data .l2capPump → runtimeBleL2capSend b (some data) = .error runtimeBleErrInvalid) ∧
      (¬ Unfit b data .l2capPump →
        ∃ c, runtimeBleL2capSend b (some data) = .ok c ∧ c.slot = .l2capSendReq) := by
  simp only [Unfit, Consumer.inBuild, runtimeBleL2capSend]
  exact ⟨fun hunfit => if_pos hunfit, fun hfit => ⟨_, if_neg hfit, rfl⟩⟩

/-- A call with a payload is refused by itself, or made on its slot. -/
theorem entry_of_carried (h : a.carried = some (data, k)) :
    (Unfit b data k → a.entry b = .error runtimeBleErrInvalid) ∧
      (¬ Unfit b data k → ∃ c, a.entry b = .ok c ∧ c.slot = k.slotOf) := by
  unfold ApiCall.carried at h
  split at h
  case h_1 | h_2 | h_3 =>
    cases h
    exact queueTx_of_fit
  case h_4 | h_5 | h_6 =>
    cases h
    exact centralWrite_of_fit
  case h_7 =>
    cases h
    exact l2capSend_of_fit
  case h_8 => cases h

theorem refused_iff (h : a.carried = some (data, k)) :
    (invoke b m a).1 ≠ runtimeBleOk ↔ Refused b m data k := by
  obtain ⟨herror, hok⟩ := entry_of_carried (b := b) h
  unfold Refused invoke
  by_cases hunfit : Unfit b data k
  · rw [herror hunfit]
    exact iff_of_true (by simp [runtimeBleErrInvalid, runtimeBleOk]) (.inl hunfit)
  · obtain ⟨c, hc, hslot⟩ := hok hunfit
    rw [hc, or_iff_right hunfit, ← hslot]
    by_cases hbusy : m.slot c.slot ≠ 0
    · simp [Call.run, hbusy, runtimeBleErrNoMem, runtimeBleOk]
    · simp [Call.run, hbusy]

/-- A call that is accepted is made on a free slot, and leaves its command
there. -/
theorem invoke_eq_ok (h : a.carried = some (data, k)) {m' : ReqMem}
    (hinvoke : invoke b m a = (runtimeBleOk, m')) :
    ∃ c, a.entry b = .ok c ∧ m'.slot c.slot = c.cmd
      ∧ m'.params = m.params.puts (c.early ++ c.late) := by
  have hnot : ¬ Refused b m data k := by
    rw [← refused_iff h, hinvoke]
    exact not_not_intro rfl
  obtain ⟨hfit, hfree⟩ := not_or.mp hnot
  obtain ⟨c, hc, hslot⟩ := (entry_of_carried (b := b) h).2 hfit
  rw [← hslot] at hfree
  simp only [invoke, hc, Call.run, if_neg hfree] at hinvoke
  cases hinvoke
  exact ⟨c, hc, Function.update_self .., Params.puts_append.symm⟩

/-- The consumer of a payload serves the slot of its call. -/
theorem slotOf_carrier (h : a.carried = some (data, k)) : k.slotOf = a.slot := by
  unfold ApiCall.carried at h
  split at h <;> cases h <;> rfl

/-- What is asked of the carrier is a payload cut to `VALUE_LEN`. -/
theorem bytes_asks (h : a.carried = some (data, k)) :
    (k.asks b isValid a).bytes = some (data.take b.valueLen) := by
  unfold ApiCall.carried at h
  split at h <;> cases h <;> rfl

theorem payloadLen_le (len : Nat) : payloadLen b len ≤ b.valueLen :=
  Nat.le_trans (Nat.min_le_left ..) (Nat.min_le_right ..)

theorem length_le_of_clientSession {cmd : Nat} {op : ClientOp}
    (h : (clientSession b cmd).Yields op) {bytes : List UInt8}
    (hbytes : (Outcome.client op).bytes = some bytes) : bytes.length ≤ b.valueLen := by
  have hwrite : ∀ {f : UInt16 → List UInt8 → ClientOp}, (∀ handle bytes,
      (Outcome.client (f handle bytes)).bytes = some bytes) →
      (clientWritePayload b f).Yields op → bytes.length ≤ b.valueLen := by
    intro f hf hop
    simp only [clientWritePayload, Fetch.yields_load, Fetch.yields_read, Fetch.yields_done] at hop
    obtain ⟨handle, len, bytes', hlen, rfl⟩ := hop
    cases (hf _ _).symm.trans hbytes
    exact Nat.le_trans hlen (payloadLen_le len)
  unfold clientSession at h
  split at h
  case h_9 => exact hwrite (fun _ _ => rfl) h
  case h_10 => exact hwrite (fun _ _ => rfl) h
  case h_3 =>
    obtain ⟨len, h⟩ := Fetch.yields_load.mp h
    obtain ⟨uuid, h⟩ := yields_readUuid h
    rw [Fetch.yields_done.mp h] at hbytes
    cases hbytes
  case h_6 =>
    obtain ⟨packed, h⟩ := Fetch.yields_load.mp h
    obtain ⟨len, h⟩ := Fetch.yields_load.mp h
    obtain ⟨uuid, h⟩ := yields_readUuid h
    rw [Fetch.yields_done.mp h] at hbytes
    cases hbytes
  all_goals simp only [Fetch.yields_load, Fetch.yields_done] at h
  case h_5 | h_7 | h_8 | h_11 | h_12 | h_13 =>
    obtain ⟨handle, rfl⟩ := h
    cases hbytes
  all_goals
    subst h
    cases hbytes

/-- Whatever comes between its reads, a consumer passes on at most
`VALUE_LEN` bytes. -/
theorem length_le_of_yields (h : a.carried = some (data, k)) {cmd : Nat} {o : Outcome}
    (ho : (k.handle b isValid cmd).Yields o) {bytes : List UInt8} (hbytes : o.bytes = some bytes) :
    bytes.length ≤ b.valueLen := by
  cases k with
  | txLoop =>
      obtain ⟨snapshot, hs, rfl⟩ := Fetch.yields_map.mp ho
      simp only [txLoop, Fetch.yields_load, Fetch.yields_read, Fetch.yields_done] at hs
      obtain ⟨chr, kind, len, bytes', hlen, rfl⟩ := hs
      cases hbytes
      exact Nat.le_trans hlen (payloadLen_le len)
  | l2capPump =>
      obtain ⟨sdu, hs, rfl⟩ := Fetch.yields_map.mp ho
      simp only [l2capPump, Fetch.yields_load, Fetch.yields_read, Fetch.yields_done] at hs
      obtain ⟨len, bytes', hlen, rfl⟩ := hs
      cases hbytes
      exact Nat.le_trans hlen (Nat.min_le_right ..)
  | clientSession =>
      obtain ⟨op, hop, rfl⟩ := Fetch.yields_map.mp ho
      exact length_le_of_clientSession hop hbytes
  | linkControl | bondAdmin | waitIdle | runScan =>
      unfold ApiCall.carried at h
      split at h <;> cases h

/-- Behind an accepted call the consumer passes on what is asked of it. -/
theorem bytes_of_accepted (h : a.carried = some (data, k)) {m' : ReqMem}
    (hinvoke : invoke b m a = (runtimeBleOk, m')) :
    ((k.handle b isValid (m'.slot k.slotOf)).eval m'.params).bytes
      = some (data.take b.valueLen) := by
  obtain ⟨c, hentry, hcmd, hparams⟩ := invoke_eq_ok h hinvoke
  have hslot : k.slotOf = c.slot := by rw [slotOf_carrier h, (call_spec hentry).2.2.1]
  rw [hslot, hcmd, hparams, handover hentry k hslot, bytes_asks h]

/-- **A payload is carried whole** when it is no longer than a value, or it
is refused. A longer one is cut in every case. -/
theorem carried_whole_iff (b : Build) (isValid : RequestedConnParams → Bool) (m : ReqMem)
    (a : ApiCall) (data : List UInt8) (k : Consumer) (h : a.carried = some (data, k)) :
    (CarriedWhole b isValid m a data k ↔ Refused b m data k ∨ data.length ≤ b.valueLen)
    ∧ ∀ cmd o, (k.handle b isValid cmd).Yields o → ∀ bytes, o.bytes = some bytes →
        bytes.length ≤ b.valueLen := by
  refine ⟨?_, fun cmd o ho bytes hbytes => length_le_of_yields h ho hbytes⟩
  rw [← refused_iff h]
  constructor
  · intro hwhole
    by_cases hok : (invoke b m a).1 = runtimeBleOk
    · have hinvoke : invoke b m a = (runtimeBleOk, (invoke b m a).2) := Prod.ext hok rfl
      have hsame := (bytes_of_accepted h hinvoke).symm.trans (hwhole _ hinvoke)
      have hlen := congrArg List.length (Option.some.inj hsame)
      rw [List.length_take] at hlen
      exact .inr (by omega)
    · exact .inl hok
  · rintro (hrefused | hfits) m' hinvoke
    · rw [hinvoke] at hrefused
      exact absurd rfl hrefused
    · rw [bytes_of_accepted h hinvoke, List.take_of_length_le hfits]

/-- A notification of up to `SEND_BUF_CAP` bytes is accepted on a free slot. -/
theorem notify_accepted (chr : UInt16) (data : List UInt8) (hfree : m.slot .sendReq = 0)
    (hne : data.length ≠ 0) (hcap : data.length ≤ sendBufCap) :
    ∃ m', invoke b m (.notify chr (some data)) = (runtimeBleOk, m') := by
  have hlen : ¬ (data.length = 0 ∨ data.length > sendBufCap) := by omega
  simp only [invoke, ApiCall.entry, runtimeBleNotify, queueTx, if_neg hlen, Call.run, hfree,
    ne_eq, not_true_eq_false, ↓reduceIte]
  exact ⟨_, rfl⟩

/-- One byte more than the default build sends. -/
def longNotification : List UInt8 := List.replicate 129 0xaa

/-- The default build accepts a notification of 129 bytes and carries 128. -/
theorem notification_cut :
    (invoke {} bootMem (.notify 0 (some longNotification))).1 = runtimeBleOk
    ∧ ¬ CarriedWhole {} (fun _ => true) bootMem (.notify 0 (some longNotification))
        longNotification .txLoop := by
  have hlong : longNotification.length = 129 := List.length_replicate
  obtain ⟨m', hinvoke⟩ := notify_accepted (b := {}) (m := bootMem) 0 longNotification rfl
    (by rw [hlong]; decide) (by rw [hlong]; decide)
  refine ⟨by rw [hinvoke], fun hwhole => ?_⟩
  have hsame := (bytes_of_accepted rfl hinvoke).symm.trans (hwhole _ hinvoke)
  have hlen := congrArg List.length (Option.some.inj hsame)
  rw [List.length_take, hlong] at hlen
  revert hlen
  decide

theorem notification_whole :
    CarriedWhole {} (fun _ => true) bootMem (.notify 0 (some [0xaa, 0xbb])) [0xaa, 0xbb] .txLoop :=
  (carried_whole_iff {} (fun _ => true) bootMem (.notify 0 (some [0xaa, 0xbb])) [0xaa, 0xbb]
    .txLoop rfl).1.mpr (.inr (by decide))

end Lengths

end RuntimeBle.Request
