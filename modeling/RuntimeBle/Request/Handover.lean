import RuntimeBle.Lib.Delivery
import RuntimeBle.Request.Consumers

/-!
# Request — Handover

What each request is meant to bring about, as a function of its arguments
alone (`asks`), and that the consumers bring it about when nothing comes
between a call and the reads for it (`handover`).

`mailbox` puts the API and the consumers together as an instance of
`Lib.Mailbox`.
-/

namespace RuntimeBle.Request

open RuntimeBle.Lib

/-! ## What a request asks for -/

/-- The first `min(len, VALUE_LEN)` bytes. -/
def payload (b : Build) (data : Option (List UInt8)) : List UInt8 :=
  (data.getD []).take b.valueLen

/-- What a call asks of `tx_loop`. -/
def txAsks (b : Build) : ApiCall → TxSnapshot
  | .send data => { chr := nusTxChr, kind := sendKindAuto, bytes := payload b data }
  | .notify chr data => { chr := chr.toNat, kind := sendKindAuto, bytes := payload b data }
  | .indicate chr data => { chr := chr.toNat, kind := sendKindIndicate, bytes := payload b data }
  | _ => { chr := 0, kind := 0, bytes := [] }

/-- What a call asks of the channel writer. -/
def l2capAsks (b : Build) : ApiCall → List UInt8
  | .l2capSend data => payload b data
  | _ => []

/-- What a call asks of `link_control_once`. -/
def linkAsks (isValid : RequestedConnParams → Bool) : ApiCall → LinkOp
  | .setPhy phy => .setPhy (phyKind phy.toNat)
  | .updateDataLength octets timeUs =>
      .updateDataLength (if octets = 0 then 251 else octets) (if timeUs = 0 then 2120 else timeUs)
  | .updateConnParams minMs maxMs latency timeoutMs =>
      connParamsOp isValid
        { minConnectionIntervalMs := orDefault minMs.toNat 80
          maxConnectionIntervalMs := orDefault maxMs.toNat 80
          maxLatency := latency
          supervisionTimeoutMs := orDefault timeoutMs.toNat 8000 }
  | .updateFrameSpace minUs maxUs phyMask types =>
      if orDefault minUs.toNat 150 > orDefault maxUs.toNat 10000 then .invalidFrameSpacing
      else
        .updateFrameSpace (orDefault minUs.toNat 150) (orDefault maxUs.toNat 10000)
          (.ofBits phyMask) (.ofBits types)
  | .requestConnectionRate minMs maxMs subrateMin subrateMax latency continuation timeoutMs =>
      connectionRateOp
        { minConnectionIntervalMs := orDefault minMs.toNat 80
          maxConnectionIntervalMs := orDefault maxMs.toNat 80
          subrateMin := if subrateMin = 0 then 1 else subrateMin
          subrateMax := if subrateMax = 0 then 1 else subrateMax
          maxLatency := latency
          continuationNumber := continuation
          supervisionTimeoutMs := orDefault timeoutMs.toNat 8000 }
  | .readRssi => .readRssi
  | .readAttMtu => .readAttMtu
  | .readPhy => .readPhy
  | .readSecurity => .readSecurity
  | .requestSecurity => .requestSecurity
  | .passkeyConfirm accept => if accept = 0 then .passKeyCancel else .passKeyConfirm
  | .passkeyInput passkey => .passKeyInput passkey.toNat
  | _ => .ignored

/-- What a call asks of `bond_admin_loop`. -/
def bondAdminAsks : ApiCall → BondAdminOp
  | .setIoCapability capability => .setIoCapabilities (ioCapabilityFromC capability)
  | .bondEnumerate => .enumerate
  | .bondDelete index => .delete index
  | .bondDeleteAll => .deleteAll
  | _ => .ignored

/-- The scan that the arguments describe. -/
def scanAsks (active : UInt8) (intervalMs windowMs timeoutMs : UInt16) (options : UInt8)
    (filterAddr : Option (Bytes 6)) (filterAddrKind : UInt8) : ScanConfig where
  active := active != 0
  filterAcceptList := filterAddr.map fun addr => { addr := addr.toList, kind := filterAddrKind }
  phys := scanPhys (options &&& 0x0e).toNat
  intervalMs := orDefault intervalMs.toNat 100
  windowMs := orDefault windowMs.toNat 50
  timeoutMs := timeoutMs.toNat
  filterDuplicates := options &&& 0x01 != 0

/-- The peer a connect request names. -/
def ApiCall.peer? : ApiCall → Option PeerAddress
  | .connect addr => addr.map fun addr => { addr := addr.toList, kind := 0 }
  | .connectAddr addr kind => addr.map fun addr => { addr := addr.toList, kind }
  | _ => none

/-- What a call asks of the idle central. -/
def idleAsks (a : ApiCall) : IdleOp :=
  match a with
  | .scanStart active intervalMs windowMs timeoutMs =>
      .scan (scanAsks active intervalMs windowMs timeoutMs 0 none 0)
  | .scanStartEx active intervalMs windowMs timeoutMs options addr kind =>
      .scan (scanAsks active intervalMs windowMs timeoutMs options addr kind)
  | a => a.peer?.elim .ignored .connect

/-- What a call asks of a scan that runs. -/
def runScanAsks (a : ApiCall) : ScanOp :=
  match a with
  | .scanStop => .stop
  | a => a.peer?.elim .ignored .connect

/-- What a call asks of the client session. -/
def clientAsks (b : Build) : ApiCall → ClientOp
  | .disconnect => .disconnect
  | .clientDiscoverServices => .discoverServices
  | .clientDiscover uuid => .discover (uuid.getD [])
  | .clientDiscoverAll => .discoverAll
  | .clientRead handle | .clientReadDescriptor handle => .read handle
  | .clientReadBlob handle offset | .clientReadDescriptorBlob handle offset =>
      .readBlob handle offset
  | .clientReadByUuid first last uuid => .readByUuid first last (uuid.getD [])
  | .clientDiscoverDescriptors first last => .discoverDescriptors first last
  | .clientWrite handle data | .clientWriteDescriptor handle data =>
      .write handle (payload b data)
  | .clientWriteNoRsp handle data => .writeNoRsp handle (payload b data)
  | .clientSubscribe handle => .subscribe handle
  | .clientSubscribeIndicate handle => .subscribeIndicate handle
  | .clientUnsubscribe handle => .unsubscribe handle
  | _ => .ignored

/-! ## The mailbox -/

/-- The loops of the runtime thread that take requests. -/
inductive Consumer where
  | txLoop
  | l2capPump
  | linkControl
  | bondAdmin
  | waitIdle
  | runScan
  | clientSession
deriving DecidableEq

/-- What one of them makes of a request. -/
inductive Outcome where
  | tx (snapshot : TxSnapshot)
  | sdu (bytes : List UInt8)
  | link (op : LinkOp)
  | bondAdmin (op : BondAdminOp)
  | idle (op : IdleOp)
  | scan (op : ScanOp)
  | client (op : ClientOp)
deriving DecidableEq

namespace Consumer

/-- The slot it takes from. -/
def slotOf : Consumer → Slot
  | txLoop => .sendReq
  | l2capPump => .l2capSendReq
  | linkControl => .linkCmd
  | bondAdmin => .bondCmd
  | waitIdle | runScan | clientSession => .centralCmd

/-- The two pumps clear their flag behind the reads; the command loops
`swap` the command out before them. -/
def holds : Consumer → Bool
  | txLoop | l2capPump => true
  | _ => false

variable (b : Build) (isValid : RequestedConnParams → Bool)

/-- Its reads for a command. -/
def handle (k : Consumer) (cmd : Nat) : ReqFetch Outcome :=
  match k with
  | txLoop => (Request.txLoop b).map .tx
  | l2capPump => (Request.l2capPump b).map .sdu
  | linkControl => (linkControlOnce isValid cmd).map .link
  | bondAdmin => (bondAdminLoop cmd).map .bondAdmin
  | waitIdle => (waitIdleCmd cmd).map .idle
  | runScan => (Request.runScan cmd).map .scan
  | clientSession => (Request.clientSession b cmd).map .client

/-- What a call asks of it. -/
def asks (k : Consumer) (a : ApiCall) : Outcome :=
  match k with
  | txLoop => .tx (txAsks b a)
  | l2capPump => .sdu (l2capAsks b a)
  | linkControl => .link (linkAsks isValid a)
  | bondAdmin => .bondAdmin (bondAdminAsks a)
  | waitIdle => .idle (idleAsks a)
  | runScan => .scan (runScanAsks a)
  | clientSession => .client (clientAsks b a)

end Consumer

/-! ## Handover -/

section Handover

variable {b : Build} {isValid : RequestedConnParams → Bool} {a : ApiCall} {c : ReqCall}
  {p : ReqParams}

theorem take_payload {d : List UInt8} (hd : d.length ≤ sendBufCap) (old : List UInt8) :
    (copyInto d old).take (payloadLen b d.length) = payload b (some d) := by
  have hle : payloadLen b d.length ≤ d.length := by simp only [payloadLen]; omega
  rw [take_copyInto hle, payload, Option.getD_some, payloadLen, Nat.min_eq_left (by omega)]
  rw [List.take_eq_take_iff]
  omega

theorem handover_tx (h : a.entry b = .ok c) (hslot : a.slot = .sendReq) :
    (txLoop b).eval (p.puts (c.early ++ c.late)) = txAsks b a := by
  cases a with
  | send data | notify chr data | indicate chr data =>
      obtain ⟨d, rfl, -, hd, rfl⟩ := queueTx_ok h
      simp [txLoop, Fetch.eval, Params.put, txAsks, take_payload hd]
  | _ => cases hslot

theorem handover_l2cap (h : a.entry b = .ok c) (hslot : a.slot = .l2capSendReq) :
    (l2capPump b).eval (p.puts (c.early ++ c.late)) = l2capAsks b a := by
  cases a with
  | l2capSend data =>
      obtain ⟨d, rfl, -, hd, rfl⟩ := l2capSend_ok h
      have hlen : min d.length b.valueLen = payloadLen b d.length := by
        have hcap : sendBufCap = 512 := rfl
        simp only [payloadLen]
        omega
      simp [l2capPump, Fetch.eval, Params.put, l2capAsks, hlen, take_payload hd]
  | _ => cases hslot

theorem handover_link (h : a.entry b = .ok c) (hslot : a.slot = .linkCmd) :
    (linkControlOnce isValid c.cmd).eval (p.puts (c.early ++ c.late)) = linkAsks isValid a := by
  unfold linkAsks
  cases a with
  | setPhy phy =>
      obtain ⟨-, rfl⟩ := setPhy_ok h
      simp [linkControlOnce, Fetch.eval, Params.put]
  | updateDataLength octets timeUs =>
      rw [linkCmd_ok h]
      simp [linkControlOnce, Fetch.eval, Params.put, dataLengthOp, u16_toNat_eq_zero]
  | updateConnParams minMs maxMs latency timeoutMs =>
      rw [linkCmd_ok h]
      simp [linkControlOnce, Fetch.eval, Params.put, RequestedConnParams.ofWords]
  | updateFrameSpace minUs maxUs phyMask types =>
      rw [linkCmd_ok h]
      simp only [linkControlOnce]
      by_cases horder : orDefault minUs.toNat 150 > orDefault maxUs.toNat 10000 <;>
        simp [Fetch.eval, Params.put, horder]
  | requestConnectionRate minMs maxMs subrateMin subrateMax latency continuation timeoutMs =>
      rw [linkCmd_ok h]
      simp [linkControlOnce, Fetch.eval, Params.put, ConnectRateParams.ofWords,
        u16_toNat_eq_zero]
  | readRssi | readAttMtu | readPhy | readSecurity | requestSecurity =>
      rw [linkCmd_ok h]
      rfl
  | passkeyConfirm accept =>
      rw [linkCmd_ok h]
      by_cases haccept : accept = 0 <;> simp [haccept, linkControlOnce, Fetch.eval]
  | passkeyInput passkey =>
      rw [passkeyInput_ok h]
      simp [linkControlOnce, Fetch.eval, Params.put]
  | _ => cases hslot

theorem handover_bondAdmin (h : a.entry b = .ok c) (hslot : a.slot = .bondCmd) :
    (bondAdminLoop c.cmd).eval (p.puts (c.early ++ c.late)) = bondAdminAsks a := by
  unfold bondAdminAsks
  cases a with
  | setIoCapability capability =>
      rw [setIoCapability_ok h]
      simp [bondAdminStores, bondAdminLoop, Fetch.eval, Params.put]
  | bondEnumerate | bondDelete index | bondDeleteAll =>
      rw [ApiCall.entry] at h
      rw [bondAdminCmd_ok h]
      simp [bondAdminStores, bondAdminLoop, Fetch.eval, Params.put]
  | _ => cases hslot

/-- The two consumers that read a peer address. -/
theorem eval_readConnect {addr : Bytes 6} {kind : UInt8} {handle : Nat} :
    readConnect.eval (p.puts
      [.copy .centralAddr addr.toList, .store .centralAddrKind kind.toNat,
        .store .centralHandle handle]) = { addr := addr.toList, kind } := by
  simp [readConnect, Fetch.eval, Params.put, List.take_of_length_le]

/-- A flag byte survives its boolean. -/
theorem flag_bne (x : UInt8) : ((if x = 0 then 0 else 1 : Nat) != 0) = (x != 0) := by
  by_cases hx : x = 0 <;> simp [hx]

theorem eval_runScanConfig {active options kind : UInt8} {intervalMs windowMs timeoutMs : UInt16}
    {addr : Option (Bytes 6)}
    (h : runtimeBleScanStartEx b active intervalMs windowMs timeoutMs options addr kind = .ok c) :
    runScanConfig.eval (p.puts (c.early ++ c.late))
      = scanAsks active intervalMs windowMs timeoutMs options addr kind := by
  obtain ⟨-, rfl⟩ := centralCmd_ok h
  cases addr <;> simp [runScanConfig, Fetch.eval, Params.put, scanAsks, ScanConfig.ofWords,
    List.take_of_length_le, flag_bne]

theorem handover_idle (h : a.entry b = .ok c) (hslot : a.slot = .centralCmd) :
    (waitIdleCmd c.cmd).eval (p.puts (c.early ++ c.late)) = idleAsks a := by
  cases a with
  | connect addr | connectAddr addr kind =>
      obtain ⟨addr', rfl, rfl⟩ := connectAddr_ok h
      simp only [waitIdleCmd, Fetch.eval_map]
      exact congrArg IdleOp.connect eval_readConnect
  | scanStart active intervalMs windowMs timeoutMs =>
      have hcmd : c.cmd = ccmdScanStart := by rw [(centralCmd_ok h).2]
      simp only [hcmd, waitIdleCmd, Fetch.eval_map]
      exact congrArg IdleOp.scan (eval_runScanConfig h)
  | scanStartEx active intervalMs windowMs timeoutMs options addr kind =>
      have hcmd : c.cmd = ccmdScanStart := by rw [(centralCmd_ok h).2]
      simp only [hcmd, waitIdleCmd, Fetch.eval_map]
      exact congrArg IdleOp.scan (eval_runScanConfig h)
  | scanStop | disconnect | clientDiscoverServices | clientDiscoverAll | clientRead
  | clientReadBlob | clientReadDescriptor | clientReadDescriptorBlob | clientSubscribe
  | clientSubscribeIndicate | clientUnsubscribe =>
      rw [(centralCmd_ok h).2]
      rfl
  | clientDiscover uuid =>
      obtain ⟨u, -, -, rfl⟩ := discover_ok h
      rfl
  | clientReadByUuid first last uuid =>
      obtain ⟨u, -, -, rfl⟩ := readByUuid_ok h
      rfl
  | clientDiscoverDescriptors first last =>
      rw [discoverDescriptors_ok h]
      rfl
  | clientWrite handle data | clientWriteNoRsp handle data | clientWriteDescriptor handle data =>
      obtain ⟨d, -, -, -, -, rfl⟩ := centralWrite_ok h
      rfl
  | _ => cases hslot

theorem handover_runScan (h : a.entry b = .ok c) (hslot : a.slot = .centralCmd) :
    (runScan c.cmd).eval (p.puts (c.early ++ c.late)) = runScanAsks a := by
  cases a with
  | connect addr | connectAddr addr kind =>
      obtain ⟨addr', rfl, rfl⟩ := connectAddr_ok h
      simp only [runScan, Fetch.eval_map]
      exact congrArg ScanOp.connect eval_readConnect
  | scanStop | disconnect | clientDiscoverServices | clientDiscoverAll | clientRead
  | clientReadBlob | clientReadDescriptor | clientReadDescriptorBlob | clientSubscribe
  | clientSubscribeIndicate | clientUnsubscribe | scanStart | scanStartEx =>
      rw [(centralCmd_ok h).2]
      rfl
  | clientDiscover uuid =>
      obtain ⟨u, -, -, rfl⟩ := discover_ok h
      rfl
  | clientReadByUuid first last uuid =>
      obtain ⟨u, -, -, rfl⟩ := readByUuid_ok h
      rfl
  | clientDiscoverDescriptors first last =>
      rw [discoverDescriptors_ok h]
      rfl
  | clientWrite handle data | clientWriteNoRsp handle data | clientWriteDescriptor handle data =>
      obtain ⟨d, -, -, -, -, rfl⟩ := centralWrite_ok h
      rfl
  | _ => cases hslot

@[simp] theorem lowHandle_toNat (handle : UInt16) : lowHandle handle.toNat = handle :=
  UInt16.ofNat_toNat

@[simp] theorem lowHandle_packHandles (hi lo : UInt16) : lowHandle (packHandles hi lo) = lo := by
  have hlo : lo.toNat < 65536 := lo.toNat_lt
  apply UInt16.toNat_inj.mp
  simp only [lowHandle, packHandles, UInt16.toNat_ofNat']
  omega

@[simp] theorem highHandle_packHandles (hi lo : UInt16) :
    highHandle (packHandles hi lo) = hi := by
  have hlo : lo.toNat < 65536 := lo.toNat_lt
  have hhi : hi.toNat < 65536 := hi.toNat_lt
  apply UInt16.toNat_inj.mp
  simp only [highHandle, packHandles, UInt16.toNat_ofNat']
  omega

/-- A UUID is read with the length it was written with. -/
theorem eval_readUuid {O : Type} {u old : List UInt8} {next : List UInt8 → ReqFetch O}
    (hlen : u.length = 2 ∨ u.length = 16) (hbuf : p.buf .centralUuid = copyInto u old) :
    (readUuid u.length next).eval p = (next u).eval p := by
  rcases hlen with hlen | hlen <;>
    simp [readUuid, hlen, Fetch.eval, hbuf, List.take_of_length_le]

theorem handover_client (h : a.entry b = .ok c) (hslot : a.slot = .centralCmd) :
    (clientSession b c.cmd).eval (p.puts (c.early ++ c.late)) = clientAsks b a := by
  cases a with
  | clientRead handle | clientReadDescriptor handle | clientReadBlob handle offset
  | clientReadDescriptorBlob handle offset | clientSubscribe handle
  | clientSubscribeIndicate handle | clientUnsubscribe handle =>
      rw [(centralCmd_ok h).2]
      simp [clientSession, Fetch.eval, Params.put, clientAsks]
  | scanStop | disconnect | clientDiscoverServices | clientDiscoverAll | scanStart
  | scanStartEx =>
      rw [(centralCmd_ok h).2]
      rfl
  | connect addr | connectAddr addr kind =>
      obtain ⟨addr', -, rfl⟩ := connectAddr_ok h
      rfl
  | clientDiscover uuid =>
      obtain ⟨u, rfl, hlen, rfl⟩ := discover_ok h
      exact eval_readUuid hlen rfl
  | clientReadByUuid first last uuid =>
      obtain ⟨u, rfl, hlen, rfl⟩ := readByUuid_ok h
      apply (eval_readUuid hlen rfl).trans
      simp [Fetch.eval, Params.put, clientAsks]
  | clientDiscoverDescriptors first last =>
      rw [discoverDescriptors_ok h]
      simp [clientSession, Fetch.eval, Params.put, clientAsks]
  | clientWrite handle data | clientWriteNoRsp handle data | clientWriteDescriptor handle data =>
      obtain ⟨d, rfl, -, hd, -, rfl⟩ := centralWrite_ok h
      simp [clientSession, clientWritePayload, Fetch.eval, Params.put, clientAsks,
        take_payload hd]
  | _ => cases hslot

/-- **Handover**: a consumer of the slot makes of a call what its request
asks for, whatever the parameters were before. -/
theorem handover (h : a.entry b = .ok c) (k : Consumer) (hk : k.slotOf = c.slot) :
    (k.handle b isValid c.cmd).eval (p.puts (c.early ++ c.late)) = k.asks b isValid a := by
  have hslot : a.slot = k.slotOf := by rw [hk, (call_spec h).2.2.1]
  cases k with
  | txLoop => simp only [Consumer.handle, Consumer.asks, Fetch.eval_map, handover_tx h hslot]
  | l2capPump => simp only [Consumer.handle, Consumer.asks, Fetch.eval_map, handover_l2cap h hslot]
  | linkControl => simp only [Consumer.handle, Consumer.asks, Fetch.eval_map, handover_link h hslot]
  | bondAdmin =>
      simp only [Consumer.handle, Consumer.asks, Fetch.eval_map, handover_bondAdmin h hslot]
  | waitIdle => simp only [Consumer.handle, Consumer.asks, Fetch.eval_map, handover_idle h hslot]
  | runScan => simp only [Consumer.handle, Consumer.asks, Fetch.eval_map, handover_runScan h hslot]
  | clientSession =>
      simp only [Consumer.handle, Consumer.asks, Fetch.eval_map, handover_client h hslot]

end Handover

/-! ## The instance -/

/-- The API and the consumers as a mailbox. `runtime_ble_run` and
`l2cap_serve` clear the two flags. -/
def mailbox (b : Build) (isValid : RequestedConnParams → Bool) :
    Mailbox Slot Word Buf ApiCall Consumer Outcome where
  call a := (a.entry b).toOption
  slotOf := Consumer.slotOf
  holds := Consumer.holds
  handle := Consumer.handle b isValid
  asks := Consumer.asks b isValid
  clearable s := s = .sendReq || s = .l2capSendReq

theorem mailbox_call {b : Build} {isValid : RequestedConnParams → Bool} {a : ApiCall}
    {c : ReqCall} : (mailbox b isValid).call a = some c ↔ a.entry b = .ok c := by
  simp only [mailbox]
  cases a.entry b <;> simp [Except.toOption]

theorem mailbox_lawful (b : Build) (isValid : RequestedConnParams → Bool) :
    (mailbox b isValid).Lawful where
  cmd_ne_zero _ _ h := (call_spec (mailbox_call.mp h)).2.2.2
  targets _ _ h := (call_spec (mailbox_call.mp h)).1
  handover _ _ k h hk _ := handover (mailbox_call.mp h) k hk

end RuntimeBle.Request
