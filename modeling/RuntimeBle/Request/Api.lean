import RuntimeBle.Request.Statics

/-!
# Request — Api

The public request functions. Each checks its arguments, and then makes one
`Call` on a slot. They differ in what they write BEFORE the busy test of
the slot (`early`) and what only after it (`late`).

A pointer argument is an `Option`: `none` is the null pointer. A pointer
with a length is an `Option (List UInt8)`, whose length is that argument.
-/

namespace RuntimeBle.Request

open RuntimeBle.Lib

/-! ## Calls -/

/-- The public request functions with their arguments. -/
inductive ApiCall where
  | send (data : Option (List UInt8))
  | notify (chr : UInt16) (data : Option (List UInt8))
  | indicate (chr : UInt16) (data : Option (List UInt8))
  | setPhy (phy : UInt8)
  | updateDataLength (txOctets txTimeUs : UInt16)
  | updateConnParams (minIntervalMs maxIntervalMs latency timeoutMs : UInt16)
  | updateFrameSpace (minUs maxUs : UInt32) (phyMask spacingTypes : UInt8)
  | requestConnectionRate (minIntervalMs maxIntervalMs subrateMin subrateMax latency
      continuationNumber timeoutMs : UInt16)
  | readRssi
  | readAttMtu
  | readPhy
  | readSecurity
  | requestSecurity
  | passkeyConfirm (accept : UInt8)
  | passkeyInput (passkey : UInt32)
  | setIoCapability (capability : UInt8)
  | bondEnumerate
  | bondDelete (index : UInt8)
  | bondDeleteAll
  | scanStart (active : UInt8) (intervalMs windowMs timeoutMs : UInt16)
  | scanStartEx (active : UInt8) (intervalMs windowMs timeoutMs : UInt16) (options : UInt8)
      (filterAddr : Option (Bytes 6)) (filterAddrKind : UInt8)
  | scanStop
  | connect (addr : Option (Bytes 6))
  | connectAddr (addr : Option (Bytes 6)) (addrKind : UInt8)
  | disconnect
  | clientDiscoverServices
  | clientDiscover (uuid : Option (List UInt8))
  | clientDiscoverAll
  | clientRead (handle : UInt16)
  | clientReadBlob (handle offset : UInt16)
  | clientReadByUuid (startHandle endHandle : UInt16) (uuid : Option (List UInt8))
  | clientReadDescriptor (handle : UInt16)
  | clientReadDescriptorBlob (handle offset : UInt16)
  | clientDiscoverDescriptors (startHandle endHandle : UInt16)
  | clientWrite (handle : UInt16) (data : Option (List UInt8))
  | clientWriteNoRsp (handle : UInt16) (data : Option (List UInt8))
  | clientWriteDescriptor (handle : UInt16) (data : Option (List UInt8))
  | clientSubscribe (handle : UInt16)
  | clientSubscribeIndicate (handle : UInt16)
  | clientUnsubscribe (handle : UInt16)
  | l2capSend (data : Option (List UInt8))
deriving DecidableEq

/-- A function rejects its arguments (or is not in the build), or makes a call. -/
abbrev Entry := Except Int ReqCall

/-! ## Notifications -/

/-- `queue_tx`: the flag is tested, and the bytes and the three words are
stored before it is set. -/
def queueTx (chr kind : Nat) (data : Option (List UInt8)) : Entry :=
  match data with
  | none => .error runtimeBleErrInvalid
  | some data =>
      if data.length = 0 ∨ data.length > sendBufCap then .error runtimeBleErrInvalid
      else
        .ok
          { early := []
            slot := .sendReq
            late := [.copy .sendBuf data, .store .sendChr chr, .store .sendKind kind,
              .store .sendLen data.length]
            cmd := 1 }

/-- A notification of the built-in service's TX. -/
def runtimeBleSend (data : Option (List UInt8)) : Entry :=
  queueTx nusTxChr sendKindAuto data

/-- A notification of the characteristic `chr`, or an indication if it has no
other. -/
def runtimeBleNotify (chr : UInt16) (data : Option (List UInt8)) : Entry :=
  queueTx chr.toNat sendKindAuto data

/-- An indication of the characteristic `chr`. -/
def runtimeBleIndicate (chr : UInt16) (data : Option (List UInt8)) : Entry :=
  queueTx chr.toNat sendKindIndicate data

/-! ## Link control -/

/-- `link_cmd`, behind the parameter stores of its caller. -/
def linkCmd (stores : List (Put Word Buf)) (cmd : Nat) : Entry :=
  .ok { early := stores, slot := .linkCmd, late := [], cmd }

/-- The PHY that the link is to change to: 1M, 2M or coded. -/
def runtimeBleSetPhy (phy : UInt8) : Entry :=
  if phy ≠ 1 ∧ phy ≠ 2 ∧ phy ≠ 3 then .error runtimeBleErrInvalid
  else linkCmd [.store .linkPhy phy.toNat] lcmdSetPhy

/-- The length and the time of a data packet. -/
def runtimeBleUpdateDataLength (txOctets txTimeUs : UInt16) : Entry :=
  linkCmd [.store .linkDleOctets txOctets.toNat, .store .linkDleTimeUs txTimeUs.toNat] lcmdDle

/-- The connection parameters to ask for, unchecked. -/
def runtimeBleUpdateConnParams (minIntervalMs maxIntervalMs latency timeoutMs : UInt16) : Entry :=
  linkCmd
    [.store .linkConnMinMs minIntervalMs.toNat,
      .store .linkConnMaxMs maxIntervalMs.toNat,
      .store .linkConnLatency latency.toNat,
      .store .linkConnTimeoutMs timeoutMs.toNat]
    lcmdConnParams

/-- The bounds of the frame space, for a set of PHYs and of spacings. -/
def runtimeBleUpdateFrameSpace (minUs maxUs : UInt32) (phyMask spacingTypes : UInt8) : Entry :=
  linkCmd
    [.store .linkFrameSpaceMinUs minUs.toNat,
      .store .linkFrameSpaceMaxUs maxUs.toNat,
      .store .linkFrameSpacePhyMask phyMask.toNat,
      .store .linkFrameSpaceTypes spacingTypes.toNat]
    lcmdFrameSpace

/-- The connection rate to ask for; four of its words are those of the
connection parameters. -/
def runtimeBleRequestConnectionRate (minIntervalMs maxIntervalMs subrateMin subrateMax latency
    continuationNumber timeoutMs : UInt16) : Entry :=
  linkCmd
    [.store .linkConnMinMs minIntervalMs.toNat,
      .store .linkConnMaxMs maxIntervalMs.toNat,
      .store .linkRateSubrateMin subrateMin.toNat,
      .store .linkRateSubrateMax subrateMax.toNat,
      .store .linkConnLatency latency.toNat,
      .store .linkRateContinuation continuationNumber.toNat,
      .store .linkConnTimeoutMs timeoutMs.toNat]
    lcmdConnectionRate

/-- The two answers to a passkey that is shown are two commands. -/
def runtimeBlePasskeyConfirm (accept : UInt8) : Entry :=
  linkCmd [] (if accept = 0 then lcmdPasskeyCancel else lcmdPasskeyConfirm)

/-- A passkey of at most six digits. -/
def runtimeBlePasskeyInput (passkey : UInt32) : Entry :=
  if passkey > 999999 then .error runtimeBleErrInvalid
  else linkCmd [.store .linkPasskey passkey.toNat] lcmdPasskeyInput

/-! ## Bond administration -/

/-- The capabilities the header names. -/
def validIoCapability (capability : UInt8) : Bool := capability ≤ 5

/-- What a bond command stores ahead of itself. -/
def bondAdminStores (cmd value : Nat) : List (Put Word Buf) :=
  match cmd with
  | bcmdDelete => [.store .bondIndex value]
  | bcmdSetIoCapability => [.store .bondIoCapability value]
  | _ => []

/-- `bond_admin_cmd`: the parameter is stored behind the busy test. -/
def bondAdminCmd (cmd value : Nat) : Entry :=
  .ok { early := [], slot := .bondCmd, late := bondAdminStores cmd value, cmd }

/-- The capability for the pairings to come, if it is one. -/
def runtimeBleSetIoCapability (capability : UInt8) : Entry :=
  if validIoCapability capability then bondAdminCmd bcmdSetIoCapability capability.toNat
  else .error runtimeBleErrInvalid

/-! ## Central -/

/-- `central_cmd`, behind the parameter stores of its caller. -/
def centralCmd (b : Build) (stores : List (Put Word Buf)) (cmd handle : Nat) : Entry :=
  if b.central then
    .ok
      { early := stores, slot := .centralCmd, late := [.store .centralHandle handle], cmd }
  else .error runtimeBleErrInvalid

/-- Two handles in one word: `((hi as u32) << 16) | lo as u32`. -/
def packHandles (hi lo : UInt16) : Nat := hi.toNat * 65536 + lo.toNat

/-- A scan with its options, and an address to filter by if one is given. -/
def runtimeBleScanStartEx (b : Build) (active : UInt8) (intervalMs windowMs timeoutMs : UInt16)
    (options : UInt8) (filterAddr : Option (Bytes 6)) (filterAddrKind : UInt8) : Entry :=
  let filter := match filterAddr with
    | none => []
    | some addr => [.copy .scanFilterAddr addr.toList]
  centralCmd b
    ([.store .scanActive (if active ≠ 0 then 1 else 0),
      .store .scanIntervalMs intervalMs.toNat,
      .store .scanWindowMs windowMs.toNat,
      .store .scanTimeoutMs timeoutMs.toNat,
      .store .scanFilterDuplicates (if options &&& 0x01 ≠ 0 then 1 else 0),
      .store .scanPhyOptions (options &&& 0x0e).toNat,
      .store .scanFilterAddrEnabled (if filterAddr.isSome then 1 else 0)]
      ++ filter ++ [.store .scanFilterAddrKind filterAddrKind.toNat])
    ccmdScanStart 0

/-- A scan without options or a filter. -/
def runtimeBleScanStart (b : Build) (active : UInt8) (intervalMs windowMs timeoutMs : UInt16) :
    Entry :=
  runtimeBleScanStartEx b active intervalMs windowMs timeoutMs 0 none 0

/-- A connection to the address of the given kind. -/
def runtimeBleConnectAddr (b : Build) (addr : Option (Bytes 6)) (addrKind : UInt8) : Entry :=
  match addr with
  | none => .error runtimeBleErrInvalid
  | some addr =>
      centralCmd b
        [.copy .centralAddr addr.toList, .store .centralAddrKind addrKind.toNat] ccmdConnect 0

/-- A connection to a random address. -/
def runtimeBleConnect (b : Build) (addr : Option (Bytes 6)) : Entry :=
  runtimeBleConnectAddr b addr 0

/-- The UUID stores of `runtime_ble_client_discover` and `_read_by_uuid`;
`none` for the UUIDs they refuse. -/
def uuidStores (uuid : Option (List UInt8)) : Option (List (Put Word Buf)) :=
  match uuid with
  | none => none
  | some uuid =>
      if uuid.length ≠ 2 ∧ uuid.length ≠ 16 then none
      else some [.copy .centralUuid uuid, .store .centralUuidLen uuid.length]

/-- The characteristics of the services with the UUID. -/
def runtimeBleClientDiscover (b : Build) (uuid : Option (List UInt8)) : Entry :=
  match uuidStores uuid with
  | none => .error runtimeBleErrInvalid
  | some stores => centralCmd b stores ccmdDiscover 0

/-- The values with the UUID in a range of handles. -/
def runtimeBleClientReadByUuid (b : Build) (startHandle endHandle : UInt16)
    (uuid : Option (List UInt8)) : Entry :=
  if startHandle = 0 ∨ endHandle < startHandle then .error runtimeBleErrInvalid
  else
    match uuidStores uuid with
    | none => .error runtimeBleErrInvalid
    | some stores => centralCmd b stores ccmdReadByUuid (packHandles startHandle endHandle)

/-- The value behind a handle. -/
def runtimeBleClientRead (b : Build) (handle : UInt16) : Entry :=
  centralCmd b [] ccmdRead handle.toNat

/-- The value behind a handle from an offset on; both go in one word. -/
def runtimeBleClientReadBlob (b : Build) (handle offset : UInt16) : Entry :=
  centralCmd b [] ccmdReadBlob (packHandles offset handle)

/-- The attributes in a range of handles; both ends go in one word. -/
def runtimeBleClientDiscoverDescriptors (b : Build) (startHandle endHandle : UInt16) : Entry :=
  if startHandle = 0 ∨ endHandle < startHandle then .error runtimeBleErrInvalid
  else centralCmd b [] ccmdDiscoverDescriptors (packHandles startHandle endHandle)

/-- `central_write`: the payload goes into the buffer of the notifications. -/
def centralWrite (b : Build) (cmd : Nat) (handle : UInt16) (data : Option (List UInt8)) : Entry :=
  match data with
  | none => .error runtimeBleErrInvalid
  | some data =>
      if data.length = 0 ∨ data.length > sendBufCap then .error runtimeBleErrInvalid
      else
        centralCmd b [.copy .sendBuf data, .store .sendLen data.length] cmd handle.toNat

/-- A write that the peer answers. -/
def runtimeBleClientWrite (b : Build) (handle : UInt16) (data : Option (List UInt8)) : Entry :=
  centralWrite b ccmdWrite handle data

/-! ## L2CAP -/

/-- An SDU for the open channel, in a build with channels. -/
def runtimeBleL2capSend (b : Build) (data : Option (List UInt8)) : Entry :=
  match data with
  | none => .error runtimeBleErrInvalid
  | some data =>
      if b.l2cap = false ∨ data.length = 0 ∨ data.length > sendBufCap then
        .error runtimeBleErrInvalid
      else
        .ok
          { early := []
            slot := .l2capSendReq
            late := [.copy .l2capSendBuf data, .store .l2capSendLen data.length]
            cmd := 1 }

/-! ## The whole API -/

/-- What each function does with its arguments. -/
def ApiCall.entry (b : Build) : ApiCall → Entry
  | .send data => runtimeBleSend data
  | .notify chr data => runtimeBleNotify chr data
  | .indicate chr data => runtimeBleIndicate chr data
  | .setPhy phy => runtimeBleSetPhy phy
  | .updateDataLength txOctets txTimeUs => runtimeBleUpdateDataLength txOctets txTimeUs
  | .updateConnParams mn mx latency timeoutMs => runtimeBleUpdateConnParams mn mx latency timeoutMs
  | .updateFrameSpace mn mx phyMask types => runtimeBleUpdateFrameSpace mn mx phyMask types
  | .requestConnectionRate mn mx smin smax latency cont timeoutMs =>
      runtimeBleRequestConnectionRate mn mx smin smax latency cont timeoutMs
  | .readRssi => linkCmd [] lcmdReadRssi
  | .readAttMtu => linkCmd [] lcmdReadAttMtu
  | .readPhy => linkCmd [] lcmdReadPhy
  | .readSecurity => linkCmd [] lcmdReadSecurity
  | .requestSecurity => linkCmd [] lcmdSecurityRequest
  | .passkeyConfirm accept => runtimeBlePasskeyConfirm accept
  | .passkeyInput passkey => runtimeBlePasskeyInput passkey
  | .setIoCapability capability => runtimeBleSetIoCapability capability
  | .bondEnumerate => bondAdminCmd bcmdEnumerate 0
  | .bondDelete index => bondAdminCmd bcmdDelete index.toNat
  | .bondDeleteAll => bondAdminCmd bcmdDeleteAll 0
  | .scanStart active interval window timeout =>
      runtimeBleScanStart b active interval window timeout
  | .scanStartEx active interval window timeout options addr kind =>
      runtimeBleScanStartEx b active interval window timeout options addr kind
  | .scanStop => centralCmd b [] ccmdScanStop 0
  | .connect addr => runtimeBleConnect b addr
  | .connectAddr addr kind => runtimeBleConnectAddr b addr kind
  | .disconnect => centralCmd b [] ccmdDisconnect 0
  | .clientDiscoverServices => centralCmd b [] ccmdDiscoverServices 0
  | .clientDiscover uuid => runtimeBleClientDiscover b uuid
  | .clientDiscoverAll => centralCmd b [] ccmdDiscoverAll 0
  | .clientRead handle => runtimeBleClientRead b handle
  | .clientReadBlob handle offset => runtimeBleClientReadBlob b handle offset
  | .clientReadByUuid first last uuid => runtimeBleClientReadByUuid b first last uuid
  | .clientReadDescriptor handle => runtimeBleClientRead b handle
  | .clientReadDescriptorBlob handle offset => runtimeBleClientReadBlob b handle offset
  | .clientDiscoverDescriptors first last => runtimeBleClientDiscoverDescriptors b first last
  | .clientWrite handle data => runtimeBleClientWrite b handle data
  | .clientWriteNoRsp handle data => centralWrite b ccmdWriteNoRsp handle data
  | .clientWriteDescriptor handle data => runtimeBleClientWrite b handle data
  | .clientSubscribe handle => centralCmd b [] ccmdSubscribe handle.toNat
  | .clientSubscribeIndicate handle => centralCmd b [] ccmdSubscribeIndicate handle.toNat
  | .clientUnsubscribe handle => centralCmd b [] ccmdUnsubscribe handle.toNat
  | .l2capSend data => runtimeBleL2capSend b data

/-- A public function called with nothing in between. -/
def invoke (b : Build) (m : ReqMem) (a : ApiCall) : Int × ReqMem :=
  match a.entry b with
  | .error err => (err, m)
  | .ok c =>
      match c.run m with
      | (true, m') => (runtimeBleOk, m')
      | (false, m') => (runtimeBleErrNoMem, m')

/-! ## What a call is made of -/

section Shape

variable {b : Build} {a : ApiCall} {c : ReqCall}

/-- The places a call writes, in order. -/
def places (c : ReqCall) : List (Word ⊕ Buf) := (c.early ++ c.late).map Put.target

theorem linkCmd_ok {stores : List (Put Word Buf)} {cmd : Nat} (h : linkCmd stores cmd = .ok c) :
    c = { early := stores, slot := .linkCmd, late := [], cmd } :=
  (Except.ok.inj h).symm

theorem centralCmd_ok {stores : List (Put Word Buf)} {cmd handle : Nat}
    (h : centralCmd b stores cmd handle = .ok c) :
    b.central = true ∧
      c = { early := stores, slot := .centralCmd, late := [.store .centralHandle handle]
            cmd } := by
  unfold centralCmd at h
  split at h
  · exact ⟨‹_›, (Except.ok.inj h).symm⟩
  · cases h

theorem queueTx_ok {chr kind : Nat} {data : Option (List UInt8)}
    (h : queueTx chr kind data = .ok c) :
    ∃ d, data = some d ∧ d.length ≠ 0 ∧ d.length ≤ sendBufCap ∧
      c =
        { early := []
          slot := .sendReq
          late := [.copy .sendBuf d, .store .sendChr chr, .store .sendKind kind,
            .store .sendLen d.length]
          cmd := 1 } := by
  unfold queueTx at h
  split at h
  · cases h
  · rename_i d
    split_ifs at h with hlen
    exact ⟨d, rfl, by omega, by omega, (Except.ok.inj h).symm⟩

theorem centralWrite_ok {cmd : Nat} {handle : UInt16} {data : Option (List UInt8)}
    (h : centralWrite b cmd handle data = .ok c) :
    ∃ d, data = some d ∧ d.length ≠ 0 ∧ d.length ≤ sendBufCap ∧ b.central = true ∧
      c =
        { early := [.copy .sendBuf d, .store .sendLen d.length]
          slot := .centralCmd
          late := [.store .centralHandle handle.toNat]
          cmd } := by
  unfold centralWrite at h
  split at h
  · cases h
  · rename_i d
    split_ifs at h with hlen
    obtain ⟨hb, rfl⟩ := centralCmd_ok h
    exact ⟨d, rfl, by omega, by omega, hb, rfl⟩

theorem uuidStores_some {uuid : Option (List UInt8)} {stores : List (Put Word Buf)}
    (h : uuidStores uuid = some stores) :
    ∃ u, uuid = some u ∧ (u.length = 2 ∨ u.length = 16) ∧
      stores = [.copy .centralUuid u, .store .centralUuidLen u.length] := by
  unfold uuidStores at h
  split at h
  · cases h
  · rename_i u
    split_ifs at h with hlen
    exact ⟨u, rfl, by omega, (Option.some.inj h).symm⟩

theorem discover_ok {uuid : Option (List UInt8)} (h : runtimeBleClientDiscover b uuid = .ok c) :
    ∃ u, uuid = some u ∧ (u.length = 2 ∨ u.length = 16) ∧
      c =
        { early := [.copy .centralUuid u, .store .centralUuidLen u.length]
          slot := .centralCmd
          late := [.store .centralHandle 0]
          cmd := ccmdDiscover } := by
  unfold runtimeBleClientDiscover at h
  split at h
  · cases h
  · rename_i stores hstores
    obtain ⟨u, rfl, hlen, rfl⟩ := uuidStores_some hstores
    exact ⟨u, rfl, hlen, (centralCmd_ok h).2⟩

theorem readByUuid_ok {first last : UInt16} {uuid : Option (List UInt8)}
    (h : runtimeBleClientReadByUuid b first last uuid = .ok c) :
    ∃ u, uuid = some u ∧ (u.length = 2 ∨ u.length = 16) ∧
      c =
        { early := [.copy .centralUuid u, .store .centralUuidLen u.length]
          slot := .centralCmd
          late := [.store .centralHandle (packHandles first last)]
          cmd := ccmdReadByUuid } := by
  unfold runtimeBleClientReadByUuid at h
  split_ifs at h
  split at h
  · cases h
  · rename_i stores hstores
    obtain ⟨u, rfl, hlen, rfl⟩ := uuidStores_some hstores
    exact ⟨u, rfl, hlen, (centralCmd_ok h).2⟩

theorem discoverDescriptors_ok {first last : UInt16}
    (h : runtimeBleClientDiscoverDescriptors b first last = .ok c) :
    c =
      { early := []
        slot := .centralCmd
        late := [.store .centralHandle (packHandles first last)]
        cmd := ccmdDiscoverDescriptors } := by
  unfold runtimeBleClientDiscoverDescriptors at h
  split_ifs at h
  exact (centralCmd_ok h).2

theorem connectAddr_ok {addr : Option (Bytes 6)} {kind : UInt8}
    (h : runtimeBleConnectAddr b addr kind = .ok c) :
    ∃ addr', addr = some addr' ∧
      c =
        { early := [.copy .centralAddr addr'.toList, .store .centralAddrKind kind.toNat]
          slot := .centralCmd
          late := [.store .centralHandle 0]
          cmd := ccmdConnect } := by
  cases addr with
  | none => cases h
  | some addr => exact ⟨addr, rfl, (centralCmd_ok h).2⟩

theorem passkeyInput_ok {passkey : UInt32} (h : runtimeBlePasskeyInput passkey = .ok c) :
    c =
      { early := [.store .linkPasskey passkey.toNat], slot := .linkCmd, late := []
        cmd := lcmdPasskeyInput } := by
  unfold runtimeBlePasskeyInput at h
  split_ifs at h
  exact linkCmd_ok h

theorem setPhy_ok {phy : UInt8} (h : runtimeBleSetPhy phy = .ok c) :
    (phy = 1 ∨ phy = 2 ∨ phy = 3) ∧
      c = { early := [.store .linkPhy phy.toNat], slot := .linkCmd, late := []
            cmd := lcmdSetPhy } := by
  unfold runtimeBleSetPhy at h
  split_ifs at h with hphy
  exact ⟨by grind, linkCmd_ok h⟩

theorem bondAdminCmd_ok {cmd value : Nat} (h : bondAdminCmd cmd value = .ok c) :
    c = { early := [], slot := .bondCmd, late := bondAdminStores cmd value, cmd } :=
  (Except.ok.inj h).symm

theorem setIoCapability_ok {capability : UInt8}
    (h : runtimeBleSetIoCapability capability = .ok c) :
    c =
      { early := [], slot := .bondCmd
        late := bondAdminStores bcmdSetIoCapability capability.toNat
        cmd := bcmdSetIoCapability } := by
  unfold runtimeBleSetIoCapability at h
  split_ifs at h
  exact bondAdminCmd_ok h

theorem l2capSend_ok {data : Option (List UInt8)} (h : runtimeBleL2capSend b data = .ok c) :
    ∃ d, data = some d ∧ d.length ≠ 0 ∧ d.length ≤ sendBufCap ∧
      c =
        { early := []
          slot := .l2capSendReq
          late := [.copy .l2capSendBuf d, .store .l2capSendLen d.length]
          cmd := 1 } := by
  unfold runtimeBleL2capSend at h
  split at h
  · cases h
  · rename_i d
    split_ifs at h with hlen
    exact ⟨d, rfl, by omega, by omega, (Except.ok.inj h).symm⟩

/-- The functions that write nothing before they test their slot. -/
def ApiCall.testsFirst : ApiCall → Bool
  | .setPhy _ | .updateDataLength .. | .updateConnParams .. | .updateFrameSpace ..
  | .requestConnectionRate .. | .passkeyInput _ | .scanStart .. | .scanStartEx ..
  | .connect _ | .connectAddr .. | .clientDiscover _ | .clientReadByUuid ..
  | .clientWrite .. | .clientWriteNoRsp .. | .clientWriteDescriptor .. => false
  | _ => true

/-- The slot a function makes its call on. -/
def ApiCall.slot : ApiCall → Slot
  | .send _ | .notify .. | .indicate .. => .sendReq
  | .setPhy _ | .updateDataLength .. | .updateConnParams .. | .updateFrameSpace ..
  | .requestConnectionRate .. | .readRssi | .readAttMtu | .readPhy | .readSecurity
  | .requestSecurity | .passkeyConfirm _ | .passkeyInput _ => .linkCmd
  | .setIoCapability _ | .bondEnumerate | .bondDelete _ | .bondDeleteAll => .bondCmd
  | .l2capSend _ => .l2capSendReq
  | .scanStart .. | .scanStartEx .. | .scanStop | .connect _ | .connectAddr .. | .disconnect
  | .clientDiscoverServices | .clientDiscover _ | .clientDiscoverAll | .clientRead _
  | .clientReadBlob .. | .clientReadByUuid .. | .clientReadDescriptor _
  | .clientReadDescriptorBlob .. | .clientDiscoverDescriptors .. | .clientWrite ..
  | .clientWriteNoRsp .. | .clientWriteDescriptor .. | .clientSubscribe _
  | .clientSubscribeIndicate _ | .clientUnsubscribe _ => .centralCmd

/-- A call writes each place once and leaves no free mark; its slot, and
whether it writes before its test, are a matter of the function, not of its
arguments. -/
theorem call_spec (h : a.entry b = .ok c) :
    (places c).Nodup ∧ (c.early = [] ↔ a.testsFirst = true) ∧ c.slot = a.slot ∧ c.cmd ≠ 0 := by
  cases a with
  | send data | notify chr data | indicate chr data =>
      obtain ⟨d, -, -, -, rfl⟩ := queueTx_ok h
      simp [places, Put.target, ApiCall.testsFirst, ApiCall.slot]
  | setPhy phy =>
      obtain ⟨-, rfl⟩ := setPhy_ok h
      simp [places, Put.target, ApiCall.testsFirst, ApiCall.slot]
  | updateDataLength | updateConnParams | updateFrameSpace | requestConnectionRate | readRssi
  | readAttMtu | readPhy | readSecurity | requestSecurity =>
      rw [linkCmd_ok h]
      simp [places, Put.target, ApiCall.testsFirst, ApiCall.slot]
  | passkeyConfirm accept =>
      rw [linkCmd_ok h]
      by_cases haccept : accept = 0 <;> simp [places, ApiCall.testsFirst, ApiCall.slot, haccept]
  | passkeyInput passkey =>
      rw [passkeyInput_ok h]
      simp [places, Put.target, ApiCall.testsFirst, ApiCall.slot]
  | setIoCapability capability =>
      rw [setIoCapability_ok h]
      simp [places, bondAdminStores, Put.target, ApiCall.testsFirst, ApiCall.slot]
  | bondEnumerate | bondDelete | bondDeleteAll =>
      -- the command decides what is stored ahead of it
      rw [ApiCall.entry] at h
      rw [bondAdminCmd_ok h]
      simp [places, bondAdminStores, Put.target, ApiCall.testsFirst, ApiCall.slot]
  | scanStop | disconnect | clientDiscoverServices | clientDiscoverAll | clientRead
  | clientReadBlob | clientReadDescriptor | clientReadDescriptorBlob | clientSubscribe
  | clientSubscribeIndicate | clientUnsubscribe | scanStart =>
      obtain ⟨-, rfl⟩ := centralCmd_ok h
      simp [places, Put.target, ApiCall.testsFirst, ApiCall.slot]
  | scanStartEx active intervalMs windowMs timeoutMs options addr kind =>
      obtain ⟨-, rfl⟩ := centralCmd_ok h
      cases addr <;> simp [places, Put.target, ApiCall.testsFirst, ApiCall.slot]
  | connect addr | connectAddr addr kind =>
      obtain ⟨addr', -, rfl⟩ := connectAddr_ok h
      simp [places, Put.target, ApiCall.testsFirst, ApiCall.slot]
  | clientDiscover uuid =>
      obtain ⟨u, -, -, rfl⟩ := discover_ok h
      simp [places, Put.target, ApiCall.testsFirst, ApiCall.slot]
  | clientReadByUuid first last uuid =>
      obtain ⟨u, -, -, rfl⟩ := readByUuid_ok h
      simp [places, Put.target, ApiCall.testsFirst, ApiCall.slot]
  | clientDiscoverDescriptors first last =>
      rw [discoverDescriptors_ok h]
      simp [places, Put.target, ApiCall.testsFirst, ApiCall.slot]
  | clientWrite handle data | clientWriteNoRsp handle data | clientWriteDescriptor handle data =>
      obtain ⟨d, -, -, -, -, rfl⟩ := centralWrite_ok h
      simp [places, Put.target, ApiCall.testsFirst, ApiCall.slot]
  | l2capSend data =>
      obtain ⟨d, -, -, -, rfl⟩ := l2capSend_ok h
      simp [places, Put.target, ApiCall.testsFirst, ApiCall.slot]

/-- A function that makes no call has turned its arguments down. -/
theorem error_of_entry {err : Int} (h : a.entry b = .error err) : err = runtimeBleErrInvalid := by
  have hcentral : ∀ {stores cmd handle}, centralCmd b stores cmd handle = .error err →
      err = runtimeBleErrInvalid := by
    intro stores cmd handle hc
    unfold centralCmd at hc
    split at hc <;> cases hc
    rfl
  cases a with
  | send data | notify chr data | indicate chr data =>
      simp only [ApiCall.entry, runtimeBleSend, runtimeBleNotify, runtimeBleIndicate, queueTx] at h
      grind
  | clientWrite handle data | clientWriteNoRsp handle data | clientWriteDescriptor handle data =>
      simp only [ApiCall.entry, runtimeBleClientWrite, centralWrite] at h
      grind
  | connect addr | connectAddr addr kind =>
      simp only [ApiCall.entry, runtimeBleConnect, runtimeBleConnectAddr] at h
      grind
  | clientDiscover uuid =>
      simp only [ApiCall.entry, runtimeBleClientDiscover] at h
      grind
  | clientReadByUuid first last uuid =>
      simp only [ApiCall.entry, runtimeBleClientReadByUuid] at h
      grind
  | clientDiscoverDescriptors first last =>
      simp only [ApiCall.entry, runtimeBleClientDiscoverDescriptors] at h
      grind
  | setPhy phy =>
      simp only [ApiCall.entry, runtimeBleSetPhy, linkCmd] at h
      grind
  | passkeyInput passkey =>
      simp only [ApiCall.entry, runtimeBlePasskeyInput, linkCmd] at h
      grind
  | setIoCapability capability =>
      simp only [ApiCall.entry, runtimeBleSetIoCapability, bondAdminCmd] at h
      grind
  | l2capSend data =>
      simp only [ApiCall.entry, runtimeBleL2capSend] at h
      grind
  | scanStop | disconnect | clientDiscoverServices | clientDiscoverAll | clientRead
  | clientReadBlob | clientReadDescriptor | clientReadDescriptorBlob | clientSubscribe
  | clientSubscribeIndicate | clientUnsubscribe | scanStart | scanStartEx =>
      exact hcentral h
  | _ => cases h

end Shape

end RuntimeBle.Request
