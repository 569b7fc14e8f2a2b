import RuntimeBle.Request.Api

/-!
# Request — Consumers

The loops of the runtime thread that take requests out of the slots, each
as the reads it makes for a command, in the source's order, and what it
does with them.

The `is_valid` of the host crate's connection parameters is a parameter of
`linkControlOnce`; durations are in the unit of the field's name.
-/

namespace RuntimeBle.Request

open RuntimeBle.Lib

/-- `if x == 0 { default } else { x }`. -/
def orDefault (x default : Nat) : Nat := if x = 0 then default else x

/-- `x.min(u16::MAX as usize) as u16`. -/
def clampU16 (x : Nat) : UInt16 := UInt16.ofNat (min x 0xffff)

/-- `x.min(u8::MAX as usize) as u8`. -/
def clampU8 (x : Nat) : UInt8 := UInt8.ofNat (min x 0xff)

@[simp] theorem clampU16_toNat (x : UInt16) : clampU16 x.toNat = x := by
  have hx : x.toNat < 65536 := x.toNat_lt
  rw [clampU16, Nat.min_eq_left (by omega)]
  exact UInt16.ofNat_toNat

@[simp] theorem clampU8_toNat (x : UInt8) : clampU8 x.toNat = x := by
  have hx : x.toNat < 256 := x.toNat_lt
  rw [clampU8, Nat.min_eq_left (by omega)]
  exact UInt8.ofNat_toNat

theorem u16_toNat_eq_zero {x : UInt16} : x.toNat = 0 ↔ x = 0 := UInt16.toNat_inj (b := 0)

/-! ## Notifications -/

/-- What the tx loop of `connection_task` transmits. -/
structure TxSnapshot where
  chr : Nat
  kind : Nat
  bytes : List UInt8
deriving DecidableEq

/-- `len.min(VALUE_LEN).min(SEND_BUF_CAP)`. -/
def payloadLen (b : Build) (len : Nat) : Nat := min (min len b.valueLen) sendBufCap

/-- The accesses of `tx_loop`, once it has seen the flag. -/
def txLoop (b : Build) : ReqFetch TxSnapshot :=
  .load .sendChr fun chr =>
  .load .sendKind fun kind =>
  .load .sendLen fun len =>
  .read .sendBuf (payloadLen b len) fun bytes =>
  .done { chr, kind, bytes }

/-- The send pump of `l2cap_serve`. -/
def l2capPump (b : Build) : ReqFetch (List UInt8) :=
  .load .l2capSendLen fun len =>
  .read .l2capSendBuf (min len b.valueLen) fun bytes =>
  .done bytes

/-! ## Link control -/

/-- The PHYs of the host crate. -/
inductive PhyKind where
  | le1M
  | le2M
  | leCoded
  | leCodedS2
deriving DecidableEq

/-- The `match LINK_PHY` of `link_control_once`. -/
def phyKind : Nat → PhyKind
  | 2 => .le2M
  | 3 => .leCoded
  | _ => .le1M

/-- `RequestedConnParams`, less its event lengths, which are always 0. -/
structure RequestedConnParams where
  minConnectionIntervalMs : Nat
  maxConnectionIntervalMs : Nat
  maxLatency : UInt16
  supervisionTimeoutMs : Nat
deriving DecidableEq

/-- A 0 stands for the default. -/
def RequestedConnParams.ofWords (minMs maxMs latency timeoutMs : Nat) : RequestedConnParams where
  minConnectionIntervalMs := orDefault minMs 80
  maxConnectionIntervalMs := orDefault maxMs 80
  maxLatency := clampU16 latency
  supervisionTimeoutMs := orDefault timeoutMs 8000

/-- The PHYs that a frame space is for. -/
structure PhyMask where
  le1mPhy : Bool
  le2mPhy : Bool
  leCodedPhy : Bool
deriving DecidableEq

/-- No bits stand for all of them. -/
def PhyMask.ofBits (bits : UInt8) : PhyMask where
  le1mPhy := bits == 0 || bits &&& 0x01 != 0
  le2mPhy := bits == 0 || bits &&& 0x02 != 0
  leCodedPhy := bits == 0 || bits &&& 0x04 != 0

/-- The spacings that a frame space is for. -/
structure SpacingTypes where
  tIfsAclCp : Bool
  tIfsAclPc : Bool
  tMces : Bool
  tIfsCis : Bool
  tMssCis : Bool
deriving DecidableEq

/-- No bits stand for the first two. -/
def SpacingTypes.ofBits (bits : UInt8) : SpacingTypes where
  tIfsAclCp := bits == 0 || bits &&& 0x01 != 0
  tIfsAclPc := bits == 0 || bits &&& 0x02 != 0
  tMces := bits &&& 0x04 != 0
  tIfsCis := bits &&& 0x08 != 0
  tMssCis := bits &&& 0x10 != 0

/-- `ConnectRateParams`, less its connection event lengths, which are always 0. -/
structure ConnectRateParams where
  minConnectionIntervalMs : Nat
  maxConnectionIntervalMs : Nat
  subrateMin : UInt16
  subrateMax : UInt16
  maxLatency : UInt16
  continuationNumber : UInt16
  supervisionTimeoutMs : Nat
deriving DecidableEq

/-- A 0 stands for the default, and for subrate 1. -/
def ConnectRateParams.ofWords (minMs maxMs timeoutMs subrateMin subrateMax latency
    continuation : Nat) : ConnectRateParams where
  minConnectionIntervalMs := orDefault minMs 80
  maxConnectionIntervalMs := orDefault maxMs 80
  subrateMin := if subrateMin = 0 then 1 else clampU16 subrateMin
  subrateMax := if subrateMax = 0 then 1 else clampU16 subrateMax
  maxLatency := clampU16 latency
  continuationNumber := clampU16 continuation
  supervisionTimeoutMs := orDefault timeoutMs 8000

/-- What `link_control_once` does on the connection; the `invalid` ones are
its log lines. -/
inductive LinkOp where
  | setPhy (phy : PhyKind)
  | updateDataLength (octets timeUs : UInt16)
  | updateConnectionParams (params : RequestedConnParams)
  | invalidConnectionParams
  | updateFrameSpace (minUs maxUs : Nat) (phys : PhyMask) (types : SpacingTypes)
  | invalidFrameSpacing
  | requestConnectionRate (params : ConnectRateParams)
  | invalidConnectionRate
  | requestSecurity
  | passKeyConfirm
  | passKeyCancel
  | passKeyInput (passkey : Nat)
  | readRssi
  | readAttMtu
  | readPhy
  | readSecurity
  | ignored
deriving DecidableEq

/-- `LCMD_DLE`: a 0 stands for the largest. -/
def dataLengthOp (octets timeUs : Nat) : LinkOp :=
  .updateDataLength (if octets = 0 then 251 else clampU16 octets)
    (if timeUs = 0 then 2120 else clampU16 timeUs)

/-- `LCMD_CONN_PARAMS`: what is not valid is not asked for. -/
def connParamsOp (isValid : RequestedConnParams → Bool) (params : RequestedConnParams) : LinkOp :=
  if isValid params then .updateConnectionParams params else .invalidConnectionParams

/-- `LCMD_CONNECTION_RATE`: nor is a range from above to below. -/
def connectionRateOp (params : ConnectRateParams) : LinkOp :=
  if params.minConnectionIntervalMs ≤ params.maxConnectionIntervalMs
      ∧ params.subrateMin ≤ params.subrateMax then
    .requestConnectionRate params
  else .invalidConnectionRate

/-- `link_control_once`: what it reads for a command, and what it asks of the
host. -/
def linkControlOnce (isValid : RequestedConnParams → Bool) (cmd : Nat) : ReqFetch LinkOp :=
  match cmd with
  | lcmdSetPhy => .load .linkPhy fun phy => .done (.setPhy (phyKind phy))
  | lcmdDle =>
      .load .linkDleOctets fun octets =>
      .load .linkDleTimeUs fun timeUs =>
      .done (dataLengthOp octets timeUs)
  | lcmdConnParams =>
      .load .linkConnMinMs fun minMs =>
      .load .linkConnMaxMs fun maxMs =>
      .load .linkConnTimeoutMs fun timeoutMs =>
      .load .linkConnLatency fun latency =>
      .done (connParamsOp isValid (.ofWords minMs maxMs latency timeoutMs))
  | lcmdFrameSpace =>
      .load .linkFrameSpaceMinUs fun minUs =>
      .load .linkFrameSpaceMaxUs fun maxUs =>
      -- the masks are read only for a range that is in order
      if orDefault minUs 150 > orDefault maxUs 10000 then .done .invalidFrameSpacing
      else
        .load .linkFrameSpacePhyMask fun phyBits =>
        .load .linkFrameSpaceTypes fun typeBits =>
        .done (.updateFrameSpace (orDefault minUs 150) (orDefault maxUs 10000)
          (.ofBits (UInt8.ofNat phyBits)) (.ofBits (UInt8.ofNat typeBits)))
  | lcmdConnectionRate =>
      .load .linkConnMinMs fun minMs =>
      .load .linkConnMaxMs fun maxMs =>
      .load .linkConnTimeoutMs fun timeoutMs =>
      .load .linkRateSubrateMin fun subrateMin =>
      .load .linkRateSubrateMax fun subrateMax =>
      .load .linkConnLatency fun latency =>
      .load .linkRateContinuation fun continuation =>
      .done (connectionRateOp
        (.ofWords minMs maxMs timeoutMs subrateMin subrateMax latency continuation))
  | lcmdSecurityRequest => .done .requestSecurity
  | lcmdPasskeyConfirm => .done .passKeyConfirm
  | lcmdPasskeyCancel => .done .passKeyCancel
  | lcmdPasskeyInput => .load .linkPasskey fun passkey => .done (.passKeyInput passkey)
  | lcmdReadRssi => .done .readRssi
  | lcmdReadAttMtu => .done .readAttMtu
  | lcmdReadPhy => .done .readPhy
  | lcmdReadSecurity => .done .readSecurity
  | _ => .done .ignored

/-! ## Bond administration -/

/-- The capabilities of the host crate. -/
inductive IoCapabilities where
  | displayOnly
  | displayYesNo
  | keyboardOnly
  | keyboardDisplay
  | noInputNoOutput
deriving DecidableEq

/-- `io_capability_from_c`: what it does not know has no input and no output. -/
def ioCapabilityFromC (capability : UInt8) : IoCapabilities :=
  match capability with
  | 1 => .displayOnly
  | 2 => .displayYesNo
  | 3 => .keyboardOnly
  | 5 => .keyboardDisplay
  | _ => .noInputNoOutput

/-- What `bond_admin_loop` does with a command. -/
inductive BondAdminOp where
  | enumerate
  | delete (index : UInt8)
  | deleteAll
  | setIoCapabilities (capability : IoCapabilities)
  | ignored
deriving DecidableEq

/-- What it reads for a command. -/
def bondAdminLoop (cmd : Nat) : ReqFetch BondAdminOp :=
  match cmd with
  | bcmdEnumerate => .done .enumerate
  | bcmdDelete => .load .bondIndex fun index => .done (.delete (clampU8 index))
  | bcmdDeleteAll => .done .deleteAll
  | bcmdSetIoCapability =>
      .load .bondIoCapability fun cap =>
      .done (.setIoCapabilities (ioCapabilityFromC (clampU8 cap)))
  | _ => .done .ignored

/-! ## The idle central -/

/-- A peer address as the application gave it: the bytes and the kind byte. -/
structure PeerAddress where
  addr : List UInt8
  kind : UInt8
deriving DecidableEq

/-- The sets of PHYs that a scan can use. -/
inductive PhySet where
  | m1 | m2 | coded | m1m2 | m1Coded | m2Coded | m1m2Coded
deriving DecidableEq

/-- `scan_phys`. -/
def scanPhys (options : Nat) : PhySet :=
  match options &&& 0x0e with
  | 0x04 => .m2
  | 0x08 => .coded
  | 0x06 => .m1m2
  | 0x0a => .m1Coded
  | 0x0c => .m2Coded
  | 0x0e => .m1m2Coded
  | _ => .m1

/-- How a scan is started. -/
structure ScanConfig where
  active : Bool
  filterAcceptList : Option PeerAddress
  phys : PhySet
  intervalMs : Nat
  windowMs : Nat
  timeoutMs : Nat
  filterDuplicates : Bool
deriving DecidableEq

/-- A 0 stands for the default interval and window. -/
def ScanConfig.ofWords (active intervalMs windowMs timeoutMs duplicates options : Nat)
    (filter : Option PeerAddress) : ScanConfig where
  active := active != 0
  filterAcceptList := filter
  phys := scanPhys options
  intervalMs := orDefault intervalMs 100
  windowMs := orDefault windowMs 50
  timeoutMs := timeoutMs
  filterDuplicates := duplicates != 0

/-- The configuration `run_scan` reads before it scans. -/
def runScanConfig : ReqFetch ScanConfig :=
  .load .scanIntervalMs fun intervalMs =>
  .load .scanWindowMs fun windowMs =>
  .load .scanTimeoutMs fun timeoutMs =>
  let rest filter :=
    .load .scanActive fun active =>
    .load .scanPhyOptions fun options =>
    .load .scanFilterDuplicates fun duplicates =>
    .done (.ofWords active intervalMs windowMs timeoutMs duplicates options filter)
  .load .scanFilterAddrEnabled fun enabled =>
  if enabled ≠ 0 then
    .read .scanFilterAddr 6 fun addr =>
    .load .scanFilterAddrKind fun kind =>
    rest (some { addr, kind := UInt8.ofNat kind })
  else rest none

/-- The reads of `CCMD_CONNECT`, in `wait_idle_cmd` and `run_scan` alike. -/
def readConnect : ReqFetch PeerAddress :=
  .read .centralAddr 6 fun addr =>
  .load .centralAddrKind fun kind =>
  .done { addr, kind := UInt8.ofNat kind }

/-- What the idle central does with a command. -/
inductive IdleOp where
  | connect (peer : PeerAddress)
  | scan (config : ScanConfig)
  | ignored
deriving DecidableEq

/-- `wait_idle_cmd`, and for `CCMD_SCAN_START` the start of `run_scan`,
which follows without an await. -/
def waitIdleCmd (cmd : Nat) : ReqFetch IdleOp :=
  match cmd with
  | ccmdConnect => readConnect.map .connect
  | ccmdScanStart => runScanConfig.map .scan
  | _ => .done .ignored

/-- What a scan does with a command. -/
inductive ScanOp where
  | stop
  | connect (peer : PeerAddress)
  | ignored
deriving DecidableEq

/-- The command poll of `run_scan`. -/
def runScan (cmd : Nat) : ReqFetch ScanOp :=
  match cmd with
  | ccmdScanStop => .done .stop
  | ccmdConnect => readConnect.map .connect
  | _ => .done .ignored

/-! ## The connected central -/

/-- What the client session does with a command. -/
inductive ClientOp where
  | disconnect
  | discoverServices
  | discover (uuid : List UInt8)
  | discoverAll
  | discoverDescriptors (first last : UInt16)
  | readByUuid (first last : UInt16) (uuid : List UInt8)
  | read (handle : UInt16)
  | readBlob (handle offset : UInt16)
  | write (handle : UInt16) (bytes : List UInt8)
  | writeNoRsp (handle : UInt16) (bytes : List UInt8)
  | subscribe (handle : UInt16)
  | subscribeIndicate (handle : UInt16)
  | unsubscribe (handle : UInt16)
  | ignored
deriving DecidableEq

/-- `uuid_from` on `CENTRAL_UUID`: the little-endian bytes of the UUID, the
short UUID 0 for any other length. -/
def readUuid {O : Type} (len : Nat) (next : List UInt8 → ReqFetch O) : ReqFetch O :=
  if len % 256 = 2 then .read .centralUuid 2 next
  else if len % 256 = 16 then .read .centralUuid 16 next
  else next [0, 0]

theorem yields_readUuid {O : Type} {len : Nat} {next : List UInt8 → ReqFetch O} {o : O}
    (h : (readUuid len next).Yields o) : ∃ uuid, (next uuid).Yields o := by
  unfold readUuid at h
  split at h
  · obtain ⟨uuid, -, h⟩ := Fetch.yields_read.mp h
    exact ⟨uuid, h⟩
  · split at h
    · obtain ⟨uuid, -, h⟩ := Fetch.yields_read.mp h
      exact ⟨uuid, h⟩
    · exact ⟨_, h⟩

/-- `packed as u16` and `(packed >> 16) as u16`. -/
def lowHandle (packed : Nat) : UInt16 := UInt16.ofNat packed

/-- The upper of two handles in one word. -/
def highHandle (packed : Nat) : UInt16 := UInt16.ofNat (packed / 65536)

/-- The handle, the length and the bytes of a write. -/
def clientWritePayload (b : Build) (op : UInt16 → List UInt8 → ClientOp) : ReqFetch ClientOp :=
  .load .centralHandle fun handle =>
  .load .sendLen fun len =>
  .read .sendBuf (payloadLen b len) fun bytes =>
  .done (op (lowHandle handle) bytes)

/-- The command pump of `client_session`. -/
def clientSession (b : Build) (cmd : Nat) : ReqFetch ClientOp :=
  match cmd with
  | ccmdDisconnect => .done .disconnect
  | ccmdDiscoverServices => .done .discoverServices
  | ccmdDiscover =>
      .load .centralUuidLen fun len => readUuid len fun uuid => .done (.discover uuid)
  | ccmdDiscoverAll => .done .discoverAll
  | ccmdDiscoverDescriptors =>
      .load .centralHandle fun range =>
      .done (.discoverDescriptors (highHandle range) (lowHandle range))
  | ccmdReadByUuid =>
      .load .centralHandle fun packed =>
      .load .centralUuidLen fun len =>
      readUuid len fun uuid =>
      .done (.readByUuid (highHandle packed) (lowHandle packed) uuid)
  | ccmdRead => .load .centralHandle fun packed => .done (.read (lowHandle packed))
  | ccmdReadBlob =>
      .load .centralHandle fun packed =>
      .done (.readBlob (lowHandle packed) (highHandle packed))
  | ccmdWrite => clientWritePayload b .write
  | ccmdWriteNoRsp => clientWritePayload b .writeNoRsp
  | ccmdSubscribe => .load .centralHandle fun handle => .done (.subscribe (lowHandle handle))
  | ccmdSubscribeIndicate =>
      .load .centralHandle fun handle => .done (.subscribeIndicate (lowHandle handle))
  | ccmdUnsubscribe => .load .centralHandle fun handle => .done (.unsubscribe (lowHandle handle))
  | _ => .done .ignored

end RuntimeBle.Request
