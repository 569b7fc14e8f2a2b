/-!
# Config

The configuration the application hands to `runtime_ble_init` and the
flat copy of it the runtime thread reads, with the build features that
fix the buffer sizes.

A pointer with its length (`const uint8_t *data; uint8_t data_len`) is an
`Option (List UInt8)`: `none` is the null pointer, and the length field is
the length of the list. A callback is known by whether it is set. A
zeroed C struct is the record of all default values.
-/

namespace RuntimeBle

/-- `[u8; n]`. -/
abbrev Bytes (n : Nat) := Vector UInt8 n

/-! ## Build features -/

/-- The cargo features a staticlib is built with. -/
structure Build where
  central : Bool := false
  l2cap : Bool := false
  perf : Bool := false
deriving DecidableEq, Repr

/-- `central`, `l2cap` and `perf` each pull in the umbrella feature `_full`. -/
def Build.full (b : Build) : Bool := b.central || b.l2cap || b.perf

/-- `VALUE_LEN`: the value buffer of one characteristic. -/
def Build.valueLen (b : Build) : Nat := if b.full then 244 else 128

/-- `ATT_MAX`: the capacity of the attribute table. -/
def Build.attMax (b : Build) : Nat := if b.full then 64 else 32

/-! ## Result codes -/

def runtimeBleOk : Int := 0
def runtimeBleErrInvalid : Int := -1
def runtimeBleErrNoMem : Int := -2
def runtimeBleErrMpsl : Int := -3
def runtimeBleErrSdc : Int := -4
def runtimeBleErrTimeout : Int := -5
def runtimeBleErrAbi : Int := -6

/-- `runtime_ble_load_status` while a load is in progress. -/
def runtimeBleLoadPending : Int := 1

def runtimeBleAbiVersion : UInt32 := 1

/-! ## The GATT declaration -/

/-- A descriptor, as the application declares it. -/
structure RuntimeBleDescDef where
  uuid : Option (List UInt8)
  value : Option (List UInt8) := none
  permissions : UInt16 := 0
deriving DecidableEq

/-- A characteristic, as the application declares it. -/
structure RuntimeBleCharDef where
  uuid : Option (List UInt8)
  props : UInt16 := 0
  maxLen : UInt16 := 0
  permissions : UInt16 := 0
  descriptors : Option (List RuntimeBleDescDef) := none
deriving DecidableEq

/-- A service, as the application declares it. -/
structure RuntimeBleServiceDef where
  uuid : Option (List UInt8)
  chars : Option (List RuntimeBleCharDef) := none
deriving DecidableEq

/-! ## The public configuration -/

/-- The callbacks the model consults, by presence. -/
structure RuntimeBleCallbacks where
  onDisconnected : Bool := false
  onData : Bool := false
  onWrite : Bool := false
  onReadValue : Bool := false
  onSubscription : Bool := false
  onConnParams : Bool := false
  onPhyUpdate : Bool := false
  onDataLengthUpdate : Bool := false
  onFrameSpace : Bool := false
  onConnectionRate : Bool := false
  onSecurityEvent : Bool := false
  onBondLoad : Bool := false
  onBondStore : Bool := false
  onBond : Bool := false
  onBondDeleted : Bool := false
  onOobRequest : Bool := false
  onLog : Bool := false
  onDescriptorWrite : Bool := false
  onDescriptorReadValue : Bool := false
  onWriteExt : Bool := false
  onDescriptorWriteExt : Bool := false
deriving DecidableEq

/-- `config.adv`. -/
structure RuntimeBleAdv where
  data : Option (List UInt8) := none
  manufacturerId : UInt16 := 0
  manufacturerData : Option (List UInt8) := none
  serviceUuid : Option (List UInt8) := none
  serviceDataUuid : Option (List UInt8) := none
  serviceData : Option (List UInt8) := none
  appearance : UInt16 := 0
  appearancePresent : UInt8 := 0
  txPowerDbm : Int8 := 0
  txPowerPresent : UInt8 := 0
  scanResponseData : Option (List UInt8) := none
  nonconnectable : UInt8 := 0
  intervalMinMs : UInt16 := 0
  intervalMaxMs : UInt16 := 0
  channelMap : UInt8 := 0
  filterPolicy : UInt8 := 0
  acceptAddress : Option (Bytes 6) := none
  acceptAddressKind : UInt8 := 0
  discoverable : UInt8 := 0
  directedPeerAddress : Option (Bytes 6) := none
  directedPeerAddressKind : UInt8 := 0
  directedHighDuty : UInt8 := 0
  extended : UInt8 := 0
  primaryPhy : UInt8 := 0
  secondaryPhy : UInt8 := 0
  periodic : UInt8 := 0
  periodicIntervalMinMs : UInt16 := 0
  periodicIntervalMaxMs : UInt16 := 0
  periodicData : Option (List UInt8) := none
  periodicIncludeTxPower : UInt8 := 0
deriving DecidableEq

/-- `config.central`. -/
structure RuntimeBleCentral where
  peerAddress : Option (Bytes 6) := none
  connMinIntervalMs : UInt16 := 0
  connMaxIntervalMs : UInt16 := 0
  connLatency : UInt16 := 0
  connTimeoutMs : UInt16 := 0
deriving DecidableEq

/-- `config.l2cap`. -/
structure RuntimeBleL2cap where
  psm : UInt16 := 0
  mtu : UInt16 := 0
  mps : UInt16 := 0
  creditPolicy : UInt8 := 0
deriving DecidableEq

/-- `config.security`. -/
structure RuntimeBleSecurity where
  bondSlotCount : UInt8 := 0
deriving DecidableEq

/-- What the application passes to `runtime_ble_init`. -/
structure RuntimeBleConfig where
  abiVersion : UInt32 := 0
  deviceName : Option (List UInt8) := none
  role : UInt8 := 0
  adv : RuntimeBleAdv := {}
  central : RuntimeBleCentral := {}
  l2cap : RuntimeBleL2cap := {}
  security : RuntimeBleSecurity := {}
  services : Option (List RuntimeBleServiceDef) := none
  callbacks : RuntimeBleCallbacks := {}
deriving DecidableEq

/-! ## The captured configuration -/

/-- `RuntimeCfg`: the flat copy `runtime_ble_init` keeps in `CONFIG`. -/
structure RuntimeCfg where
  deviceName : Option (List UInt8) := none
  advData : Option (List UInt8) := none
  manufacturerId : UInt16 := 0
  manufacturerData : Option (List UInt8) := none
  advServiceUuid : Option (List UInt8) := none
  advServiceDataUuid : Option (List UInt8) := none
  advServiceData : Option (List UInt8) := none
  appearance : UInt16 := 0
  advAppearance : UInt8 := 0
  advTxPowerDbm : Int8 := 0
  advTxPowerPresent : UInt8 := 0
  scanResponseData : Option (List UInt8) := none
  nonconnectable : UInt8 := 0
  advIntervalMinMs : UInt16 := 0
  advIntervalMaxMs : UInt16 := 0
  advChannelMap : UInt8 := 0
  advFilterPolicy : UInt8 := 0
  advAcceptAddress : Option (Bytes 6) := none
  advAcceptAddressKind : UInt8 := 0
  discoverable : UInt8 := 0
  directedPeerAddress : Option (Bytes 6) := none
  directedPeerAddressKind : UInt8 := 0
  directedHighDuty : UInt8 := 0
  advExtended : UInt8 := 0
  advPrimaryPhy : UInt8 := 0
  advSecondaryPhy : UInt8 := 0
  periodicAdv : UInt8 := 0
  periodicAdvIntervalMinMs : UInt16 := 0
  periodicAdvIntervalMaxMs : UInt16 := 0
  periodicAdvData : Option (List UInt8) := none
  periodicAdvIncludeTxPower : UInt8 := 0
  services : Option (List RuntimeBleServiceDef) := none
  role : UInt8 := 0
  peerAddress : Option (Bytes 6) := none
  centralConnMinIntervalMs : UInt16 := 0
  centralConnMaxIntervalMs : UInt16 := 0
  centralConnLatency : UInt16 := 0
  centralConnTimeoutMs : UInt16 := 0
  l2capPsm : UInt16 := 0
  l2capMtu : UInt16 := 0
  l2capMps : UInt16 := 0
  l2capCreditPolicy : UInt8 := 0
  bondSlotCount : UInt8 := 0
  callbacks : RuntimeBleCallbacks := {}
deriving DecidableEq

/-- `runtime_ble_init`: check the configuration and flatten it. The
argument is `none` for a null pointer. -/
def runtimeBleInit (cfg : Option RuntimeBleConfig) : Except Int RuntimeCfg :=
  match cfg with
  | none => .error runtimeBleErrInvalid
  | some c =>
      if c.abiVersion ≠ runtimeBleAbiVersion then .error runtimeBleErrAbi
      else
        let adv := c.adv
        let l2 := c.l2cap
        -- the checks, in the order of the source
        if l2.creditPolicy > 1
            ∨ (l2.mtu ≠ 0 ∧ l2.mtu < 23)
            ∨ (l2.mps ≠ 0 ∧ l2.mps < 23)
            ∨ adv.filterPolicy > 3
            ∨ adv.extended > 1
            ∨ adv.primaryPhy > 3
            ∨ adv.secondaryPhy > 3
            ∨ adv.periodic > 1
            ∨ (adv.periodic ≠ 0 ∧ (adv.extended = 0 ∨ adv.nonconnectable = 0))
            ∨ (adv.filterPolicy ≠ 0 ∧ adv.acceptAddress = none) then
          .error runtimeBleErrInvalid
        else
          .ok
            { deviceName := c.deviceName
              advData := adv.data
              manufacturerId := adv.manufacturerId
              manufacturerData := adv.manufacturerData
              advServiceUuid := adv.serviceUuid
              advServiceDataUuid := adv.serviceDataUuid
              advServiceData := adv.serviceData
              appearance := adv.appearance
              advAppearance := adv.appearancePresent
              advTxPowerDbm := adv.txPowerDbm
              advTxPowerPresent := adv.txPowerPresent
              scanResponseData := adv.scanResponseData
              nonconnectable := adv.nonconnectable
              advIntervalMinMs := adv.intervalMinMs
              advIntervalMaxMs := adv.intervalMaxMs
              advChannelMap := adv.channelMap
              advFilterPolicy := adv.filterPolicy
              advAcceptAddress := adv.acceptAddress
              advAcceptAddressKind := adv.acceptAddressKind
              discoverable := adv.discoverable
              directedPeerAddress := adv.directedPeerAddress
              directedPeerAddressKind := adv.directedPeerAddressKind
              directedHighDuty := adv.directedHighDuty
              advExtended := adv.extended
              advPrimaryPhy := adv.primaryPhy
              advSecondaryPhy := adv.secondaryPhy
              periodicAdv := adv.periodic
              periodicAdvIntervalMinMs := adv.periodicIntervalMinMs
              periodicAdvIntervalMaxMs := adv.periodicIntervalMaxMs
              periodicAdvData := adv.periodicData
              periodicAdvIncludeTxPower := adv.periodicIncludeTxPower
              services := c.services
              role := c.role
              peerAddress := c.central.peerAddress
              centralConnMinIntervalMs := c.central.connMinIntervalMs
              centralConnMaxIntervalMs := c.central.connMaxIntervalMs
              centralConnLatency := c.central.connLatency
              centralConnTimeoutMs := c.central.connTimeoutMs
              l2capPsm := l2.psm
              l2capMtu := l2.mtu
              l2capMps := l2.mps
              l2capCreditPolicy := l2.creditPolicy
              bondSlotCount := c.security.bondSlotCount
              callbacks := c.callbacks }

end RuntimeBle
