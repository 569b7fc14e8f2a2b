import RuntimeBle.Adv.Names
import RuntimeBle.Request.Consumers
import RuntimeBle.Session.BringUp

/-!
# Adv — Parts

What `serve` starts to advertise with: the payloads and the parameters of
`advertising_parts` and `advertising_parts_ext`, and the `Advertisement`
they are put into.

Left out are the calls that are awaited, to the accept list and to the
host's `advertise`. Durations are in the unit of the field's name.
-/

namespace RuntimeBle.Adv

open RuntimeBle.Lib Ltv
open RuntimeBle.Bond (Address)
open RuntimeBle.Request (PhyKind)
open RuntimeBle.Session (cstrOr defaultName)

/-- The `trouble_host::Error` that starting to advertise returns itself. -/
inductive HostError where
  | invalidValue
deriving DecidableEq

/-! ## Parameters -/

/-- `adv_phy_from_c`: anything else is 1M. -/
def advPhyFromC (phy : UInt8) : PhyKind :=
  match phy with
  | 2 => .le2M
  | 3 => .leCoded
  | _ => .le1M

/-- The filter policies of the host crate. -/
inductive AdvFilterPolicy where
  | unfiltered
  | filterScan
  | filterConn
  | filterConnAndScan
deriving DecidableEq

/-- `adv_filter_policy`: anything else filters nothing. -/
def advFilterPolicy (cfg : RuntimeCfg) : AdvFilterPolicy :=
  match cfg.advFilterPolicy with
  | 1 => .filterScan
  | 2 => .filterConn
  | 3 => .filterConnAndScan
  | _ => .unfiltered

/-- The advertising channels. -/
structure AdvChannelMap where
  channel37 : Bool
  channel38 : Bool
  channel39 : Bool
deriving DecidableEq

/-- `adv_channel_map`: no channels stand for the host's own choice. -/
def advChannelMap (cfg : RuntimeCfg) : Option AdvChannelMap :=
  let bits := cfg.advChannelMap &&& 0x07
  if bits = 0 then none
  else
    some
      { channel37 := bits &&& 0x01 != 0
        channel38 := bits &&& 0x02 != 0
        channel39 := bits &&& 0x04 != 0 }

/-- The levels of `TxPower` that are selected, in dBm. -/
def txPowerLevels : List Int8 :=
  [-40, -20, -16, -12, -8, -4, 2, 3, 4, 5, 6, 7, 8, 10, 12, 14, 16, 18, 20]

/-- `adv_tx_power`: a level the host does not know is 0 dBm. -/
def advTxPower (cfg : RuntimeCfg) : Int8 :=
  if cfg.advTxPowerPresent = 0 then 0
  else if cfg.advTxPowerDbm ∈ txPowerLevels then cfg.advTxPowerDbm
  else 0

/-- The parameters of the host crate that `advertising_params` sets. -/
structure AdvertisementParameters where
  intervalMinMs : Nat
  intervalMaxMs : Nat
  primaryPhy : PhyKind
  secondaryPhy : PhyKind
  txPower : Int8
  channelMap : Option AdvChannelMap
  filterPolicy : AdvFilterPolicy
deriving DecidableEq

/-- `advertising_params`: a 0 stands for the default interval, and for the
primary PHY. -/
def advertisingParams (cfg : RuntimeCfg) : AdvertisementParameters where
  intervalMinMs := if cfg.advIntervalMinMs = 0 then 30 else cfg.advIntervalMinMs.toNat
  intervalMaxMs := if cfg.advIntervalMaxMs = 0 then 60 else cfg.advIntervalMaxMs.toNat
  primaryPhy := advPhyFromC cfg.advPrimaryPhy
  secondaryPhy :=
    advPhyFromC (if cfg.advSecondaryPhy = 0 then cfg.advPrimaryPhy else cfg.advSecondaryPhy)
  txPower := advTxPower cfg
  channelMap := advChannelMap cfg
  filterPolicy := advFilterPolicy cfg

/-! ## Payloads -/

def leLimitedDiscoverable : UInt8 := 0x01
def leGeneralDiscoverable : UInt8 := 0x02
def brEdrNotSupported : UInt8 := 0x04

/-- `discoverability_flags`: BR/EDR is never supported. -/
def discoverabilityFlags (cfg : RuntimeCfg) : UInt8 :=
  match cfg.discoverable with
  | 1 => leLimitedDiscoverable ||| brEdrNotSupported
  | 2 => brEdrNotSupported
  | _ => leGeneralDiscoverable ||| brEdrNotSupported

section Parts

variable (genericPowerDevice : UInt16) (cfg : RuntimeCfg)

/-- `core::ptr::copy_nonoverlapping(cfg.adv_data, adv.as_mut_ptr(), len)`. -/
def rawPayload (data : List UInt8) : Option AdvBuf :=
  if h : data.length ≤ 31 then
    some { dst := copyAt (Vector.replicate 31 0) 0 data (by omega), pos := data.length }
  else none

/-- The legacy payload: raw data goes before what is generated. -/
def advertisingPayload (flags : UInt8) (manufacturerData name : List UInt8) : Option AdvBuf :=
  match cfg.advData.getD [] with
  | [] =>
      buildAdvPayload genericPowerDevice cfg flags manufacturerData name (Vector.replicate 31 0)
  | data => rawPayload data

/-- The extended payload, likewise. -/
def advertisingPayloadExt (flags : UInt8) (manufacturerData name : List UInt8) :
    Option ExtAdvData :=
  match cfg.advData.getD [] with
  | [] => buildAdvPayloadExt genericPowerDevice cfg flags manufacturerData name []
  | data => extend [] data

/-- `advertising_parts`: the payload, the scan response and the parameters. -/
def advertisingParts :
    Except HostError (AdvBuf × List UInt8 × AdvertisementParameters) :=
  let name := cstrOr cfg.deviceName defaultName
  let man := cfg.manufacturerData.getD []
  match advertisingPayload genericPowerDevice cfg (discoverabilityFlags cfg) man name with
  | none => .error .invalidValue
  | some adv => .ok (adv, (cfg.scanResponseData.getD []).take 31, advertisingParams cfg)

/-- `advertising_parts_ext`: advertising data, scan response and parameters. -/
def advertisingPartsExt :
    Except HostError (ExtAdvData × ExtAdvData × AdvertisementParameters) :=
  let name := cstrOr cfg.deviceName defaultName
  let man := cfg.manufacturerData.getD []
  match advertisingPayloadExt genericPowerDevice cfg (discoverabilityFlags cfg) man name with
  | none => .error .invalidValue
  | some adv =>
      match extend [] (cfg.scanResponseData.getD []) with
      | none => .error .invalidValue
      | some scanData => .ok (adv, scanData, advertisingParams cfg)

/-! ## Advertisements -/

/-- The host's `Advertisement`, as far as it is used; what is not anonymous
is not marked. -/
inductive Advertisement where
  | connectableScannableUndirected (advData scanData : List UInt8)
  | connectableNonscannableDirected (peer : Address)
  | connectableNonscannableDirectedHighDuty (peer : Address)
  | nonconnectableScannableUndirected (advData scanData : List UInt8)
  | nonconnectableNonscannableUndirected (advData : List UInt8)
  | extConnectableNonscannableUndirected (advData : List UInt8)
  | extConnectableNonscannableDirected (peer : Address) (advData : List UInt8)
  | extNonconnectableScannableUndirected (scanData : List UInt8)
  | extNonconnectableNonscannableUndirected (advData : List UInt8)
deriving DecidableEq

/-- The advertising data that is handed over. -/
def Advertisement.advData : Advertisement → List UInt8
  | connectableScannableUndirected advData _ => advData
  | nonconnectableScannableUndirected advData _ => advData
  | nonconnectableNonscannableUndirected advData => advData
  | extConnectableNonscannableUndirected advData => advData
  | extConnectableNonscannableDirected _ advData => advData
  | extNonconnectableNonscannableUndirected advData => advData
  | _ => []

/-- The scan response that is handed over. -/
def Advertisement.scanData : Advertisement → List UInt8
  | connectableScannableUndirected _ scanData => scanData
  | nonconnectableScannableUndirected _ scanData => scanData
  | extNonconnectableScannableUndirected scanData => scanData
  | _ => []

/-- `c_addr_kind`: the raw kind, public for 1 and random for the rest. -/
def cAddrKind (kind : UInt8) : UInt8 := if kind = 1 then 0 else 1

/-- The peer that advertising is directed at. -/
def directedPeer : Option Address :=
  cfg.directedPeerAddress.map fun addr =>
    { kind := cAddrKind cfg.directedPeerAddressKind, addr }

/-- What is started, or why nothing is. -/
abbrev Started := Except HostError (AdvertisementParameters × Advertisement)

/-- `advertise_connectable`, up to the host's `advertise`. -/
def advertiseConnectable : Started :=
  match directedPeer cfg with
  | some peer =>
      if cfg.advExtended ≠ 0 ∧ cfg.directedHighDuty = 0 then do
        let (adv, _, params) ← advertisingPartsExt genericPowerDevice cfg
        return (params, .extConnectableNonscannableDirected peer adv)
      else if cfg.directedHighDuty ≠ 0 then
        .ok (advertisingParams cfg, .connectableNonscannableDirectedHighDuty peer)
      else .ok (advertisingParams cfg, .connectableNonscannableDirected peer)
  | none =>
      if cfg.advExtended ≠ 0 then do
        let (adv, _, params) ← advertisingPartsExt genericPowerDevice cfg
        return (params, .extConnectableNonscannableUndirected adv)
      else do
        let (adv, scanData, params) ← advertisingParts genericPowerDevice cfg
        return (params, .connectableScannableUndirected adv.payload scanData)

/-- `advertise_nonconnectable`, likewise. -/
def advertiseNonconnectable : Started :=
  if cfg.advExtended ≠ 0 then do
    let (adv, scanData, params) ← advertisingPartsExt genericPowerDevice cfg
    match extend adv scanData with
    | none => .error .invalidValue
    | some scanPayload =>
        if cfg.periodicAdv ≠ 0 then
          return (params, .extNonconnectableNonscannableUndirected scanPayload)
        else return (params, .extNonconnectableScannableUndirected scanPayload)
  else do
    let (adv, scanData, params) ← advertisingParts genericPowerDevice cfg
    if scanData = [] then return (params, .nonconnectableNonscannableUndirected adv.payload)
    else return (params, .nonconnectableScannableUndirected adv.payload scanData)

/-- What `serve` starts. -/
def serveAdvertisement : Started :=
  if cfg.nonconnectable ≠ 0 then advertiseNonconnectable genericPowerDevice cfg
  else advertiseConnectable genericPowerDevice cfg

end Parts

/-! ## What is asked for -/

/-- The bytes are a sequence of AD structures. -/
def WellFormedAds (bytes : List UInt8) : Prop := (decode bytes).isSome

instance (bytes : List UInt8) : Decidable (WellFormedAds bytes) :=
  inferInstanceAs (Decidable (_ = true))

section Asked

variable (genericPowerDevice : UInt16) (cfg : RuntimeCfg)

/-- The name that goes into generated advertising data. -/
def advName : List UInt8 := cstrOr cfg.deviceName defaultName

/-- What the generated fields take before the name. -/
def advUsed : Nat :=
  usedBytes genericPowerDevice cfg (discoverabilityFlags cfg) (cfg.manufacturerData.getD [])

/-- The advertising data: the raw data, or the generated structures with as
much of the name as fits. -/
def askedAdv : List UInt8 :=
  match cfg.advData.getD [] with
  | [] =>
      encode (payloadAds genericPowerDevice cfg (discoverabilityFlags cfg)
        (cfg.manufacturerData.getD []) (advName cfg))
  | data => data

/-- The advertising data with the name whole in any case. -/
def wholeAdv : List UInt8 :=
  match cfg.advData.getD [] with
  | [] =>
      encode (askedAds genericPowerDevice cfg (discoverabilityFlags cfg)
        (cfg.manufacturerData.getD []) ++ [{ ty := 0x09, data := advName cfg }])
  | data => data

/-- The scan response that the configuration asks for. -/
def askedScan : List UInt8 := cfg.scanResponseData.getD []

/-- The advertising data fits, if need be with a single byte of the name. -/
def AdvFits : Prop :=
  match cfg.advData.getD [] with
  | [] =>
      advUsed genericPowerDevice cfg ≤ 28
        ∨ (advUsed genericPowerDevice cfg ≤ 29 ∧ advName cfg = [])
  | data => data.length ≤ 31

end Asked

/-- What fits is handed over byte for byte, as AD structures of at most 31
bytes, and otherwise starting fails. -/
structure HandsOver (started : Started) (fits : Prop) (adv scan : List UInt8) : Prop where
  whole : fits → ∃ params ad, started = .ok (params, ad) ∧ ad.advData = adv ∧ ad.scanData = scan
    ∧ WellFormedAds adv ∧ WellFormedAds scan ∧ adv.length ≤ 31 ∧ scan.length ≤ 31
  refused : ¬ fits → started = .error .invalidValue

/-! ## The legacy path -/

section Legacy

variable {genericPowerDevice : UInt16} {cfg : RuntimeCfg}

theorem rawPayload_eq (data : List UInt8) :
    if data.length ≤ 31 then ∃ t, rawPayload data = some t ∧ t.payload = data
    else rawPayload data = none := by
  split
  · rename_i hfit
    refine ⟨_, dif_pos hfit, ?_⟩
    have hzeros : (Vector.replicate 31 (0 : UInt8)).toList
        = [] ++ List.replicate (31 - ([] : List UInt8).length) 0 := Vector.toList_replicate
    have hroom : 0 + data.length ≤ 31 := by omega
    have hcopied := copyAt_toList hzeros (show 0 = [].length from rfl) hroom
    rw [AdvBuf.payload, hcopied, List.nil_append, List.take_left]
  · rename_i hlong
    exact dif_neg hlong

theorem advertisingPayload_eq (genericPowerDevice : UInt16) (cfg : RuntimeCfg) :
    (AdvFits genericPowerDevice cfg → ∃ t,
      advertisingPayload genericPowerDevice cfg (discoverabilityFlags cfg)
        (cfg.manufacturerData.getD []) (advName cfg) = some t
      ∧ t.payload = askedAdv genericPowerDevice cfg)
    ∧ (¬ AdvFits genericPowerDevice cfg →
      advertisingPayload genericPowerDevice cfg (discoverabilityFlags cfg)
        (cfg.manufacturerData.getD []) (advName cfg) = none) := by
  unfold AdvFits advertisingPayload askedAdv
  cases cfg.advData.getD [] with
  | nil =>
      constructor
      · intro hfits
        obtain ⟨t, ht⟩ := Option.isSome_iff_exists.mp (built_iff.mpr hfits)
        exact ⟨t, ht, (payload_of_built ht).1⟩
      · intro hfull
        exact Option.not_isSome_iff_eq_none.mp fun hsome => hfull (built_iff.mp hsome)
  | cons c cs =>
      have hraw := rawPayload_eq (c :: cs)
      constructor
      · intro hfits
        rwa [if_pos hfits] at hraw
      · intro hfull
        rwa [if_neg hfull] at hraw

/-- `advertising_parts` cuts the scan response to 31 bytes. -/
theorem advertisingParts_eq (genericPowerDevice : UInt16) (cfg : RuntimeCfg) :
    (AdvFits genericPowerDevice cfg → ∃ t,
      advertisingParts genericPowerDevice cfg
        = .ok (t, (askedScan cfg).take 31, advertisingParams cfg)
      ∧ t.payload = askedAdv genericPowerDevice cfg)
    ∧ (¬ AdvFits genericPowerDevice cfg →
      advertisingParts genericPowerDevice cfg = .error .invalidValue) := by
  obtain ⟨hsome, hnone⟩ := advertisingPayload_eq genericPowerDevice cfg
  constructor
  · intro hfits
    obtain ⟨t, ht, hpayload⟩ := hsome hfits
    refine ⟨t, ?_, hpayload⟩
    rw [advertisingParts]
    simp only [show cstrOr cfg.deviceName defaultName = advName cfg from rfl, ht]
    rfl
  · intro hfull
    rw [advertisingParts]
    simp only [show cstrOr cfg.deviceName defaultName = advName cfg from rfl, hnone hfull]

/-- The configuration takes the legacy path, and its payloads are sent. -/
structure Legacy (cfg : RuntimeCfg) : Prop where
  extended : cfg.advExtended = 0
  undirected : cfg.nonconnectable ≠ 0 ∨ cfg.directedPeerAddress = none

theorem serveAdvertisement_eq (genericPowerDevice : UInt16) (h : Legacy cfg) :
    (AdvFits genericPowerDevice cfg → ∃ ad,
      serveAdvertisement genericPowerDevice cfg = .ok (advertisingParams cfg, ad)
      ∧ ad.advData = askedAdv genericPowerDevice cfg ∧ ad.scanData = (askedScan cfg).take 31)
    ∧ (¬ AdvFits genericPowerDevice cfg →
      serveAdvertisement genericPowerDevice cfg = .error .invalidValue) := by
  obtain ⟨hok, herror⟩ := advertisingParts_eq genericPowerDevice cfg
  have hext : ¬ cfg.advExtended ≠ 0 := not_not_intro h.extended
  unfold serveAdvertisement
  by_cases hconn : cfg.nonconnectable ≠ 0
  · rw [if_pos hconn, advertiseNonconnectable, if_neg hext]
    constructor
    · intro hfits
      obtain ⟨t, ht, hpayload⟩ := hok hfits
      rw [ht]
      by_cases hscan : (askedScan cfg).take 31 = []
      · exact ⟨_, if_pos hscan, hpayload, hscan.symm⟩
      · exact ⟨_, if_neg hscan, hpayload, rfl⟩
    · intro hfull
      rw [herror hfull]
      rfl
  · have hpeer : directedPeer cfg = none := by
      rw [directedPeer, h.undirected.resolve_left hconn]
      rfl
    rw [if_neg hconn, advertiseConnectable, hpeer]
    simp only [if_neg hext]
    constructor
    · intro hfits
      obtain ⟨t, ht, hpayload⟩ := hok hfits
      rw [ht]
      exact ⟨_, rfl, hpayload, rfl⟩
    · intro hfull
      rw [herror hfull]
      rfl

/-! ## Where it is intact -/

/-- Generated structures are well formed, and raw data is as it comes. -/
theorem wellFormed_askedAdv (hdata : WellFormedAds (cfg.advData.getD []))
    (hfits : AdvFits genericPowerDevice cfg) :
    WellFormedAds (askedAdv genericPowerDevice cfg)
    ∧ (askedAdv genericPowerDevice cfg).length ≤ 31 := by
  unfold AdvFits at hfits
  unfold askedAdv
  revert hdata hfits
  cases cfg.advData.getD [] with
  | nil =>
      intro _ hfits
      obtain ⟨t, ht⟩ := Option.isSome_iff_exists.mp (built_iff.mpr hfits)
      obtain ⟨hpayload, hdecode⟩ := payload_of_built ht
      dsimp only
      rw [← hpayload]
      refine ⟨Option.isSome_iff_exists.mpr ⟨_, hdecode⟩, ?_⟩
      rw [AdvBuf.payload, List.length_take]
      exact Nat.le_trans (Nat.min_le_right _ _) (by simp)
  | cons c cs =>
      intro hdata hfits
      exact ⟨hdata, hfits⟩

/-- The name fits whole. -/
theorem askedAdv_of_whole (hwhole : (wholeAdv genericPowerDevice cfg).length ≤ 31) :
    AdvFits genericPowerDevice cfg
    ∧ askedAdv genericPowerDevice cfg = wholeAdv genericPowerDevice cfg := by
  unfold wholeAdv at hwhole
  unfold AdvFits askedAdv wholeAdv
  revert hwhole
  cases cfg.advData.getD [] with
  | nil =>
      intro hwhole
      have hsize : advUsed genericPowerDevice cfg + 2 + (advName cfg).length ≤ 31 := by
        simp only [length_encode, size_append, size, Record.size] at hwhole
        unfold advUsed usedBytes
        omega
      constructor
      · cases hname : advName cfg with
        | nil =>
            rw [hname] at hsize
            simp only [List.length_nil] at hsize
            exact .inr ⟨by omega, rfl⟩
        | cons c cs =>
            rw [hname, List.length_cons] at hsize
            exact .inl (by omega)
      · dsimp only
        rw [payloadAds, nameAd]
        exact congrArg (fun r => encode (_ ++ [r])) (if_pos hsize)
  | cons c cs => exact fun hraw => ⟨hraw, rfl⟩

/-- **What is handed over is intact** when the scan response fits, or the
advertising data does not. With the name whole it is so when the name fits
besides. -/
theorem legacy_advertising_intact_iff (genericPowerDevice : UInt16) {cfg : RuntimeCfg}
    (hlegacy : Legacy cfg) (hdata : WellFormedAds (cfg.advData.getD []))
    (hscan : WellFormedAds (askedScan cfg)) :
    (HandsOver (serveAdvertisement genericPowerDevice cfg)
        (AdvFits genericPowerDevice cfg ∧ (askedScan cfg).length ≤ 31)
        (askedAdv genericPowerDevice cfg) (askedScan cfg)
      ↔ (askedScan cfg).length ≤ 31 ∨ ¬ AdvFits genericPowerDevice cfg)
    ∧ (HandsOver (serveAdvertisement genericPowerDevice cfg)
        ((wholeAdv genericPowerDevice cfg).length ≤ 31 ∧ (askedScan cfg).length ≤ 31)
        (wholeAdv genericPowerDevice cfg) (askedScan cfg)
      ↔ ((wholeAdv genericPowerDevice cfg).length ≤ 31 ∧ (askedScan cfg).length ≤ 31)
        ∨ ¬ AdvFits genericPowerDevice cfg) := by
  obtain ⟨hok, herror⟩ := serveAdvertisement_eq genericPowerDevice hlegacy
  -- it starts when the advertising data fits, so a refusal means that it does not
  have hrefused : serveAdvertisement genericPowerDevice cfg = .error .invalidValue →
      ¬ AdvFits genericPowerDevice cfg := by
    intro hstart hfits
    obtain ⟨ad, had, -⟩ := hok hfits
    cases had.symm.trans hstart
  have hwhole : AdvFits genericPowerDevice cfg → (askedScan cfg).length ≤ 31 →
      ∃ params ad, serveAdvertisement genericPowerDevice cfg = .ok (params, ad)
        ∧ ad.advData = askedAdv genericPowerDevice cfg ∧ ad.scanData = askedScan cfg
        ∧ WellFormedAds (askedAdv genericPowerDevice cfg) ∧ WellFormedAds (askedScan cfg)
        ∧ (askedAdv genericPowerDevice cfg).length ≤ 31 ∧ (askedScan cfg).length ≤ 31 := by
    intro hfits hlen
    obtain ⟨ad, had, hadv, hsd⟩ := hok hfits
    obtain ⟨hwell, hle⟩ := wellFormed_askedAdv hdata hfits
    exact ⟨_, ad, had, hadv, hsd.trans (List.take_of_length_le hlen), hwell, hscan, hle, hlen⟩
  constructor
  · constructor
    · intro hands
      by_cases hlen : (askedScan cfg).length ≤ 31
      · exact .inl hlen
      · exact .inr (hrefused (hands.refused fun hfits => hlen hfits.2))
    · intro hcond
      constructor
      · exact fun hfits => hwhole hfits.1 hfits.2
      · intro hnot
        refine herror fun hfits => ?_
        rcases hcond with hlen | hfull
        · exact hnot ⟨hfits, hlen⟩
        · exact hfull hfits
  · constructor
    · intro hands
      by_cases hfit : (wholeAdv genericPowerDevice cfg).length ≤ 31 ∧ (askedScan cfg).length ≤ 31
      · exact .inl hfit
      · exact .inr (hrefused (hands.refused hfit))
    · intro hcond
      constructor
      · rintro ⟨hname, hlen⟩
        obtain ⟨hfits, hsame⟩ := askedAdv_of_whole hname
        rw [← hsame]
        exact hwhole hfits hlen
      · intro hnot
        exact herror (hcond.resolve_left hnot)

/-- A scan response of one AD structure with 30 bytes of data. -/
def longScanResponse : List UInt8 := 31 :: 0xff :: List.replicate 30 0xaa

def longScanConfig : RuntimeBleConfig :=
  { abiVersion := 1, adv := { scanResponseData := some longScanResponse } }

/-- The 32 bytes are cut to 31, which are no AD structures. -/
theorem legacy_scan_response_cut :
    ∃ cfg, runtimeBleInit (some longScanConfig) = .ok cfg
      ∧ WellFormedAds (cfg.advData.getD []) ∧ WellFormedAds (askedScan cfg)
      ∧ (∃ params ad, serveAdvertisement 0x0500 cfg = .ok (params, ad)
          ∧ ad.scanData = longScanResponse.take 31 ∧ ¬ WellFormedAds ad.scanData)
      ∧ ¬ HandsOver (serveAdvertisement 0x0500 cfg)
          (AdvFits 0x0500 cfg ∧ (askedScan cfg).length ≤ 31) (askedAdv 0x0500 cfg)
          (askedScan cfg) := by
  refine ⟨_, rfl, by decide, by decide, ⟨_, _, rfl, by decide, by decide⟩, fun hands => ?_⟩
  have hrefused := hands.refused fun hfits => absurd hfits.2 (by decide)
  revert hrefused
  decide

def rawConfig : RuntimeBleConfig :=
  { abiVersion := 1
    adv := { data := some [2, 1, 6], scanResponseData := some [3, 9, 0x61, 0x62] } }

/-- Raw advertising data with a scan response: the two go out as they are. -/
theorem legacy_advertising_intact_raw :
    ∃ cfg, runtimeBleInit (some rawConfig) = .ok cfg
      ∧ (∃ params ad, serveAdvertisement 0x0500 cfg = .ok (params, ad)
          ∧ ad.advData = [2, 1, 6] ∧ ad.scanData = [3, 9, 0x61, 0x62])
      ∧ HandsOver (serveAdvertisement 0x0500 cfg)
          ((wholeAdv 0x0500 cfg).length ≤ 31 ∧ (askedScan cfg).length ≤ 31)
          (wholeAdv 0x0500 cfg) (askedScan cfg) := by
  refine ⟨_, rfl, ⟨_, _, rfl, by decide, by decide⟩, ?_⟩
  apply (legacy_advertising_intact_iff 0x0500 ⟨rfl, .inr rfl⟩ (by decide) (by decide)).2.mpr
  left
  decide

end Legacy

end RuntimeBle.Adv
