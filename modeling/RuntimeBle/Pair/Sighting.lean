import RuntimeBle.Adv.Parts
import RuntimeBle.Client.Dialing
import RuntimeBle.Link.Control

/-!
# Pair — Sighting

A scanner of this runtime hears an advertiser of this runtime: what
`on_adv_reports` and `on_ext_adv_reports` tell the scanner's application, and
whom it connects to when it goes by what it has been told.

What a controller reports of an advertisement is not in the source; `pdus`,
`HeardLegacy` and `HeardExt` say it as the events of the radio link define
it. A report that cannot be parsed is `none`.
-/

namespace RuntimeBle.Pair

open RuntimeBle.Lib RuntimeBle.Request
open RuntimeBle.Adv RuntimeBle.Client
open RuntimeBle.Bond (Address)
open RuntimeBle.Link (phyToC)

/-! ## Reports -/

/-- The event types of a legacy report. -/
inductive LeAdvEventKind where
  | advInd
  | advDirectInd
  | advScanInd
  | advNonconnInd
  | scanRsp
deriving DecidableEq

/-- The data status of an extended report. -/
inductive LeExtAdvDataStatus where
  | complete
  | incompleteMoreExpected
  | incompleteTruncated
  | reserved
deriving DecidableEq

/-- A legacy report, as the controller gives it. -/
structure LeAdvReport where
  eventKind : LeAdvEventKind
  addr : Address
  rssi : Int8
  data : List UInt8

/-- The bits of an extended event kind, less its data status. -/
structure EventBits where
  connectable : Bool := false
  scannable : Bool := false
  directed : Bool := false
  scanResponse : Bool := false
  legacy : Bool := false
deriving DecidableEq

/-- An extended report, as the controller gives it. -/
structure LeExtAdvReport where
  eventKind : EventBits
  dataStatus : LeExtAdvDataStatus
  addr : Address
  primaryAdvPhy : PhyKind
  secondaryAdvPhy : Option PhyKind
  advSid : UInt8
  txPower : Int8
  rssi : Int8
  data : List UInt8

def scanFConnectable : UInt16 := 1
def scanFScannable : UInt16 := 2
def scanFDirected : UInt16 := 4
def scanFScanResponse : UInt16 := 8
def scanFLegacy : UInt16 := 16
def scanFDataIncomplete : UInt16 := 32
def scanFDataTruncated : UInt16 := 64

/-- `legacy_adv_flags`: a legacy event as the flags of the header. -/
def legacyAdvFlags : LeAdvEventKind → UInt16
  | .advInd => scanFConnectable ||| scanFScannable ||| scanFLegacy
  | .advDirectInd => scanFConnectable ||| scanFDirected ||| scanFLegacy
  | .advScanInd => scanFScannable ||| scanFLegacy
  | .advNonconnInd => scanFLegacy
  | .scanRsp => scanFScanResponse ||| scanFLegacy

/-- `ext_data_status_flags`: what is reserved counts as incomplete. -/
def extDataStatusFlags : LeExtAdvDataStatus → UInt16
  | .complete => 0
  | .incompleteMoreExpected => scanFDataIncomplete
  | .incompleteTruncated => scanFDataTruncated
  | .reserved => scanFDataIncomplete

/-- `addr_kind_to_c` of the raw kind. -/
def addrKindToC (kind : UInt8) : UInt8 := if kind = 0 then 1 else 0

/-- The callbacks for what is scanned, by presence. -/
structure ScanCallbacks where
  onScanResultMeta : Bool
  onScanResultExt : Bool
  onScanResult : Bool

/-- A callback for a report, with its arguments. -/
inductive ScanCallback where
  | onScanResultMeta (addr : Bytes 6) (addrKind : UInt8) (rssi : Int8) (data : List UInt8)
      (flags : UInt16) (primaryPhy secondaryPhy : UInt8) (txPower : Int8) (sid : UInt8)
  | onScanResultExt (addr : Bytes 6) (addrKind : UInt8) (rssi : Int8) (data : List UInt8)
  | onScanResult (addr : Bytes 6) (rssi : Int8) (data : List UInt8)
deriving DecidableEq

section Handlers

variable (callbacks : ScanCallbacks)

/-- The three callbacks of a report, the first with what only it is told. -/
def tellReport (addr : Address) (rssi : Int8) (data : List UInt8) (flags : UInt16)
    (primaryPhy secondaryPhy : UInt8) (txPower : Int8) (sid : UInt8) : List ScanCallback :=
  (if callbacks.onScanResultMeta then
    [.onScanResultMeta addr.addr (addrKindToC addr.kind) rssi data flags primaryPhy secondaryPhy
      txPower sid]
   else [])
  ++ (if callbacks.onScanResultExt then
    [.onScanResultExt addr.addr (addrKindToC addr.kind) rssi data]
   else [])
  ++ if callbacks.onScanResult then [.onScanResult addr.addr rssi data] else []

/-- The body of `on_adv_reports` for one report, of which the PHY is 1M. -/
def onAdvReport (report : LeAdvReport) : List ScanCallback :=
  tellReport callbacks report.addr report.rssi report.data (legacyAdvFlags report.eventKind) 1 0
    127 0xff

/-- `on_adv_reports`: a report that does not parse is passed over. -/
def onAdvReports (reports : List (Option LeAdvReport)) : List ScanCallback :=
  reports.flatMap fun report => (report.map (onAdvReport callbacks)).getD []

/-- The flags of `on_ext_adv_reports`. -/
def extAdvFlags (bits : EventBits) (status : LeExtAdvDataStatus) : UInt16 :=
  let flags := extDataStatusFlags status
  let flags := if bits.connectable then flags ||| scanFConnectable else flags
  let flags := if bits.scannable then flags ||| scanFScannable else flags
  let flags := if bits.directed then flags ||| scanFDirected else flags
  let flags := if bits.scanResponse then flags ||| scanFScanResponse else flags
  if bits.legacy then flags ||| scanFLegacy else flags

/-- The body of `on_ext_adv_reports` for one report. -/
def onExtAdvReport (report : LeExtAdvReport) : List ScanCallback :=
  tellReport callbacks report.addr report.rssi report.data
    (extAdvFlags report.eventKind report.dataStatus) (phyToC report.primaryAdvPhy)
    (report.secondaryAdvPhy.elim 0 phyToC) report.txPower report.advSid

/-- `on_ext_adv_reports`, likewise. -/
def onExtAdvReports (reports : List (Option LeExtAdvReport)) : List ScanCallback :=
  reports.flatMap fun report => (report.map (onExtAdvReport callbacks)).getD []

end Handlers

/-! ## The advertiser -/

/-- `device_address`: the configured address, or that of the chip. -/
def deviceAddress (configured : Option (Bytes 6)) (factory : Bytes 6) : Address where
  kind := 1
  addr := configured.getD factory

/-- One event of an advertisement, as the radio link knows it. -/
structure Pdu where
  bits : EventBits
  data : List UInt8
deriving DecidableEq

/-- The events of an advertisement: it, and the response to a scan. -/
def pdus : Advertisement → List Pdu
  | .connectableScannableUndirected advData scanData =>
      [⟨{ connectable := true, scannable := true, legacy := true }, advData⟩,
        ⟨{ connectable := true, scannable := true, scanResponse := true, legacy := true },
          scanData⟩]
  | .connectableNonscannableDirected _ | .connectableNonscannableDirectedHighDuty _ =>
      [⟨{ connectable := true, directed := true, legacy := true }, []⟩]
  | .nonconnectableScannableUndirected advData scanData =>
      [⟨{ scannable := true, legacy := true }, advData⟩,
        ⟨{ scannable := true, scanResponse := true, legacy := true }, scanData⟩]
  | .nonconnectableNonscannableUndirected advData => [⟨{ legacy := true }, advData⟩]
  | .extConnectableNonscannableUndirected advData => [⟨{ connectable := true }, advData⟩]
  | .extConnectableNonscannableDirected _ advData =>
      [⟨{ connectable := true, directed := true }, advData⟩]
  | .extNonconnectableScannableUndirected scanData =>
      [⟨{ scannable := true }, []⟩, ⟨{ scannable := true, scanResponse := true }, scanData⟩]
  | .extNonconnectableNonscannableUndirected advData => [⟨{}, advData⟩]

/-- The kind of a legacy report. -/
def EventBits.eventKind (bits : EventBits) : LeAdvEventKind :=
  if bits.scanResponse then .scanRsp
  else if bits.directed then .advDirectInd
  else if bits.connectable then .advInd
  else if bits.scannable then .advScanInd
  else .advNonconnInd

/-- What a scanner hears that only knows legacy events. -/
structure HeardLegacy (own : Address) (p : Pdu) (r : LeAdvReport) : Prop where
  legacy : p.bits.legacy = true
  addr : r.addr = own
  eventKind : r.eventKind = p.bits.eventKind
  data : r.data = p.data

/-- What another scanner hears. The data may be reported in several pieces, all
but the last of which announce more; an event whose data the controller has
cut off, and reports as truncated, is left out. -/
structure HeardExt (own : Address) (p : Pdu) (first : List LeExtAdvReport) (last : LeExtAdvReport) :
    Prop where
  addr : ∀ r ∈ first ++ [last], r.addr = own
  eventKind : ∀ r ∈ first ++ [last], r.eventKind = p.bits
  more : ∀ r ∈ first, r.dataStatus = .incompleteMoreExpected
  complete : last.dataStatus = .complete
  data : (first ++ [last]).flatMap LeExtAdvReport.data = p.data

/-! ## What is told -/

/-- The three callbacks, of which one is made for a report. -/
inductive ScanSlot where
  | onScanResultMeta
  | onScanResultExt
  | onScanResult
deriving DecidableEq

namespace ScanCallback

/-- Which one it is. -/
def slot : ScanCallback → ScanSlot
  | onScanResultMeta .. => .onScanResultMeta
  | onScanResultExt .. => .onScanResultExt
  | onScanResult .. => .onScanResult

/-- The address it tells. -/
def addr : ScanCallback → Bytes 6
  | onScanResultMeta addr .. | onScanResultExt addr .. | onScanResult addr .. => addr

/-- `runtime_ble_connect` takes an address without a kind as random. -/
def addrKind : ScanCallback → UInt8
  | onScanResultMeta _ kind .. | onScanResultExt _ kind .. => kind
  | onScanResult .. => 0

/-- The payload it tells. -/
def data : ScanCallback → List UInt8
  | onScanResultMeta _ _ _ data .. | onScanResultExt _ _ _ data | onScanResult _ _ data => data

/-- The flags it tells, if it does. -/
def flags? : ScanCallback → Option UInt16
  | onScanResultMeta _ _ _ _ flags .. => some flags
  | _ => none

end ScanCallback

/-- The configuration sets the callback. -/
def ScanCallbacks.has (callbacks : ScanCallbacks) : ScanSlot → Bool
  | .onScanResultMeta => callbacks.onScanResultMeta
  | .onScanResultExt => callbacks.onScanResultExt
  | .onScanResult => callbacks.onScanResult

section Told

variable {callbacks : ScanCallbacks} {own : Address} {p : Pdu}

/-- The data of a report, as each callback that is set is told it. -/
theorem tellReport_data (addr : Address) (rssi : Int8) (data : List UInt8) (flags : UInt16)
    (primaryPhy secondaryPhy : UInt8) (txPower : Int8) (sid : UInt8) (slot : ScanSlot) :
    ((tellReport callbacks addr rssi data flags primaryPhy secondaryPhy txPower sid).filter
        (·.slot = slot)).flatMap ScanCallback.data
      = if callbacks.has slot then data else [] := by
  obtain ⟨hasMeta, hasExt, hasPlain⟩ := callbacks
  cases slot <;> cases hasMeta <;> cases hasExt <;> cases hasPlain <;>
    simp [tellReport, ScanCallbacks.has, ScanCallback.slot, ScanCallback.data]

theorem tellReport_flags (addr : Address) (rssi : Int8) (data : List UInt8) (flags : UInt16)
    (primaryPhy secondaryPhy : UInt8) (txPower : Int8) (sid : UInt8) :
    (tellReport callbacks addr rssi data flags primaryPhy secondaryPhy txPower sid).filterMap
        ScanCallback.flags?
      = if callbacks.onScanResultMeta then [flags] else [] := by
  obtain ⟨hasMeta, hasExt, hasPlain⟩ := callbacks
  cases hasMeta <;> cases hasExt <;> cases hasPlain <;>
    simp [tellReport, ScanCallback.flags?]

theorem tellReport_names {addr : Address} {rssi : Int8} {data : List UInt8} {flags : UInt16}
    {primaryPhy secondaryPhy : UInt8} {txPower : Int8} {sid : UInt8} {call : ScanCallback}
    (h : call ∈ tellReport callbacks addr rssi data flags primaryPhy secondaryPhy txPower sid) :
    call.addr = addr.addr
      ∧ (call.addrKind = addrKindToC addr.kind
        ∨ callbacks.onScanResult = true ∧ call.addrKind = 0) := by
  simp only [tellReport, List.mem_append] at h
  rcases h with (h | h) | h
  · split_ifs at h
    · cases List.mem_singleton.mp h
      exact ⟨rfl, .inl rfl⟩
    · cases h
  · split_ifs at h
    · cases List.mem_singleton.mp h
      exact ⟨rfl, .inl rfl⟩
    · cases h
  · split_ifs at h with hplain
    · cases List.mem_singleton.mp h
      exact ⟨rfl, .inr ⟨hplain, rfl⟩⟩
    · cases h

/-- The callbacks for one event of an advertisement, over whichever handler
it comes. -/
def Told (callbacks : ScanCallbacks) (own : Address) (p : Pdu) (calls : List ScanCallback) : Prop :=
  (∃ reports r, reports.reduceOption = [r] ∧ HeardLegacy own p r
    ∧ calls = onAdvReports callbacks reports)
  ∨ ∃ reports first last, reports.reduceOption = first ++ [last] ∧ HeardExt own p first last
    ∧ calls = onExtAdvReports callbacks reports

/-- The flags say what kind of event it is; of the response to a scan they do
not always say what it responds for. -/
def Flagged (bits : EventBits) (f : UInt16) : Prop :=
  f &&& scanFDataTruncated = 0
  ∧ (f &&& scanFScanResponse ≠ 0 ↔ bits.scanResponse = true)
  ∧ (f &&& scanFLegacy ≠ 0 ↔ bits.legacy = true)
  ∧ (f &&& scanFDirected ≠ 0 ↔ bits.directed = true)
  ∧ (bits.scanResponse = false → (f &&& scanFConnectable ≠ 0 ↔ bits.connectable = true)
    ∧ (f &&& scanFScannable ≠ 0 ↔ bits.scannable = true))

instance (bits : EventBits) (f : UInt16) : Decidable (Flagged bits f) :=
  inferInstanceAs (Decidable (_ ∧ _))

/-- What a scanner's application can make out of the callbacks. -/
structure Tells (callbacks : ScanCallbacks) (own : Address) (p : Pdu) (calls : List ScanCallback) :
    Prop where
  addr : ∀ call ∈ calls, call.addr = own.addr ∧ cAddrKind call.addrKind = own.kind
  data : ∀ slot, (calls.filter (·.slot = slot)).flatMap ScanCallback.data
    = if callbacks.has slot then p.data else []
  /-- All pieces but the last announce more. -/
  more : callbacks.onScanResultMeta = true → ∃ n, (calls.filterMap ScanCallback.flags?).map
    (· &&& scanFDataIncomplete != 0) = List.replicate n true ++ [false]
  flags : ∀ f ∈ calls.filterMap ScanCallback.flags?, Flagged p.bits f

theorem onAdvReports_eq (reports : List (Option LeAdvReport)) :
    onAdvReports callbacks reports = reports.reduceOption.flatMap (onAdvReport callbacks) := by
  induction reports with
  | nil => rfl
  | cons report reports ih =>
      cases report with
      | none => exact ih
      | some r => exact congrArg (onAdvReport callbacks r ++ ·) ih

theorem onExtAdvReports_eq (reports : List (Option LeExtAdvReport)) :
    onExtAdvReports callbacks reports
      = reports.reduceOption.flatMap (onExtAdvReport callbacks) := by
  induction reports with
  | nil => rfl
  | cons report reports ih =>
      cases report with
      | none => exact ih
      | some r => exact congrArg (onExtAdvReport callbacks r ++ ·) ih

theorem flagged_legacy {ad : Advertisement} (hp : p ∈ pdus ad) (hlegacy : p.bits.legacy = true) :
    Flagged p.bits (legacyAdvFlags p.bits.eventKind)
      ∧ legacyAdvFlags p.bits.eventKind &&& scanFDataIncomplete = 0 := by
  cases ad <;> simp only [pdus, List.mem_cons, List.not_mem_nil, or_false] at hp
  case connectableScannableUndirected | nonconnectableScannableUndirected =>
    rcases hp with rfl | rfl <;> dsimp only <;> decide
  case connectableNonscannableDirected | connectableNonscannableDirectedHighDuty
      | nonconnectableNonscannableUndirected =>
    subst hp
    dsimp only
    decide
  case extNonconnectableScannableUndirected => rcases hp with rfl | rfl <;> cases hlegacy
  all_goals
    subst hp
    cases hlegacy

/-- The flags of a piece. -/
theorem flagged_ext (bits : EventBits) {status : LeExtAdvDataStatus}
    (hstatus : status = .complete ∨ status = .incompleteMoreExpected) :
    Flagged bits (extAdvFlags bits status)
      ∧ (extAdvFlags bits status &&& scanFDataIncomplete != 0)
        = decide (status = .incompleteMoreExpected) := by
  obtain ⟨connectable, scannable, directed, scanResponse, legacy⟩ := bits
  rcases hstatus with rfl | rfl <;> revert connectable scannable directed scanResponse legacy <;>
    decide

/-- The data of several reports, in their order. -/
theorem onExtAdvReport_data (rs : List LeExtAdvReport) (slot : ScanSlot) :
    ((rs.flatMap (onExtAdvReport callbacks)).filter (·.slot = slot)).flatMap ScanCallback.data
      = if callbacks.has slot then rs.flatMap LeExtAdvReport.data else [] := by
  induction rs with
  | nil => simp
  | cons r rs ih =>
      rw [List.flatMap_cons, List.filter_append, List.flatMap_append, ih, onExtAdvReport,
        tellReport_data, List.flatMap_cons]
      split_ifs <;> rfl

theorem onExtAdvReport_flags (rs : List LeExtAdvReport) :
    (rs.flatMap (onExtAdvReport callbacks)).filterMap ScanCallback.flags?
      = if callbacks.onScanResultMeta then
          rs.map fun r => extAdvFlags r.eventKind r.dataStatus
        else [] := by
  induction rs with
  | nil => simp
  | cons r rs ih =>
      rw [List.flatMap_cons, List.filterMap_append, ih, onExtAdvReport, tellReport_flags,
        List.map_cons]
      split_ifs <;> rfl

/-- A random address comes back as a random address. -/
theorem cAddrKind_of_random {addr : Address} {call : ScanCallback} (hkind : addr.kind = 1)
    (hcall : call.addrKind = addrKindToC addr.kind
      ∨ callbacks.onScanResult = true ∧ call.addrKind = 0) :
    cAddrKind call.addrKind = addr.kind := by
  rcases hcall with heq | ⟨-, heq⟩
  · rw [heq, hkind]
    decide
  · rw [heq, hkind]
    decide

theorem tells_of_legacy {ad : Advertisement} {r : LeAdvReport} (hkind : own.kind = 1)
    (hp : p ∈ pdus ad) (h : HeardLegacy own p r) :
    Tells callbacks own p (onAdvReport callbacks r) := by
  obtain ⟨hflagged, hwhole⟩ := flagged_legacy hp h.legacy
  have hflags : (onAdvReport callbacks r).filterMap ScanCallback.flags?
      = if callbacks.onScanResultMeta then [legacyAdvFlags p.bits.eventKind] else [] := by
    rw [onAdvReport, tellReport_flags, h.eventKind]
  refine ⟨fun call hcall => ?_, fun slot => ?_, fun hmeta => ⟨0, ?_⟩, fun f hf => ?_⟩
  · obtain ⟨haddr, hcall⟩ := tellReport_names hcall
    rw [h.addr] at haddr hcall
    exact ⟨haddr, cAddrKind_of_random hkind hcall⟩
  · rw [onAdvReport, tellReport_data, h.data]
  · rw [hflags, if_pos hmeta]
    simp [hwhole]
  · rw [hflags] at hf
    split_ifs at hf
    · cases List.mem_singleton.mp hf
      exact hflagged
    · cases hf

theorem tells_of_ext {first : List LeExtAdvReport} {last : LeExtAdvReport} (hkind : own.kind = 1)
    (h : HeardExt own p first last) :
    Tells callbacks own p ((first ++ [last]).flatMap (onExtAdvReport callbacks)) := by
  have hstatus : ∀ r ∈ first ++ [last], r.dataStatus = .complete
      ∨ r.dataStatus = .incompleteMoreExpected := by
    intro r hr
    rcases List.mem_append.mp hr with hr | hr
    · exact .inr (h.more r hr)
    · cases List.mem_singleton.mp hr
      exact .inl h.complete
  refine ⟨fun call hcall => ?_, fun slot => ?_, fun hmeta => ⟨first.length, ?_⟩, fun f hf => ?_⟩
  · obtain ⟨r, hr, hcall⟩ := List.mem_flatMap.mp hcall
    obtain ⟨haddr, hcall⟩ := tellReport_names hcall
    rw [h.addr r hr] at haddr hcall
    exact ⟨haddr, cAddrKind_of_random hkind hcall⟩
  · rw [onExtAdvReport_data, h.data]
  · rw [onExtAdvReport_flags, if_pos hmeta, List.map_map, List.map_append]
    congr 1
    · rw [List.eq_replicate_iff]
      refine ⟨List.length_map _, ?_⟩
      intro more hmore
      obtain ⟨r, hr, rfl⟩ := List.mem_map.mp hmore
      apply (flagged_ext r.eventKind (.inr (h.more r hr))).2.trans
      exact decide_eq_true (h.more r hr)
    · refine congrArg (fun more => [more])
        ((flagged_ext last.eventKind (.inl h.complete)).2.trans ?_)
      rw [h.complete]
      rfl
  · rw [onExtAdvReport_flags] at hf
    split_ifs at hf
    · obtain ⟨r, hr, rfl⟩ := List.mem_map.mp hf
      rw [← h.eventKind r hr]
      exact (flagged_ext r.eventKind (hstatus r hr)).1
    · cases hf

/-- Over whichever handler an event comes, the application can make it out. -/
theorem tells_of_told {ad : Advertisement} {calls : List ScanCallback} (hkind : own.kind = 1)
    (hp : p ∈ pdus ad) (h : Told callbacks own p calls) : Tells callbacks own p calls := by
  rcases h with ⟨reports, r, hreports, hheard, rfl⟩ | ⟨reports, first, last, hreports, hheard, rfl⟩
  · rw [onAdvReports_eq, hreports, List.flatMap_singleton]
    exact tells_of_legacy hkind hp hheard
  · rw [onExtAdvReports_eq, hreports]
    exact tells_of_ext hkind hheard

end Told

/-! ## What is configured -/

section Configured

variable {genericPowerDevice : UInt16} {cfg : RuntimeCfg} {params : AdvertisementParameters}
  {ad : Advertisement} {p : Pdu}

theorem pdus_data (hp : p ∈ pdus ad) :
    p.data = if p.bits.scanResponse then ad.scanData else ad.advData := by
  cases ad <;> simp only [pdus, List.mem_cons, List.not_mem_nil, or_false] at hp
  case connectableScannableUndirected | nonconnectableScannableUndirected
      | extNonconnectableScannableUndirected => rcases hp with rfl | rfl <;> rfl
  all_goals
    subst hp
    rfl

/-- The kind of events that a configuration is for. -/
structure ForCfg (cfg : RuntimeCfg) (bits : EventBits) : Prop where
  connectable : bits.connectable = true ↔ cfg.nonconnectable = 0
  directed : bits.directed = true ↔
    cfg.nonconnectable = 0 ∧ cfg.directedPeerAddress.isSome = true
  legacy : bits.legacy = true ↔ cfg.advExtended = 0
    ∨ cfg.nonconnectable = 0 ∧ cfg.directedPeerAddress.isSome = true ∧ cfg.directedHighDuty ≠ 0

theorem forCfg_nonconnectable (hnon : cfg.nonconnectable ≠ 0)
    (h : advertiseNonconnectable genericPowerDevice cfg = .ok (params, ad)) (hp : p ∈ pdus ad) :
    ForCfg cfg p.bits := by
  unfold advertiseNonconnectable at h
  by_cases hext : cfg.advExtended ≠ 0
  · rw [if_pos hext] at h
    cases hparts : advertisingPartsExt genericPowerDevice cfg with
    | error err =>
        rw [hparts] at h
        cases h
    | ok parts =>
        obtain ⟨adv, scanData, params'⟩ := parts
        rw [hparts] at h
        simp only [Bind.bind, Except.bind] at h
        split at h
        · cases h
        · split_ifs at h
          all_goals cases h
          · cases List.mem_singleton.mp hp
            constructor <;> simp [hnon, hext]
          · rcases List.mem_cons.mp hp with rfl | hp
            · constructor <;> simp [hnon, hext]
            · cases List.mem_singleton.mp hp
              constructor <;> simp [hnon, hext]
  · rw [if_neg hext] at h
    cases hparts : advertisingParts genericPowerDevice cfg with
    | error err =>
        rw [hparts] at h
        cases h
    | ok parts =>
        obtain ⟨adv, scanData, params'⟩ := parts
        rw [hparts] at h
        simp only [Bind.bind, Except.bind] at h
        rw [not_not] at hext
        split_ifs at h
        all_goals cases h
        · cases List.mem_singleton.mp hp
          constructor <;> simp [hnon, hext]
        · rcases List.mem_cons.mp hp with rfl | hp
          · constructor <;> simp [hnon, hext]
          · cases List.mem_singleton.mp hp
            constructor <;> simp [hnon, hext]

theorem forCfg_connectable (hconn : cfg.nonconnectable = 0)
    (h : advertiseConnectable genericPowerDevice cfg = .ok (params, ad)) (hp : p ∈ pdus ad) :
    ForCfg cfg p.bits := by
  unfold advertiseConnectable at h
  cases hpeer : cfg.directedPeerAddress with
  | some addr =>
      simp only [directedPeer, hpeer, Option.map_some] at h
      by_cases hext : cfg.advExtended ≠ 0 ∧ cfg.directedHighDuty = 0
      · rw [if_pos hext] at h
        cases hparts : advertisingPartsExt genericPowerDevice cfg with
        | error err =>
            rw [hparts] at h
            cases h
        | ok parts =>
            rw [hparts] at h
            cases h
            cases List.mem_singleton.mp hp
            constructor <;> simp [hconn, hpeer, hext]
      · rw [if_neg hext] at h
        -- directed, by the legacy commands: of low or of high duty
        have hlegacy : cfg.advExtended = 0 ∨ cfg.directedHighDuty ≠ 0 := by
          rw [not_and_or, not_not] at hext
          exact hext
        split_ifs at h
        all_goals
          cases h
          cases List.mem_singleton.mp hp
          constructor <;> simp [hconn, hpeer, hlegacy]
  | none =>
      simp only [directedPeer, hpeer, Option.map_none] at h
      by_cases hext : cfg.advExtended ≠ 0
      · rw [if_pos hext] at h
        cases hparts : advertisingPartsExt genericPowerDevice cfg with
        | error err =>
            rw [hparts] at h
            cases h
        | ok parts =>
            rw [hparts] at h
            cases h
            cases List.mem_singleton.mp hp
            constructor <;> simp [hconn, hpeer, hext]
      · rw [if_neg hext] at h
        rw [not_not] at hext
        cases hparts : advertisingParts genericPowerDevice cfg with
        | error err =>
            rw [hparts] at h
            cases h
        | ok parts =>
            rw [hparts] at h
            cases h
            -- undirected: the advertisement itself, and its scan response
            rcases List.mem_cons.mp hp with rfl | hp
            · constructor <;> simp [hconn, hpeer, hext]
            · cases List.mem_singleton.mp hp
              constructor <;> simp [hconn, hpeer, hext]

/-- **What a scanner is told of an advertiser**: whichever handler an event
comes over, and in however many pieces (as long as the controller has not cut
its data off), every callback names an address that connects to the
advertiser, those of one kind give the data of the event, the flags say which
event it is of what is configured, and with the legacy path the data is what
is asked for. -/
theorem sighting_tells_configuration (configured : Option (Bytes 6)) (factory : Bytes 6)
    (hstart : serveAdvertisement genericPowerDevice cfg = .ok (params, ad)) (hp : p ∈ pdus ad)
    {callbacks : ScanCallbacks} {calls : List ScanCallback}
    (htold : Told callbacks (deviceAddress configured factory) p calls) :
    Tells callbacks (deviceAddress configured factory) p calls
    ∧ ForCfg cfg p.bits
    ∧ p.data = (if p.bits.scanResponse then ad.scanData else ad.advData)
    ∧ (Legacy cfg → ad.advData = askedAdv genericPowerDevice cfg
      ∧ ad.scanData = (askedScan cfg).take 31) := by
  refine ⟨tells_of_told rfl hp htold, ?_, pdus_data hp, fun hlegacy => ?_⟩
  · unfold serveAdvertisement at hstart
    split_ifs at hstart with hnon
    · exact forCfg_nonconnectable hnon hstart hp
    · exact forCfg_connectable (not_not.mp hnon) hstart hp
  · obtain ⟨hok, herror⟩ := serveAdvertisement_eq genericPowerDevice hlegacy
    by_cases hfits : AdvFits genericPowerDevice cfg
    · obtain ⟨ad', had, hadv, hscan⟩ := hok hfits
      cases had.symm.trans hstart
      exact ⟨hadv, hscan⟩
    · cases (herror hfits).symm.trans hstart

end Configured

/-- The data of an extended advertisement in two pieces, with a report in
between that cannot be parsed. -/
theorem sighting_tells_configuration_pieces :
    let cfg : RuntimeCfg := { nonconnectable := 1, advExtended := 1, advData := some [2, 1, 6] }
    let own := deviceAddress none #v[1, 2, 3, 4, 5, 6]
    let p : Pdu := ⟨{ scannable := true, scanResponse := true }, [2, 1, 6]⟩
    let piece (status : LeExtAdvDataStatus) (data : List UInt8) : LeExtAdvReport :=
      { eventKind := p.bits, dataStatus := status, addr := own, primaryAdvPhy := .le1M,
        secondaryAdvPhy := some .le2M, advSid := 0, txPower := 127, rssi := -60, data }
    let callbacks : ScanCallbacks := ⟨true, true, true⟩
    Tells callbacks own p (onExtAdvReports callbacks
        [some (piece .incompleteMoreExpected [2, 1]), none, some (piece .complete [6])])
      ∧ ForCfg cfg p.bits := by
  intro cfg own p piece callbacks
  have hstart : serveAdvertisement 0x0500 cfg
      = .ok (advertisingParams cfg, .extNonconnectableScannableUndirected [2, 1, 6]) := rfl
  have hheard : HeardExt own p [piece .incompleteMoreExpected [2, 1]] (piece .complete [6]) := by
    refine ⟨?_, ?_, ?_, rfl, rfl⟩ <;> simp [piece]
  have hp : p ∈ pdus (.extNonconnectableScannableUndirected [2, 1, 6]) := by simp [pdus, p]
  have htold : Told callbacks own p (onExtAdvReports callbacks
      [some (piece .incompleteMoreExpected [2, 1]), none, some (piece .complete [6])]) :=
    .inr ⟨_, _, _, rfl, hheard, rfl⟩
  obtain ⟨htells, hfor, -⟩ :=
    sighting_tells_configuration none #v[1, 2, 3, 4, 5, 6] hstart hp htold
  exact ⟨htells, hfor⟩

/-! ## Whom it connects to -/

/-- A scanning device: its central loop, the addresses whose reports it has
had, and what its application has been told, the newest first. -/
structure Scanner where
  dialer : Dialer
  heard : List Address := []
  told : List ScanCallback := []

/-- The dialler moves, or an event with reports comes in. -/
inductive ScannerLabel where
  | dial (i : DialLabel)
  | advReports (reports : List (Option LeAdvReport))
  | extAdvReports (reports : List (Option LeExtAdvReport))

section Dials

variable (b : Build) (configured : Option PeerAddress) (callbacks : ScanCallbacks)

/-- Both handlers, beside the dialler. -/
def scannerStep (s : Scanner) : ScannerLabel → Option Scanner
  | .dial i => (dialStep b configured s.dialer i).map fun dialer => { s with dialer }
  | .advReports reports =>
      some
        { s with
          heard := reports.reduceOption.map LeAdvReport.addr ++ s.heard
          told := onAdvReports callbacks reports ++ s.told }
  | .extAdvReports reports =>
      some
        { s with
          heard := reports.reduceOption.map LeExtAdvReport.addr ++ s.heard
          told := onExtAdvReports callbacks reports ++ s.told }

/-- The scanner from where the dialler starts, with nothing heard. -/
def scanner : Machine Scanner ScannerLabel where
  init s := (dialer b configured).init s.dialer ∧ s.heard = [] ∧ s.told = []
  step := scannerStep b configured callbacks

/-- The host's address of a peer that the application names. -/
def Names (peer : PeerAddress) (addr : Address) : Prop :=
  peer.addr = addr.addr.toList ∧ cAddrKind peer.kind = addr.kind

/-- Kinds that come back as they are told: a random one by each callback, a
public one where `on_scan_result`, which does not tell the kind, is not set. -/
def Tellable (addr : Address) : Prop :=
  addr.kind = 1 ∨ addr.kind = 0 ∧ callbacks.onScanResult = false

/-- The application connects to what it has been told of, and the devices
around have random addresses, or public ones where `on_scan_result` is not
set. -/
def GoesBy (s : Scanner) : ScannerLabel → Prop
  | .dial (.call a) => ∀ peer ∈ a.peer?, ∃ call ∈ s.told,
      peer = { addr := call.addr.toList, kind := call.addrKind }
  | .dial _ => True
  | .advReports reports => ∀ r ∈ reports.reduceOption, Tellable callbacks r.addr
  | .extAdvReports reports => ∀ r ∈ reports.reduceOption, Tellable callbacks r.addr

instance : DecidablePred (Tellable callbacks) := fun _ => inferInstanceAs (Decidable (_ ∨ _))

instance (s : Scanner) : DecidablePred (GoesBy callbacks s)
  | .dial (.call a) => inferInstanceAs (Decidable (∀ peer ∈ a.peer?, ∃ call ∈ s.told, _))
  | .advReports reports =>
      inferInstanceAs (Decidable (∀ r ∈ reports.reduceOption, Tellable callbacks r.addr))
  | .extAdvReports reports =>
      inferInstanceAs (Decidable (∀ r ∈ reports.reduceOption, Tellable callbacks r.addr))
  | .dial .unload | .dial .look | .dial .poll | .dial .scanOver | .dial (.connected _)
  | .dial .linkOver | .dial .wake => inferInstanceAs (Decidable True)

end Dials

section Sighted

variable {b : Build} {configured : Option PeerAddress} {callbacks : ScanCallbacks}
  {s t : Scanner}

/-- A call says whom to connect to: a device that has been heard. -/
structure Sighted (b : Build) (configured : Option PeerAddress) (s : Scanner) : Prop where
  dialling : Dialling b configured s.dialer
  told : ∀ call ∈ s.told, ∃ addr ∈ s.heard,
    Names { addr := call.addr.toList, kind := call.addrKind } addr
  called : ∀ a status, .called a status ∈ s.dialer.log → ∀ peer, a.peer? = some peer →
    ∃ addr ∈ s.heard, Names peer addr

/-- What is told of a tellable address names it. -/
theorem names_of_told {addr : Address} {rssi : Int8} {data : List UInt8} {flags : UInt16}
    {primaryPhy secondaryPhy : UInt8} {txPower : Int8} {sid : UInt8} {call : ScanCallback}
    (haddr : Tellable callbacks addr)
    (h : call ∈ tellReport callbacks addr rssi data flags primaryPhy secondaryPhy txPower sid) :
    Names { addr := call.addr.toList, kind := call.addrKind } addr := by
  obtain ⟨hsame, hkind⟩ := tellReport_names h
  refine ⟨congrArg Vector.toList hsame, ?_⟩
  rcases haddr with hrandom | ⟨hpublic, hplain⟩
  · exact cAddrKind_of_random hrandom hkind
  · rcases hkind with heq | ⟨hset, -⟩
    · show cAddrKind call.addrKind = addr.kind
      rw [heq, hpublic]
      decide
    · rw [hplain] at hset
      cases hset

/-- More is heard, and told of what is heard. -/
theorem Sighted.more (h : Sighted b configured s) {addrs : List Address}
    {calls : List ScanCallback} (hcalls : ∀ call ∈ calls, ∃ addr ∈ addrs,
      Names { addr := call.addr.toList, kind := call.addrKind } addr) :
    Sighted b configured { s with heard := addrs ++ s.heard, told := calls ++ s.told } where
  dialling := h.dialling
  told := by
    intro call hcall
    rcases List.mem_append.mp hcall with hcall | hcall
    · obtain ⟨addr, haddr, hnames⟩ := hcalls call hcall
      exact ⟨addr, List.mem_append_left _ haddr, hnames⟩
    · obtain ⟨addr, haddr, hnames⟩ := h.told call hcall
      exact ⟨addr, List.mem_append_right _ haddr, hnames⟩
  called := by
    intro a status hmem peer hpeer
    obtain ⟨addr, haddr, hnames⟩ := h.called a status hmem peer hpeer
    exact ⟨addr, List.mem_append_right _ haddr, hnames⟩

theorem Sighted.step (hb : b.central = true) (h : Sighted b configured s) {i : ScannerLabel}
    (hok : GoesBy callbacks s i) (hs : scannerStep b configured callbacks s i = some t) :
    Sighted b configured t := by
  cases i with
  | dial i =>
      obtain ⟨dialer, hdialer, rfl⟩ := Option.map_eq_some_iff.mp hs
      refine ⟨h.dialling.step hb hdialer, h.told, ?_⟩
      intro a status hmem peer hpeer
      rcases called_of_step hdialer hmem with hmem | rfl
      · exact h.called a status hmem peer hpeer
      · obtain ⟨call, hcall, rfl⟩ := hok peer hpeer
        exact h.told call hcall
  | advReports reports =>
      cases hs
      apply h.more
      intro call hcall
      rw [onAdvReports_eq] at hcall
      obtain ⟨r, hr, hcall⟩ := List.mem_flatMap.mp hcall
      exact ⟨r.addr, List.mem_map_of_mem hr, names_of_told (hok r hr) hcall⟩
  | extAdvReports reports =>
      cases hs
      apply h.more
      intro call hcall
      rw [onExtAdvReports_eq] at hcall
      obtain ⟨r, hr, hcall⟩ := List.mem_flatMap.mp hcall
      exact ⟨r.addr, List.mem_map_of_mem hr, names_of_told (hok r hr) hcall⟩

/-- **Only what has been sighted is dialled**, over any run of calls, polls,
reports and host answers, with the calls between the polls: where the
application connects to what it has been told of, and public addresses are
only about where `on_scan_result` is not set, the loop connects to the
configured peer once, and else to devices whose reports have been heard, by
the very address they were heard with. -/
theorem dialled_was_sighted (hb : b.central = true)
    (h : (scanner b configured callbacks).Reach (GoesBy callbacks) s) :
    ∃ commanded, dials s.dialer.log
        = commanded ++ (if s.dialer.auto then [] else configured.toList)
      ∧ ∀ peer ∈ commanded, ∃ addr ∈ s.heard, Names peer addr := by
  have hsighted : Sighted b configured s := by
    apply Machine.Reach.invariant (P := Sighted b configured) ?_ ?_ h
    · rintro s ⟨hinit, hheard, htold⟩
      refine ⟨dialling_of_reachable hb (.start hinit), ?_, ?_⟩
      · rw [htold]
        exact fun call hcall => absurd hcall List.not_mem_nil
      · rw [hinit.2.2.2]
        exact fun a status hmem => absurd hmem List.not_mem_nil
    · intro s i t hinv hok hs
      exact hinv.step hb hok hs
  refine ⟨_, hsighted.dialling.dials, fun peer hpeer => ?_⟩
  obtain ⟨a, status, hmem, hasks⟩ := called_of_mem_dialsOf hpeer
  exact hsighted.called a status hmem peer hasks

end Sighted

/-- An advertiser is heard over the extended handler, and connected to by the
plain callback's address. -/
theorem dialled_was_sighted_random :
    let own := deviceAddress none #v[1, 2, 3, 4, 5, 6]
    ∃ s, (scanner { central := true } none ⟨false, false, true⟩).Reach
        (GoesBy ⟨false, false, true⟩) s
      ∧ dials s.dialer.log = [{ addr := own.addr.toList, kind := 0 }]
      ∧ ∃ addr ∈ s.heard, Names { addr := own.addr.toList, kind := 0 } addr := by
  intro own
  let report : LeExtAdvReport :=
    { eventKind := {}, dataStatus := .complete, addr := own, primaryAdvPhy := .le1M,
      secondaryAdvPhy := none, advSid := 0, txPower := 127, rssi := -60, data := [] }
  have hexec : ((scanner { central := true } none ⟨false, false, true⟩).execWhile
        (fun s i => decide (GoesBy ⟨false, false, true⟩ s i))
        { dialer := { mem := bootMem, auto := false } }
        [.dial .look, .extAdvReports [some report], .dial (.call (.connect (some own.addr))),
          .dial .poll]).map
      (fun s => decide (dials s.dialer.log = [{ addr := own.addr.toList, kind := 0 }]))
      = some true := by
    decide
  obtain ⟨s, hreach, hs⟩ := Machine.exists_reach_of_execWhile
    (fun _ _ => of_decide_eq_true) _
    (show (scanner { central := true } none ⟨false, false, true⟩).init
        { dialer := { mem := bootMem, auto := false } } from ⟨⟨rfl, rfl, rfl, rfl⟩, rfl, rfl⟩) hexec
  have hdials := of_decide_eq_true hs
  obtain ⟨commanded, hcommanded, hsighted⟩ := dialled_was_sighted rfl hreach
  refine ⟨s, hreach, hdials, hsighted _ ?_⟩
  rw [hdials] at hcommanded
  simp only [Option.toList_none, ite_self, List.append_nil] at hcommanded
  rw [← hcommanded]
  exact List.mem_singleton_self _

end RuntimeBle.Pair
