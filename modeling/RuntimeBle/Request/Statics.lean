import RuntimeBle.Config
import RuntimeBle.Lib.Shared

/-!
# Request — Statics

The statics through which caller threads and the runtime thread talk: the
request slots, their parameter words and buffers, and the command numbers.
A flag (`SEND_REQ`) is a slot that holds 0 or 1.
-/

namespace RuntimeBle.Request

open RuntimeBle.Lib

/-! ## Slots, words, buffers -/

/-- The atomics that say whether a request waits, and which. -/
inductive Slot where
  | sendReq
  | l2capSendReq
  | linkCmd
  | bondCmd
  | centralCmd
deriving DecidableEq, Repr

/-- All of them, in their order in `lib.rs`. -/
def allSlots : List Slot := [.sendReq, .l2capSendReq, .linkCmd, .bondCmd, .centralCmd]

theorem mem_allSlots (s : Slot) : s ∈ allSlots := by
  cases s <;> decide

/-- The atomics that hold a request's parameters. -/
inductive Word where
  | sendChr | sendKind | sendLen
  | l2capSendLen
  | linkPhy
  | linkDleOctets | linkDleTimeUs
  | linkConnMinMs | linkConnMaxMs | linkConnLatency | linkConnTimeoutMs
  | linkFrameSpaceMinUs | linkFrameSpaceMaxUs | linkFrameSpacePhyMask | linkFrameSpaceTypes
  | linkRateSubrateMin | linkRateSubrateMax | linkRateContinuation
  | linkPasskey
  | bondIndex | bondIoCapability
  | centralHandle | centralAddrKind | centralUuidLen
  | scanActive | scanIntervalMs | scanWindowMs | scanTimeoutMs
  | scanFilterDuplicates | scanPhyOptions | scanFilterAddrEnabled | scanFilterAddrKind
deriving DecidableEq, Repr

/-- The byte buffers that hold what a request carries. -/
inductive Buf where
  | sendBuf
  | l2capSendBuf
  | centralAddr
  | centralUuid
  | scanFilterAddr
deriving DecidableEq, Repr

/-- What the parameter statics hold. -/
abbrev ReqParams := Params Word Buf

/-- What the statics hold, the slots among them. -/
abbrev ReqMem := Mem Slot Word Buf

/-- A call under way, and what it has still to store. -/
abbrev ReqCall := Call Slot Word Buf

/-- A consumer that reads the parameters one access after another. -/
abbrev ReqFetch := Fetch Word Buf

/-- The statics as the image is loaded. -/
def bootMem : ReqMem where
  slot _ := 0
  params :=
    { word := fun w => if w = .sendChr then 0xffffffff else 0
      buf := fun
        | .sendBuf | .l2capSendBuf => List.replicate 512 0
        | .centralAddr | .scanFilterAddr => List.replicate 6 0
        | .centralUuid => List.replicate 16 0 }

/-! ## Constants -/

/-- `SEND_BUF_CAP`: the bytes of `SEND_BUF` and of `L2CAP_SEND_BUF`. -/
def sendBufCap : Nat := 512

/-- `NUS_TX_CHR`: `usize::MAX` of the 32-bit targets. -/
def nusTxChr : Nat := 0xffffffff

/-- `SEND_KIND_AUTO`: a notification, or an indication where only that is
declared. -/
def sendKindAuto : Nat := 0

/-- `SEND_KIND_INDICATE`: an indication in any case. -/
def sendKindIndicate : Nat := 1

section Commands

@[match_pattern] abbrev lcmdSetPhy : Nat := 1
@[match_pattern] abbrev lcmdDle : Nat := 2
@[match_pattern] abbrev lcmdConnParams : Nat := 3
@[match_pattern] abbrev lcmdSecurityRequest : Nat := 4
@[match_pattern] abbrev lcmdPasskeyConfirm : Nat := 5
@[match_pattern] abbrev lcmdPasskeyCancel : Nat := 6
@[match_pattern] abbrev lcmdPasskeyInput : Nat := 7
@[match_pattern] abbrev lcmdReadRssi : Nat := 8
@[match_pattern] abbrev lcmdReadAttMtu : Nat := 9
@[match_pattern] abbrev lcmdFrameSpace : Nat := 10
@[match_pattern] abbrev lcmdConnectionRate : Nat := 11
@[match_pattern] abbrev lcmdReadPhy : Nat := 12
@[match_pattern] abbrev lcmdReadSecurity : Nat := 13

@[match_pattern] abbrev bcmdEnumerate : Nat := 1
@[match_pattern] abbrev bcmdDelete : Nat := 2
@[match_pattern] abbrev bcmdDeleteAll : Nat := 3
@[match_pattern] abbrev bcmdSetIoCapability : Nat := 4

@[match_pattern] abbrev ccmdScanStart : Nat := 1
@[match_pattern] abbrev ccmdScanStop : Nat := 2
@[match_pattern] abbrev ccmdConnect : Nat := 3
@[match_pattern] abbrev ccmdDisconnect : Nat := 4
@[match_pattern] abbrev ccmdDiscover : Nat := 5
@[match_pattern] abbrev ccmdRead : Nat := 6
@[match_pattern] abbrev ccmdWrite : Nat := 7
@[match_pattern] abbrev ccmdSubscribe : Nat := 8
@[match_pattern] abbrev ccmdWriteNoRsp : Nat := 9
@[match_pattern] abbrev ccmdDiscoverDescriptors : Nat := 10
@[match_pattern] abbrev ccmdSubscribeIndicate : Nat := 11
@[match_pattern] abbrev ccmdReadBlob : Nat := 12
@[match_pattern] abbrev ccmdDiscoverAll : Nat := 13
@[match_pattern] abbrev ccmdDiscoverServices : Nat := 14
@[match_pattern] abbrev ccmdReadByUuid : Nat := 15
@[match_pattern] abbrev ccmdUnsubscribe : Nat := 16

end Commands

end RuntimeBle.Request
