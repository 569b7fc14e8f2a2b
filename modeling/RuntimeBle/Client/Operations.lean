import RuntimeBle.Lib.Dialogue
import RuntimeBle.Request.Handover

/-!
# Client — Operations

The operations of the GATT client in `client_session`, as dialogues with
the host: what they ask of it, and the callbacks they make for its answers.

A read answers with the value, of which the host copies what fits into the
buffer. `find_information` and `read_by_type` answer with the entries they
have reported, and with whether they ended well.
-/

namespace RuntimeBle.Client

open RuntimeBle.Lib RuntimeBle.Request

/-! ## The host -/

/-- A service of the peer. -/
structure ServiceHandle where
  first : UInt16
  last : UInt16
  uuid : List UInt8
deriving DecidableEq

/-- A characteristic of the peer, as the host's discovery finds it. -/
structure Characteristic where
  handle : UInt16
  cccdHandle : Option UInt16
  uuid : List UInt8
  props : UInt8
deriving DecidableEq

/-- What an operation asks the host's GATT client. -/
inductive ClientQuery where
  | services
  | servicesByUuid (uuid : List UInt8)
  | characteristics (service : ServiceHandle)
  | findInformation (first last : UInt16)
  | readByType (first last : UInt16) (uuid : List UInt8)
  | readHandle (handle : UInt16)
  | readHandleBlob (handle offset : UInt16)
  | writeHandle (handle : UInt16) (bytes : List UInt8)
  | writeHandleWithoutResponse (handle : UInt16) (bytes : List UInt8)
deriving DecidableEq

/-- `none` and `false` are errors. -/
def ClientQuery.Answer : ClientQuery → Type
  | services | servicesByUuid _ => Option (List ServiceHandle)
  | characteristics _ => Option (List Characteristic)
  | findInformation _ _ | readByType _ _ _ => List (UInt16 × List UInt8) × Bool
  | readHandle _ | readHandleBlob _ _ => Option (List UInt8)
  | writeHandle _ _ | writeHandleWithoutResponse _ _ => Bool

/-! ## Callbacks -/

/-- What an operation tells the application. -/
inductive ClientCallback where
  | onService (first last : UInt16) (uuid : List UInt8)
  | onDiscovered (handle : UInt16) (uuid : List UInt8) (props : UInt16)
  | onDescriptor (handle : UInt16) (uuid : List UInt8)
  | onRead (handle : UInt16) (bytes : List UInt8)
  | onLog (line : String)
  | onClientStatus (op : UInt8) (status : Int8) (handle : UInt16)
deriving DecidableEq

/-- The two values of `on_client_status`'s `status`. -/
def clientStatusOk : Int8 := 0
def clientStatusFailed : Int8 := -1

def clientOpDiscoverServices : UInt8 := 1
def clientOpDiscoverChars : UInt8 := 2
def clientOpDiscoverAll : UInt8 := 3
def clientOpDiscoverDescriptors : UInt8 := 4
def clientOpRead : UInt8 := 5
def clientOpReadBlob : UInt8 := 6
def clientOpWrite : UInt8 := 7
def clientOpWriteNoRsp : UInt8 := 8
def clientOpSubscribe : UInt8 := 9
def clientOpSubscribeIndicate : UInt8 := 10
def clientOpReadByUuid : UInt8 := 11
def clientOpUnsubscribe : UInt8 := 12

/-- `props_to_c`: the bits of the Bluetooth properties under those of the C
API. -/
def propsToC (ble : UInt8) : UInt16 :=
  (if ble &&& 0x02 ≠ 0 then 0x01 else 0)
    ||| (if ble &&& 0x04 ≠ 0 then 0x04 else 0)
    ||| (if ble &&& 0x08 ≠ 0 then 0x02 else 0)
    ||| (if ble &&& 0x10 ≠ 0 then 0x08 else 0)
    ||| (if ble &&& 0x20 ≠ 0 then 0x10 else 0)

/-! ## The operations -/

/-- `ClientCharStore`: value and CCCD handles of what was discovered. -/
abbrev ClientCharStore := List (UInt16 × Option UInt16)

/-- `CLIENT_CHAR_CAP`. -/
def clientCharCap : Nat := 32

/-- `push_char`: a full store takes no more. -/
def pushChar (store : ClientCharStore) (c : Characteristic) : ClientCharStore :=
  if store.length < clientCharCap then store ++ [(c.handle, c.cccdHandle)] else store

/-- What an operation returns is the store it leaves. -/
abbrev ClientDialogue := Dialogue ClientQuery ClientQuery.Answer ClientCallback ClientCharStore

/-- `emit_client_status`, with which every operation ends. -/
def emitClientStatus (op : UInt8) (ok : Bool) (handle : UInt16) (store : ClientCharStore) :
    ClientDialogue :=
  .emit (.onClientStatus op (if ok then clientStatusOk else clientStatusFailed) handle) (.ret store)

/-- `report_service`. -/
def reportService (s : ServiceHandle) : ClientCallback := .onService s.first s.last s.uuid

/-- `report_service_chars`: a service that is not answered is passed over. -/
def reportServiceChars (s : ServiceHandle) (store : ClientCharStore) : ClientDialogue :=
  .ask (.characteristics s) fun
    | none => .ret store
    | some chars => .forEach chars store fun c store =>
        .emit (.onDiscovered c.handle c.uuid (propsToC c.props)) (.ret (pushChar store c))

/-- `client_discover_all`: each service, and behind it its characteristics. -/
def clientDiscoverAll (store : ClientCharStore) : ClientDialogue :=
  .ask .services fun
    | some svcs =>
        (Dialogue.forEach svcs store fun s store =>
            .emit (reportService s) (reportServiceChars s store)).bind
          (emitClientStatus clientOpDiscoverAll true 0)
    | none =>
        .emit (.onLog "[central] discover all failed")
          (emitClientStatus clientOpDiscoverAll false 0 store)

/-- `client_discover_services`: the services alone. -/
def clientDiscoverServices (store : ClientCharStore) : ClientDialogue :=
  .ask .services fun
    | some svcs =>
        .emits (svcs.map reportService) (emitClientStatus clientOpDiscoverServices true 0 store)
    | none =>
        .emit (.onLog "[central] discover services failed")
          (emitClientStatus clientOpDiscoverServices false 0 store)

/-- `client_discover`: the characteristics of the services with a UUID. -/
def clientDiscover (uuid : List UInt8) (store : ClientCharStore) : ClientDialogue :=
  .ask (.servicesByUuid uuid) fun
    | none =>
        .emit (.onLog "[central] discover: service not found")
          (emitClientStatus clientOpDiscoverChars false 0 store)
    | some svcs =>
        (Dialogue.forEach svcs store reportServiceChars).bind
          (emitClientStatus clientOpDiscoverChars true 0)

/-- `client_discover_descriptors`: what was found before a failure is told too. -/
def clientDiscoverDescriptors (first last : UInt16) (store : ClientCharStore) : ClientDialogue :=
  if first = 0 ∨ last < first then emitClientStatus clientOpDiscoverDescriptors false first store
  else
    .ask (.findInformation first last) fun (found, ok) =>
      .emits (found.map fun (handle, uuid) => .onDescriptor handle uuid)
        (emitClientStatus clientOpDiscoverDescriptors ok first store)

/-- `client_read_by_uuid`: each value is cut to `VALUE_LEN`. -/
def clientReadByUuid (b : Build) (first last : UInt16) (uuid : List UInt8)
    (store : ClientCharStore) : ClientDialogue :=
  .ask (.readByType first last uuid) fun (found, ok) =>
    .emits (found.map fun (handle, data) => .onRead handle (data.take b.valueLen))
      (emitClientStatus clientOpReadByUuid ok first store)

/-- The branch of `CCMD_READ` and `CCMD_READ_BLOB` behind its read. -/
def clientReadDone (b : Build) (op : UInt8) (handle : UInt16) (store : ClientCharStore) :
    Option (List UInt8) → ClientDialogue
  | some value =>
      .emit (.onRead handle (value.take b.valueLen)) (emitClientStatus op true handle store)
  | none => .emit (.onLog "[central] read failed") (emitClientStatus op false handle store)

/-- The CCCD that goes with a value handle, the next handle by default. -/
def cccdFor (store : ClientCharStore) (handle : UInt16) : UInt16 :=
  ((store.find? fun c => c.1 == handle).bind (·.2)).getD (handle + 1)

/-- The branch of the three commands that write a CCCD. -/
def clientWriteCccd (op : UInt8) (value : List UInt8) (handle : UInt16)
    (store : ClientCharStore) : ClientDialogue :=
  .ask (.writeHandle (cccdFor store handle) value) fun ok => emitClientStatus op ok handle store

/-- The `match` of the command pump. -/
def clientOperation (b : Build) (store : ClientCharStore) : ClientOp → ClientDialogue
  | .disconnect | .ignored => .ret store
  | .discoverServices => clientDiscoverServices store
  | .discover uuid => clientDiscover uuid store
  | .discoverAll => clientDiscoverAll store
  | .discoverDescriptors first last => clientDiscoverDescriptors first last store
  | .readByUuid first last uuid => clientReadByUuid b first last uuid store
  | .read handle => .ask (.readHandle handle) (clientReadDone b clientOpRead handle store)
  | .readBlob handle offset =>
      .ask (.readHandleBlob handle offset) (clientReadDone b clientOpReadBlob handle store)
  | .write handle bytes =>
      .ask (.writeHandle handle bytes) fun ok => emitClientStatus clientOpWrite ok handle store
  | .writeNoRsp handle bytes =>
      .ask (.writeHandleWithoutResponse handle bytes) fun ok =>
        emitClientStatus clientOpWriteNoRsp ok handle store
  | .subscribe handle => clientWriteCccd clientOpSubscribe [0x01, 0x00] handle store
  | .subscribeIndicate handle => clientWriteCccd clientOpSubscribeIndicate [0x02, 0x00] handle store
  | .unsubscribe handle => clientWriteCccd clientOpUnsubscribe [0x00, 0x00] handle store

/-! ## One status for each -/

/-- A call of `on_client_status`. -/
structure ClientStatus where
  op : UInt8
  status : Int8
  handle : UInt16
deriving DecidableEq

/-- The arguments of `on_client_status`, if it is that callback. -/
def ClientCallback.status : ClientCallback → Option ClientStatus
  | onClientStatus op status handle => some { op, status, handle }
  | _ => none

/-- The op code and the handle a command is answered with; `none` for what
is not a GATT client command. -/
def answerOf : ClientOp → Option (UInt8 × UInt16)
  | .disconnect | .ignored => none
  | .discoverServices => some (clientOpDiscoverServices, 0)
  | .discover _ => some (clientOpDiscoverChars, 0)
  | .discoverAll => some (clientOpDiscoverAll, 0)
  | .discoverDescriptors first _ => some (clientOpDiscoverDescriptors, first)
  | .readByUuid first _ _ => some (clientOpReadByUuid, first)
  | .read handle => some (clientOpRead, handle)
  | .readBlob handle _ => some (clientOpReadBlob, handle)
  | .write handle _ => some (clientOpWrite, handle)
  | .writeNoRsp handle _ => some (clientOpWriteNoRsp, handle)
  | .subscribe handle => some (clientOpSubscribe, handle)
  | .subscribeIndicate handle => some (clientOpSubscribeIndicate, handle)
  | .unsubscribe handle => some (clientOpUnsubscribe, handle)

/-- The status is that of the operation. -/
def ClientStatus.Answers (op : UInt8) (handle : UInt16) (x : ClientStatus) : Prop :=
  x.op = op ∧ x.handle = handle

section Once

variable {b : Build} {op : UInt8} {handle : UInt16} {store : ClientCharStore}

/-- However the peer answers, one status is told, and it is the operation's. -/
abbrev OnceAnswered (op : UInt8) (handle : UInt16) (d : ClientDialogue) : Prop :=
  d.Once ClientCallback.status (ClientStatus.Answers op handle)

/-- However the peer answers, no status is told. -/
abbrev Silent (d : ClientDialogue) : Prop := d.Quiet ClientCallback.status

theorem once_emitClientStatus (ok : Bool) :
    OnceAnswered op handle (emitClientStatus op ok handle store) :=
  .say rfl ⟨rfl, rfl⟩

theorem silent_reportServiceChars (s : ServiceHandle) (store : ClientCharStore) :
    Silent (reportServiceChars s store) := by
  refine .ask fun r => ?_
  cases r with
  | none => exact .ret
  | some chars => exact .forEach (fun _ _ => .emit rfl .ret) chars store

theorem once_clientDiscoverAll : OnceAnswered clientOpDiscoverAll 0 (clientDiscoverAll store) := by
  refine .ask fun r => ?_
  cases r with
  | none => exact .emit rfl (once_emitClientStatus false)
  | some svcs =>
      have hsvcs : Silent (Dialogue.forEach svcs store fun s store =>
          .emit (reportService s) (reportServiceChars s store)) :=
        .forEach (fun s store => .emit rfl (silent_reportServiceChars s store)) svcs store
      exact hsvcs.bind_once fun _ => once_emitClientStatus true

theorem once_clientDiscoverServices :
    OnceAnswered clientOpDiscoverServices 0 (clientDiscoverServices store) := by
  refine .ask fun r => ?_
  cases r with
  | none => exact .emit rfl (once_emitClientStatus false)
  | some svcs =>
      refine .emits ?_ (once_emitClientStatus true)
      intro e he
      obtain ⟨s, -, rfl⟩ := List.mem_map.mp he
      rfl

theorem once_clientDiscover (uuid : List UInt8) :
    OnceAnswered clientOpDiscoverChars 0 (clientDiscover uuid store) := by
  refine .ask fun r => ?_
  cases r with
  | none => exact .emit rfl (once_emitClientStatus false)
  | some svcs =>
      have hsvcs : Silent (Dialogue.forEach svcs store reportServiceChars) :=
        .forEach silent_reportServiceChars svcs store
      exact hsvcs.bind_once fun _ => once_emitClientStatus true

theorem once_clientDiscoverDescriptors (first last : UInt16) :
    OnceAnswered clientOpDiscoverDescriptors first
      (clientDiscoverDescriptors first last store) := by
  rw [clientDiscoverDescriptors]
  split
  · exact once_emitClientStatus false
  · refine .ask fun r => .emits ?_ (once_emitClientStatus r.2)
    intro e he
    obtain ⟨d, -, rfl⟩ := List.mem_map.mp he
    rfl

theorem once_clientReadByUuid (first last : UInt16) (uuid : List UInt8) :
    OnceAnswered clientOpReadByUuid first (clientReadByUuid b first last uuid store) := by
  refine .ask fun r => .emits ?_ (once_emitClientStatus r.2)
  intro e he
  obtain ⟨d, -, rfl⟩ := List.mem_map.mp he
  rfl

theorem once_clientReadDone (r : Option (List UInt8)) :
    OnceAnswered op handle (clientReadDone b op handle store r) := by
  cases r with
  | none => exact .emit rfl (once_emitClientStatus false)
  | some value => exact .emit rfl (once_emitClientStatus true)

/-- **One status for each operation**, whatever the host answers: with the
op code and the handle of the command. -/
theorem once_clientOperation {o : ClientOp} (h : answerOf o = some (op, handle)) :
    OnceAnswered op handle (clientOperation b store o) := by
  cases o <;> cases h
  case discoverServices => exact once_clientDiscoverServices
  case discover uuid => exact once_clientDiscover uuid
  case discoverAll => exact once_clientDiscoverAll
  case discoverDescriptors last => exact once_clientDiscoverDescriptors handle last
  case readByUuid last uuid => exact once_clientReadByUuid handle last uuid
  case read => exact .ask once_clientReadDone
  case readBlob => exact .ask once_clientReadDone
  -- writes, and subscriptions, which write a CCCD
  all_goals exact .ask once_emitClientStatus

end Once

end RuntimeBle.Client
