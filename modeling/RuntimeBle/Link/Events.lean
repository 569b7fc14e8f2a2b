import RuntimeBle.Bond.Slots
import RuntimeBle.Lib.Machine
import RuntimeBle.Link.Control

/-!
# Link — Events

The event loops of a peripheral's and of a central's link:
`connection_task` and `central_connection_events`, each with its own copy of
the `match`.

The application's answer to `on_oob_request` may depend on all it has been
called with before. Of an event there are the fields that are read.
-/

namespace RuntimeBle.Link

open RuntimeBle.Lib RuntimeBle.Request RuntimeBle.Bond

/-! ## Events -/

/-- `embassy_time::Duration`, by what is read of it. -/
structure Duration where
  asMillis : UInt64
  asMicros : UInt64
deriving DecidableEq

/-- The events of a link, as the host crate gives them. -/
inductive ConnectionEvent (K : Type) where
  | disconnected (reason : UInt8)
  | requestConnectionParams (req : RequestedConnParams)
  | connectionParamsUpdated (connInterval : Duration) (peripheralLatency : UInt16)
      (supervisionTimeout : Duration)
  | phyUpdated (txPhy rxPhy : PhyKind)
  | dataLengthUpdated (maxTxOctets maxRxOctets : UInt16)
  | frameSpaceUpdated (frameSpace : Duration)
  | connectionRateChanged (connInterval : Duration) (subrateFactor peripheralLatency
      continuationNumber : UInt16) (supervisionTimeout : Duration)
  | passKeyDisplay (key : UInt32)
  | passKeyConfirm (key : UInt32)
  | passKeyInput
  | pairingComplete (level : SecurityLevel) (bond : Option (BondInformation K))
  | pairingFailed
  | bondLost
  | encrypted (level : SecurityLevel) (bond : Option (BondInformation K))
  | oobRequest

/-- The events of a connection with a GATT server, which has events `G` of
its own. -/
inductive GattConnectionEvent (K G : Type) where
  | disconnected (reason : UInt8)
  | requestConnectionParams (req : RequestedConnParams)
  | connectionParamsUpdated (connInterval : Duration) (peripheralLatency : UInt16)
      (supervisionTimeout : Duration)
  | phyUpdated (txPhy rxPhy : PhyKind)
  | dataLengthUpdated (maxTxOctets maxRxOctets : UInt16)
  | frameSpaceUpdated (frameSpace : Duration)
  | connectionRateChanged (connInterval : Duration) (subrateFactor peripheralLatency
      continuationNumber : UInt16) (supervisionTimeout : Duration)
  | passKeyDisplay (key : UInt32)
  | passKeyConfirm (key : UInt32)
  | passKeyInput
  | pairingComplete (level : SecurityLevel) (bond : Option (BondInformation K))
  | pairingFailed
  | bondLost
  | encrypted (level : SecurityLevel) (bond : Option (BondInformation K))
  | oobRequest
  | gatt (event : G)

/-- The same event on the peripheral's link. -/
def ConnectionEvent.toGatt {K G : Type} : ConnectionEvent K → GattConnectionEvent K G
  | disconnected reason => .disconnected reason
  | requestConnectionParams req => .requestConnectionParams req
  | connectionParamsUpdated interval latency timeout =>
      .connectionParamsUpdated interval latency timeout
  | phyUpdated txPhy rxPhy => .phyUpdated txPhy rxPhy
  | dataLengthUpdated tx rx => .dataLengthUpdated tx rx
  | frameSpaceUpdated frameSpace => .frameSpaceUpdated frameSpace
  | connectionRateChanged interval factor latency continuation timeout =>
      .connectionRateChanged interval factor latency continuation timeout
  | passKeyDisplay key => .passKeyDisplay key
  | passKeyConfirm key => .passKeyConfirm key
  | passKeyInput => .passKeyInput
  | pairingComplete level bond => .pairingComplete level bond
  | pairingFailed => .pairingFailed
  | bondLost => .bondLost
  | encrypted level bond => .encrypted level bond
  | oobRequest => .oobRequest

/-! ## What the loops do -/

/-- Out-of-band data for a pairing. -/
structure OobData where
  random : Bytes 16
  confirm : Bytes 16
deriving DecidableEq

/-- The callbacks made, and the calls on the connection. -/
inductive LinkOutput where
  | onConnParams (intervalMs latency timeoutMs : UInt16)
  | onPhyUpdate (tx rx : UInt8)
  | onDataLengthUpdate (maxTxOctets maxRxOctets : UInt16)
  | onFrameSpace (frameSpaceUs : UInt32)
  | onConnectionRate (intervalMs subrateFactor latency continuation timeoutMs : UInt16)
  | onSecurityEvent (event level : UInt8) (passkey : UInt32) (flags : UInt8)
  | onBondStore (slot : Nat) (blob : List UInt8)
  | onOobRequest
  | onLog (line : String)
  | acceptParams (req : RequestedConnParams)
  | provideOobData (own peer : OobData)
deriving DecidableEq

/-- The bonds, and what has been done so far, the newest first. -/
structure EventState (K : Type) where
  bonds : BondState K
  log : List LinkOutput

variable {K G : Type}

/-- Something is done. -/
def EventState.put (s : EventState K) (o : LinkOutput) : EventState K :=
  { s with log := o :: s.log }

/-- `if let Some(cb) = cfg.callbacks...`. -/
def EventState.call (s : EventState K) (isSet : Bool) (o : LinkOutput) : EventState K :=
  if isSet then s.put o else s

section Loops

variable [DecidableEq K] [HostKeys K] (cfg : RuntimeCfg)
  (app : List LinkOutput → Option (OobData × OobData))

/-- `d.as_millis().min(u16::MAX as u64) as u16`. -/
def millisU16 (d : Duration) : UInt16 := (min d.asMillis 0xffff).toUInt16

/-- `d.as_micros().min(u32::MAX as u64) as u32`. -/
def microsU32 (d : Duration) : UInt32 := (min d.asMicros 0xffffffff).toUInt32

/-- `emit_security_event`. -/
def emitSecurityEvent (s : EventState K) (event : UInt8) (level : SecurityLevel)
    (passkey : UInt32) (bonded : Bool) : EventState K :=
  s.call cfg.callbacks.onSecurityEvent
    (.onSecurityEvent event (securityLevelToC level) passkey (if bonded then 1 else 0))

/-- `store_bond` on the slot map, with its call of `on_bond_store`. -/
def storeBondCalled (s : EventState K) (bond : BondInformation K) : EventState K :=
  if !cfg.callbacks.onBondStore then s
  else if bondSlotCount cfg = 0 then s
  else
    { bonds := storeBond cfg s.bonds bond
      log := .onBondStore (placeBond cfg s.bonds.slots bond.identity).1 (serializeBond bond)
        :: s.log }

/-- A bond comes with the event, or none does. -/
def storeBondIfAny (s : EventState K) : Option (BondInformation K) → EventState K
  | some bond => storeBondCalled cfg s bond
  | none => s

/-- `bond.as_ref().is_some_and(|b| b.is_bonded)`. -/
def isBonded : Option (BondInformation K) → Bool
  | some bond => bond.isBonded
  | none => false

/-- `load_oob_data`: the application is asked, if it can be. -/
def loadOobData (s : EventState K) : EventState K × Option (OobData × OobData) :=
  let s := emitSecurityEvent cfg s 8 .noEncryption 0 false
  if cfg.callbacks.onOobRequest then (s.put .onOobRequest, app s.log) else (s, none)

/-- `{:02x}`. -/
def hexDigits (b : UInt8) : String :=
  String.ofList [Nat.digitChar (b.toNat / 16), Nat.digitChar (b.toNat % 16)]

/-- The line written with `reason=0x{:02x}`. -/
def disconnectedLine (reason : UInt8) : String :=
  "[link] disconnected reason=0x" ++ hexDigits reason

/-- The `match` of `central_connection_events`. -/
def centralConnectionEvent (s : EventState K) : ConnectionEvent K → Flow (EventState K)
  | .disconnected reason => .stop (s.call cfg.callbacks.onLog (.onLog (disconnectedLine reason)))
  | .requestConnectionParams req => .next (s.put (.acceptParams req))
  | .connectionParamsUpdated connInterval peripheralLatency supervisionTimeout =>
      .next (s.call cfg.callbacks.onConnParams
        (.onConnParams (millisU16 connInterval) peripheralLatency (millisU16 supervisionTimeout)))
  | .phyUpdated txPhy rxPhy =>
      .next (s.call cfg.callbacks.onPhyUpdate (.onPhyUpdate (phyToC txPhy) (phyToC rxPhy)))
  | .dataLengthUpdated maxTxOctets maxRxOctets =>
      .next (s.call cfg.callbacks.onDataLengthUpdate (.onDataLengthUpdate maxTxOctets maxRxOctets))
  | .frameSpaceUpdated frameSpace =>
      .next (s.call cfg.callbacks.onFrameSpace (.onFrameSpace (microsU32 frameSpace)))
  | .connectionRateChanged connInterval subrateFactor peripheralLatency continuationNumber
      supervisionTimeout =>
      .next (s.call cfg.callbacks.onConnectionRate
        (.onConnectionRate (millisU16 connInterval) subrateFactor peripheralLatency
          continuationNumber (millisU16 supervisionTimeout)))
  | .passKeyDisplay key => .next (emitSecurityEvent cfg s 1 .noEncryption key false)
  | .passKeyConfirm key => .next (emitSecurityEvent cfg s 2 .noEncryption key false)
  | .passKeyInput => .next (emitSecurityEvent cfg s 3 .noEncryption 0 false)
  | .pairingComplete level bond =>
      .next (emitSecurityEvent cfg (storeBondIfAny cfg s bond) 4 level 0 (isBonded bond))
  | .pairingFailed => .next (emitSecurityEvent cfg s 5 .noEncryption 0 false)
  | .bondLost => .next (emitSecurityEvent cfg s 6 .noEncryption 0 false)
  | .encrypted level bond =>
      .next (emitSecurityEvent cfg (storeBondIfAny cfg s bond) 7 level 0 (isBonded bond))
  | .oobRequest =>
      match loadOobData cfg app s with
      | (s, some (own, peer)) => .next (s.put (.provideOobData own peer))
      | (s, none) =>
          .next (s.call cfg.callbacks.onLog (.onLog "[security] OOB data requested"))

/-- The `match` of the event loop of `connection_task`; `gattEvent` is its
last branch. -/
def connectionTaskEvent (gattEvent : EventState K → G → EventState K) (s : EventState K) :
    GattConnectionEvent K G → Flow (EventState K)
  | .disconnected reason => .stop (s.call cfg.callbacks.onLog (.onLog (disconnectedLine reason)))
  | .requestConnectionParams req => .next (s.put (.acceptParams req))
  | .connectionParamsUpdated connInterval peripheralLatency supervisionTimeout =>
      .next (s.call cfg.callbacks.onConnParams
        (.onConnParams (millisU16 connInterval) peripheralLatency (millisU16 supervisionTimeout)))
  | .phyUpdated txPhy rxPhy =>
      .next (s.call cfg.callbacks.onPhyUpdate (.onPhyUpdate (phyToC txPhy) (phyToC rxPhy)))
  | .dataLengthUpdated maxTxOctets maxRxOctets =>
      .next (s.call cfg.callbacks.onDataLengthUpdate (.onDataLengthUpdate maxTxOctets maxRxOctets))
  | .frameSpaceUpdated frameSpace =>
      .next (s.call cfg.callbacks.onFrameSpace (.onFrameSpace (microsU32 frameSpace)))
  | .connectionRateChanged connInterval subrateFactor peripheralLatency continuationNumber
      supervisionTimeout =>
      .next (s.call cfg.callbacks.onConnectionRate
        (.onConnectionRate (millisU16 connInterval) subrateFactor peripheralLatency
          continuationNumber (millisU16 supervisionTimeout)))
  | .passKeyDisplay key => .next (emitSecurityEvent cfg s 1 .noEncryption key false)
  | .passKeyConfirm key => .next (emitSecurityEvent cfg s 2 .noEncryption key false)
  | .passKeyInput => .next (emitSecurityEvent cfg s 3 .noEncryption 0 false)
  | .pairingComplete level bond =>
      .next (emitSecurityEvent cfg (storeBondIfAny cfg s bond) 4 level 0 (isBonded bond))
  | .pairingFailed => .next (emitSecurityEvent cfg s 5 .noEncryption 0 false)
  | .bondLost => .next (emitSecurityEvent cfg s 6 .noEncryption 0 false)
  | .encrypted level bond =>
      .next (emitSecurityEvent cfg (storeBondIfAny cfg s bond) 7 level 0 (isBonded bond))
  | .oobRequest =>
      match loadOobData cfg app s with
      | (s, some (own, peer)) => .next (s.put (.provideOobData own peer))
      | (s, none) =>
          .next (s.call cfg.callbacks.onLog (.onLog "[security] OOB data requested"))
  | .gatt event => .next (gattEvent s event)

/-- The loop of `central_connection_events`. -/
def centralConnectionEvents (s : EventState K) (es : List (ConnectionEvent K)) : EventState K :=
  eventLoop (centralConnectionEvent cfg app) s es

/-- The loop of `connection_task`. -/
def connectionTaskEvents (gattEvent : EventState K → G → EventState K) (s : EventState K)
    (es : List (GattConnectionEvent K G)) : EventState K :=
  eventLoop (connectionTaskEvent cfg app gattEvent) s es

end Loops

/-! ## Durations -/

theorem toNat_min (x y : UInt64) : (min x y).toNat = min x.toNat y.toNat := by
  show (if x ≤ y then x else y).toNat = _
  split
  · rename_i hle
    exact (Nat.min_eq_left (UInt64.le_iff_toNat_le.mp hle)).symm
  · rename_i hnot
    exact (Nat.min_eq_right (Nat.le_of_not_le (mt UInt64.le_iff_toNat_le.mpr hnot))).symm

theorem millisU16_toNat (d : Duration) : (millisU16 d).toNat = min d.asMillis.toNat 0xffff := by
  have hmin : (min d.asMillis 0xffff).toNat = min d.asMillis.toNat 0xffff := toNat_min _ _
  rw [millisU16, UInt64.toNat_toUInt16, hmin]
  omega

theorem microsU32_toNat (d : Duration) :
    (microsU32 d).toNat = min d.asMicros.toNat 0xffffffff := by
  have hmin : (min d.asMicros 0xffffffff).toNat = min d.asMicros.toNat 0xffffffff := toNat_min _ _
  rw [microsU32, UInt64.toNat_toUInt32, hmin]
  omega

/-- A callback with durations is made for `e`, and has those of `e` clamped
to its integers. -/
def Clamps (e : ConnectionEvent K) : LinkOutput → Prop
  | .onConnParams intervalMs latency timeoutMs =>
      ∃ interval timeout, e = .connectionParamsUpdated interval latency timeout
        ∧ intervalMs.toNat = min interval.asMillis.toNat 0xffff
        ∧ timeoutMs.toNat = min timeout.asMillis.toNat 0xffff
  | .onFrameSpace frameSpaceUs =>
      ∃ frameSpace, e = .frameSpaceUpdated frameSpace
        ∧ frameSpaceUs.toNat = min frameSpace.asMicros.toNat 0xffffffff
  | .onConnectionRate intervalMs factor latency continuation timeoutMs =>
      ∃ interval timeout,
        e = .connectionRateChanged interval factor latency continuation timeout
        ∧ intervalMs.toNat = min interval.asMillis.toNat 0xffff
        ∧ timeoutMs.toNat = min timeout.asMillis.toNat 0xffff
  | _ => True

section Outputs

variable {s : EventState K} {e : ConnectionEvent K} {o o' : LinkOutput}

theorem mem_call {isSet : Bool} (h : o ∈ (s.call isSet o').log) : o ∈ s.log ∨ o = o' := by
  unfold EventState.call at h
  split at h
  · rcases List.mem_cons.mp h with rfl | h
    · exact .inr rfl
    · exact .inl h
  · exact .inl h

/-- What is done for an event is called for by it. -/
theorem clamps_of_mem_call {isSet : Bool} (h : o ∈ (s.call isSet o').log) (ho : Clamps e o') :
    o ∈ s.log ∨ Clamps e o := by
  rcases mem_call h with h | rfl
  · exact .inl h
  · exact .inr ho

variable {cfg : RuntimeCfg} {app : List LinkOutput → Option (OobData × OobData)}

theorem clamps_of_mem_loadOobData (h : o ∈ (loadOobData cfg app s).1.log) :
    o ∈ s.log ∨ Clamps e o := by
  simp only [loadOobData] at h
  split at h
  · rcases List.mem_cons.mp h with rfl | h
    · exact .inr trivial
    · exact clamps_of_mem_call h trivial
  · exact clamps_of_mem_call h trivial

variable [DecidableEq K] [HostKeys K]

theorem clamps_of_mem_storeBondIfAny {bond : Option (BondInformation K)}
    (h : o ∈ (storeBondIfAny cfg s bond).log) : o ∈ s.log ∨ Clamps e o := by
  cases bond with
  | none => exact .inl h
  | some bond =>
      simp only [storeBondIfAny, storeBondCalled] at h
      split at h
      · exact .inl h
      · split at h
        · exact .inl h
        · rcases List.mem_cons.mp h with rfl | h
          · exact .inr trivial
          · exact .inl h

theorem clamps_of_mem_event (h : o ∈ (centralConnectionEvent cfg app s e).state.log) :
    o ∈ s.log ∨ Clamps e o := by
  cases e with
  | disconnected reason => exact clamps_of_mem_call h trivial
  | requestConnectionParams req =>
      rcases List.mem_cons.mp h with rfl | h
      · exact .inr trivial
      · exact .inl h
  | connectionParamsUpdated interval latency timeout =>
      exact clamps_of_mem_call h
        ⟨interval, timeout, rfl, millisU16_toNat _, millisU16_toNat _⟩
  | phyUpdated txPhy rxPhy => exact clamps_of_mem_call h trivial
  | dataLengthUpdated tx rx => exact clamps_of_mem_call h trivial
  | frameSpaceUpdated frameSpace =>
      exact clamps_of_mem_call h ⟨frameSpace, rfl, microsU32_toNat _⟩
  | connectionRateChanged interval factor latency continuation timeout =>
      exact clamps_of_mem_call h
        ⟨interval, timeout, rfl, millisU16_toNat _, millisU16_toNat _⟩
  | passKeyDisplay key => exact clamps_of_mem_call h trivial
  | passKeyConfirm key => exact clamps_of_mem_call h trivial
  | passKeyInput => exact clamps_of_mem_call h trivial
  | pairingComplete level bond =>
      rcases mem_call h with h | rfl
      · exact clamps_of_mem_storeBondIfAny h
      · exact .inr trivial
  | pairingFailed => exact clamps_of_mem_call h trivial
  | bondLost => exact clamps_of_mem_call h trivial
  | encrypted level bond =>
      rcases mem_call h with h | rfl
      · exact clamps_of_mem_storeBondIfAny h
      · exact .inr trivial
  | oobRequest =>
      simp only [centralConnectionEvent] at h
      split at h
      · rename_i s' own peer hload
        rcases List.mem_cons.mp h with rfl | h
        · exact .inr trivial
        · exact clamps_of_mem_loadOobData (by rw [hload]; exact h)
      · rename_i s' hload
        rcases mem_call h with h | rfl
        · exact clamps_of_mem_loadOobData (by rw [hload]; exact h)
        · exact .inr trivial

theorem connectionTaskEvent_toGatt (gattEvent : EventState K → G → EventState K) :
    connectionTaskEvent cfg app gattEvent s e.toGatt = centralConnectionEvent cfg app s e := by
  cases e <;> rfl

end Outputs

/-- **The event loops agree**: for the same events from the same bonds they
make the same callbacks and the same calls on the connection, in the same
order, and leave the same slot map and blobs; and the durations of an event
are clamped to the integers of its callback. -/
theorem event_loops_agree [DecidableEq K] [HostKeys K] (cfg : RuntimeCfg)
    (app : List LinkOutput → Option (OobData × OobData))
    (gattEvent : EventState K → G → EventState K) (s : EventState K)
    (es : List (ConnectionEvent K)) :
    connectionTaskEvents cfg app gattEvent s (es.map ConnectionEvent.toGatt)
      = centralConnectionEvents cfg app s es
    ∧ ∀ o ∈ (centralConnectionEvents cfg app s es).log, o ∈ s.log ∨ ∃ e ∈ es, Clamps e o := by
  constructor
  · exact eventLoop_map (fun s e => connectionTaskEvent_toGatt gattEvent) es s
  · refine eventLoop_keeps
      (P := fun t : EventState K => ∀ o ∈ t.log, o ∈ s.log ∨ ∃ e ∈ es, Clamps e o) ?_ ?_
    · intro t e he ht o ho
      rcases clamps_of_mem_event ho with hold | hnew
      · exact ht o hold
      · exact .inr ⟨e, he, hnew⟩
    · intro o ho
      exact .inl ho

end RuntimeBle.Link
