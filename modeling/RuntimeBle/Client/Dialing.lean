import RuntimeBle.Client.Answers

/-!
# Client — Dialing

`central_loop`: whom it connects to and with what it scans, over any run of
calls of the application, polls of the loop and answers of the host.

Calls fall between polls here: none comes between the `swap` of a command and
the reads behind it, nor into another call. What comes of one that does is
for the machine of `Client.Answers`, and `Request.Preemption`.

A connect takes its peer out of `CENTRAL_ADDR`, which each call of
`runtime_ble_connect_addr` writes before it looks whether the slot is free; a
scan its parameters out of words that `runtime_ble_scan_start_ex` writes in
the same way. `dialsOf` and `scansOf` say from the log of a run what comes of
it.
-/

namespace RuntimeBle.Client

open RuntimeBle.Lib RuntimeBle.Request

/-! ## `central_loop` -/

/-- At its head, in `wait_idle_cmd`, in `run_scan`, in `connect`, in
`run_central_conn`, in the second after a failure. -/
inductive DialPc where
  | head
  | idle
  | scanning
  | connecting
  | linked
  | pausing
  | returned
deriving DecidableEq

/-- `dialled`: `central.connect`, for a command taken at the place or for the
configured peer; `scanned`: `scanner.scan`. -/
inductive DialEvent where
  | called (a : ApiCall) (status : Int)
  | took (place : Place) (cmd : Nat)
  | dialled (place : Option Place) (peer : PeerAddress)
  | scanned (config : ScanConfig)

/-- `central_loop` between its accesses to the slot: a poll is one step, the
`swap` with all its reads. `auto` is its `auto_peer`, to be dialled first. -/
structure Dialer where
  mem : ReqMem
  pc : DialPc := .head
  auto : Bool
  unloadReq : Bool := false
  log : List DialEvent := []

/-- `poll`: a poll of the loop where it takes commands. `scanOver`: the scan
has failed, or timed out. -/
inductive DialLabel where
  | call (a : ApiCall)
  | unload
  | look
  | poll
  | scanOver
  | connected (ok : Bool)
  | linkOver
  | wake

namespace Dialer

/-- `CENTRAL_CMD.swap(CCMD_NONE)`. -/
def swap (s : Dialer) (place : Place) : Dialer where
  mem := { s.mem with slot := Function.update s.mem.slot .centralCmd 0 }
  pc := s.pc
  auto := s.auto
  unloadReq := s.unloadReq
  log :=
    if s.mem.slot .centralCmd = 0 then s.log
    else .took place (s.mem.slot .centralCmd) :: s.log

/-- The loop goes on to `connect`. -/
def dial (s : Dialer) (place : Option Place) (peer : PeerAddress) : Dialer :=
  { s with pc := .connecting, log := .dialled place peer :: s.log }

/-- A poll of `wait_idle_cmd`, behind its look at `UNLOAD_REQ`; the reads of
`run_scan` for its configuration are in it. -/
def waitIdle (s : Dialer) : Dialer :=
  let t := s.swap .idle
  match (waitIdleCmd (s.mem.slot .centralCmd)).eval s.mem.params with
  | .connect peer => t.dial (some .idle) peer
  | .scan config => { t with pc := .scanning, log := .scanned config :: t.log }
  | .ignored => t

/-- A poll of `run_scan`, behind its looks at `UNLOAD_REQ` and the clock. -/
def runScan (s : Dialer) : Dialer :=
  let t := s.swap .scanning
  match (Request.runScan (s.mem.slot .centralCmd)).eval s.mem.params with
  | .stop => { t with pc := .head }
  | .connect peer => t.dial (some .scanning) peer
  | .ignored => t

end Dialer

section Step

variable (b : Build) (configured : Option PeerAddress)

/-- The polls of `wait_idle_cmd`, of `run_scan` and of the command pump. -/
def pollCommands (s : Dialer) : Option Dialer :=
  match s.pc with
  | .idle => some (if s.unloadReq then { s with pc := .returned } else s.waitIdle)
  | .scanning => some (if s.unloadReq then { s with pc := .head } else s.runScan)
  | .linked => some (s.swap .client)
  | _ => none

/-- `look` is the head of the loop, and `connected` what `connect` comes to. -/
def dialStep (s : Dialer) : DialLabel → Option Dialer
  | .call a =>
      let out := invoke b s.mem a
      some { s with mem := out.2, log := .called a out.1 :: s.log }
  | .unload => some { s with unloadReq := true }
  | .look =>
      if s.pc = .head then
        if s.unloadReq then some { s with pc := .returned }
        else
          match configured with
          | some peer =>
              if s.auto then some ({ s with auto := false }.dial none peer)
              else some { s with pc := .idle }
          | none => some { s with pc := .idle }
      else none
  | .poll => pollCommands s
  | .scanOver => if s.pc = .scanning then some { s with pc := .head } else none
  | .connected ok =>
      if s.pc = .connecting then some { s with pc := if ok then .linked else .pausing } else none
  | .linkOver => if s.pc = .linked then some { s with pc := .head } else none
  | .wake => if s.pc = .pausing then some { s with pc := .head } else none

/-- It starts with a free slot, whatever the parameters are. -/
def dialer : Machine Dialer DialLabel where
  init s :=
    s.mem.slot .centralCmd = 0 ∧ s.pc = .head ∧ s.auto = configured.isSome ∧ s.log = []
  step := dialStep b configured

end Step

/-! ## What comes of the calls -/

/-- The scan that a call asks for. -/
def scan? : ApiCall → Option ScanConfig
  | .scanStart active intervalMs windowMs timeoutMs =>
      some (scanAsks active intervalMs windowMs timeoutMs 0 none 0)
  | .scanStartEx active intervalMs windowMs timeoutMs options addr kind =>
      some (scanAsks active intervalMs windowMs timeoutMs options addr kind)
  | _ => none

/-- What the last call asks for that asks for such a thing, refused or not. -/
def lastAsked {X : Type} (asks : ApiCall → Option X) (log : List DialEvent) : Option X :=
  log.findSome? fun e =>
    match e with
    | .called a _ => asks a
    | _ => none

/-- The call whose command is in the slot: accepted, and not yet taken. -/
def pendingCall : List DialEvent → Option ApiCall
  | [] => none
  | .took _ _ :: _ => none
  | .called a status :: log =>
      if status = runtimeBleOk ∧ a.slot = .centralCmd then some a else pendingCall log
  | _ :: log => pendingCall log

section Asked

variable {X : Type} (asks : ApiCall → Option X) (places : Place → Bool)

/-- Of each command that is taken in one of the places: what the last call
asks for, if its own asks for such a thing at all. -/
def carriedOf : List DialEvent → List X
  | [] => []
  | .took place _ :: log =>
      let asked := if places place then (pendingCall log).bind asks else none
      (asked.bind fun _ => lastAsked asks log).toList ++ carriedOf log
  | _ :: log => carriedOf log

/-- The same, as each call has asked for it. -/
def askedOf : List DialEvent → List X
  | [] => []
  | .took place _ :: log =>
      (if places place then (pendingCall log).bind asks else none).toList ++ askedOf log
  | _ :: log => askedOf log

/-- No call has come between that asks for another. -/
def Overtaken (e : DialEvent) (log : List DialEvent) : Prop :=
  ∃ place cmd x, e = .took place cmd ∧ places place = true ∧ (pendingCall log).bind asks = some x
    ∧ lastAsked asks log ≠ some x

end Asked

/-- A connect is taken while idle and while scanning. -/
def dialsOf : List DialEvent → List PeerAddress :=
  carriedOf ApiCall.peer? fun place => place != .client

/-- The same, as the connects themselves have asked for it. -/
def ownDialsOf : List DialEvent → List PeerAddress :=
  askedOf ApiCall.peer? fun place => place != .client

/-- A scan is begun while idle. -/
def scansOf : List DialEvent → List ScanConfig := carriedOf scan? fun place => place == .idle

/-- The same, as the scans themselves have asked for it. -/
def ownScansOf : List DialEvent → List ScanConfig := askedOf scan? fun place => place == .idle

/-- The peer of a `central.connect`. -/
def DialEvent.peer : DialEvent → Option PeerAddress
  | dialled _ peer => some peer
  | _ => none

/-- The configuration of a `scanner.scan`. -/
def DialEvent.config : DialEvent → Option ScanConfig
  | scanned config => some config
  | _ => none

/-- All that the loop has connected to, the newest first. -/
def dials (log : List DialEvent) : List PeerAddress := log.filterMap DialEvent.peer

/-- All that it has scanned with, the newest first. -/
def scans (log : List DialEvent) : List ScanConfig := log.filterMap DialEvent.config

/-! ## Where calls write -/

/-- What a connect reads. -/
def peerPlaces : List (Word ⊕ Buf) := [.inr .centralAddr, .inl .centralAddrKind]

/-- What a scan reads. -/
def scanPlaces : List (Word ⊕ Buf) :=
  [.inl .scanActive, .inl .scanIntervalMs, .inl .scanWindowMs, .inl .scanTimeoutMs,
    .inl .scanFilterDuplicates, .inl .scanPhyOptions, .inl .scanFilterAddrEnabled,
    .inr .scanFilterAddr, .inl .scanFilterAddrKind]

section Places

variable {b : Build} {a : ApiCall} {c : ReqCall}

theorem within_readConnect : readConnect.Within peerPlaces := by
  simp [readConnect, Fetch.Within, peerPlaces]

theorem within_runScanConfig : runScanConfig.Within scanPlaces := by
  have hrest : ∀ intervalMs windowMs timeoutMs filter,
      (Fetch.load .scanActive fun active =>
        .load .scanPhyOptions fun options =>
        .load .scanFilterDuplicates fun duplicates =>
        .done (ScanConfig.ofWords active intervalMs windowMs timeoutMs duplicates options filter)
          : ReqFetch ScanConfig).Within scanPlaces := by
    intro intervalMs windowMs timeoutMs filter
    simp [Fetch.Within, scanPlaces]
  simp only [runScanConfig, Fetch.Within]
  refine ⟨by simp [scanPlaces], fun _ => ⟨by simp [scanPlaces], fun _ => ⟨by simp [scanPlaces],
    fun _ => ⟨by simp [scanPlaces], fun enabled => ?_⟩⟩⟩⟩
  split
  · exact ⟨by simp [scanPlaces], fun _ => ⟨by simp [scanPlaces], fun _ => hrest ..⟩⟩
  · exact hrest ..

/-- Only a call that asks for a peer writes one, and only one that asks for a
scan writes its parameters. -/
theorem targets_of_entry (h : a.entry b = .ok c) : ∀ x ∈ c.early ++ c.late,
    (a.peer? = none → x.target ∉ peerPlaces) ∧ (scan? a = none → x.target ∉ scanPlaces) := by
  cases a with
  | connect addr | connectAddr addr kind =>
      obtain ⟨addr', rfl, rfl⟩ := connectAddr_ok h
      -- a connect writes the peer's places, and none of the scan's
      simp [peerPlaces, scanPlaces, Put.target, ApiCall.peer?]
  | scanStart active intervalMs windowMs timeoutMs =>
      obtain ⟨-, rfl⟩ := centralCmd_ok h
      simp [peerPlaces, Put.target, scan?]
  | scanStartEx active intervalMs windowMs timeoutMs options addr kind =>
      obtain ⟨-, rfl⟩ := centralCmd_ok h
      cases addr <;> simp [peerPlaces, Put.target, scan?]
  | send data | notify chr data | indicate chr data =>
      obtain ⟨d, -, -, -, rfl⟩ := queueTx_ok h
      simp [peerPlaces, scanPlaces, Put.target]
  | setPhy phy =>
      obtain ⟨-, rfl⟩ := setPhy_ok h
      simp [peerPlaces, scanPlaces, Put.target]
  | passkeyInput passkey =>
      rw [passkeyInput_ok h]
      simp [peerPlaces, scanPlaces, Put.target]
  | updateDataLength | updateConnParams | updateFrameSpace | requestConnectionRate | readRssi
  | readAttMtu | readPhy | readSecurity | requestSecurity | passkeyConfirm =>
      rw [linkCmd_ok h]
      simp [peerPlaces, scanPlaces, Put.target]
  | setIoCapability capability =>
      rw [setIoCapability_ok h]
      simp [bondAdminStores, peerPlaces, scanPlaces, Put.target]
  | bondEnumerate | bondDelete | bondDeleteAll =>
      rw [ApiCall.entry] at h
      rw [bondAdminCmd_ok h]
      simp [bondAdminStores, peerPlaces, scanPlaces, Put.target]
  | scanStop | disconnect | clientDiscoverServices | clientDiscoverAll | clientRead
  | clientReadBlob | clientReadDescriptor | clientReadDescriptorBlob | clientSubscribe
  | clientSubscribeIndicate | clientUnsubscribe =>
      obtain ⟨-, rfl⟩ := centralCmd_ok h
      simp [peerPlaces, scanPlaces, Put.target]
  | clientDiscover uuid =>
      obtain ⟨u, -, -, rfl⟩ := discover_ok h
      simp [peerPlaces, scanPlaces, Put.target]
  | clientReadByUuid first last uuid =>
      obtain ⟨u, -, -, rfl⟩ := readByUuid_ok h
      simp [peerPlaces, scanPlaces, Put.target]
  | clientDiscoverDescriptors first last =>
      rw [discoverDescriptors_ok h]
      simp [peerPlaces, scanPlaces, Put.target]
  | clientWrite handle data | clientWriteNoRsp handle data | clientWriteDescriptor handle data =>
      obtain ⟨d, -, -, -, -, rfl⟩ := centralWrite_ok h
      simp [peerPlaces, scanPlaces, Put.target]
  | l2capSend data =>
      obtain ⟨d, -, -, -, rfl⟩ := l2capSend_ok h
      simp [peerPlaces, scanPlaces, Put.target]

/-- With the central role in the build no call that asks is turned down for
its arguments. -/
theorem asks_of_error (hb : b.central = true) {err : Int} (h : a.entry b = .error err) :
    a.peer? = none ∧ scan? a = none := by
  cases a with
  | connect addr | connectAddr addr kind =>
      cases addr with
      | none => exact ⟨rfl, rfl⟩
      | some addr =>
          simp [ApiCall.entry, runtimeBleConnect, runtimeBleConnectAddr, centralCmd, hb] at h
  | scanStart active intervalMs windowMs timeoutMs =>
      simp [ApiCall.entry, runtimeBleScanStart, runtimeBleScanStartEx, centralCmd, hb] at h
  | scanStartEx active intervalMs windowMs timeoutMs options addr kind =>
      simp [ApiCall.entry, runtimeBleScanStartEx, centralCmd, hb] at h
  | _ => exact ⟨rfl, rfl⟩

/-- What a call leaves for `CCMD_CONNECT`, refused or accepted. -/
theorem eval_readConnect_puts (h : a.entry b = .ok c) {xs : List (Put Word Buf)}
    (hxs : xs = c.early ∨ xs = c.early ++ c.late) (p : ReqParams) :
    readConnect.eval (p.puts xs) = a.peer?.getD (readConnect.eval p) := by
  cases hpeer : a.peer? with
  | none =>
      apply within_readConnect.eval_puts
      intro x hx
      have hmem : x ∈ c.early ++ c.late := by
        rcases hxs with rfl | rfl
        · exact List.mem_append_left _ hx
        · exact hx
      exact (targets_of_entry h x hmem).1 hpeer
  | some peer =>
      cases a with
      | connect addr | connectAddr addr kind =>
          obtain ⟨addr', rfl, rfl⟩ := connectAddr_ok h
          cases hpeer
          rcases hxs with rfl | rfl <;>
            simp [readConnect, Fetch.eval, Params.put, List.take_of_length_le]
      | _ => cases hpeer

/-- What a call leaves for `CCMD_SCAN_START`, refused or accepted. -/
theorem eval_runScanConfig_puts (h : a.entry b = .ok c) {xs : List (Put Word Buf)}
    (hxs : xs = c.early ∨ xs = c.early ++ c.late) (p : ReqParams) :
    runScanConfig.eval (p.puts xs) = (scan? a).getD (runScanConfig.eval p) := by
  cases hscan : scan? a with
  | none =>
      apply within_runScanConfig.eval_puts
      intro x hx
      have hmem : x ∈ c.early ++ c.late := by
        rcases hxs with rfl | rfl
        · exact List.mem_append_left _ hx
        · exact hx
      exact (targets_of_entry h x hmem).2 hscan
  | some config =>
      -- all is written before the busy test
      have hlate : runScanConfig.eval (p.puts xs)
          = runScanConfig.eval (p.puts (c.early ++ c.late)) := by
        rcases hxs with rfl | rfl
        · have hnot : ∀ x ∈ c.late, x.target ∉ scanPlaces := by
            cases a with
            | scanStart | scanStartEx =>
                rw [(centralCmd_ok h).2]
                simp [scanPlaces, Put.target]
            | _ => cases hscan
          rw [Params.puts_append, within_runScanConfig.eval_puts hnot]
        · rfl
      rw [hlate]
      cases a with
      | scanStart active intervalMs windowMs timeoutMs =>
          cases hscan
          exact eval_runScanConfig h
      | scanStartEx active intervalMs windowMs timeoutMs options addr kind =>
          cases hscan
          exact eval_runScanConfig h
      | _ => cases hscan

/-- The commands are those of the calls that ask. -/
theorem cmd_of_entry (h : a.entry b = .ok c) (hslot : a.slot = .centralCmd) :
    (c.cmd = ccmdConnect ↔ a.peer?.isSome = true)
      ∧ (c.cmd = ccmdScanStart ↔ (scan? a).isSome = true) := by
  cases a with
  | connect addr | connectAddr addr kind =>
      obtain ⟨addr', rfl, rfl⟩ := connectAddr_ok h
      simp only [ApiCall.peer?, scan?, Option.map_some, Option.isSome]
      decide
  | scanStart | scanStartEx | scanStop | disconnect | clientDiscoverServices | clientDiscoverAll
  | clientRead | clientReadBlob | clientReadDescriptor | clientReadDescriptorBlob
  | clientSubscribe | clientSubscribeIndicate | clientUnsubscribe =>
      rw [(centralCmd_ok h).2]
      simp only [ApiCall.peer?, scan?, Option.isSome]
      decide
  | clientDiscover uuid =>
      obtain ⟨u, -, -, rfl⟩ := discover_ok h
      simp only [ApiCall.peer?, scan?, Option.isSome]
      decide
  | clientReadByUuid first last uuid =>
      obtain ⟨u, -, -, rfl⟩ := readByUuid_ok h
      simp only [ApiCall.peer?, scan?, Option.isSome]
      decide
  | clientDiscoverDescriptors first last =>
      rw [discoverDescriptors_ok h]
      simp only [ApiCall.peer?, scan?, Option.isSome]
      decide
  | clientWrite handle data | clientWriteNoRsp handle data | clientWriteDescriptor handle data =>
      obtain ⟨d, -, -, -, -, rfl⟩ := centralWrite_ok h
      simp only [ApiCall.peer?, scan?, Option.isSome]
      decide
  | _ => cases hslot

theorem waitIdleCmd_eval {cmd : Nat} {p : ReqParams} :
    (waitIdleCmd cmd).eval p =
      if cmd = ccmdConnect then .connect (readConnect.eval p)
      else if cmd = ccmdScanStart then .scan (runScanConfig.eval p)
      else .ignored := by
  unfold waitIdleCmd
  split
  · exact Fetch.eval_map _
  · exact Fetch.eval_map _
  · rename_i hconnect hscan
    rw [if_neg hconnect, if_neg hscan]
    rfl

theorem runScan_eval {cmd : Nat} {p : ReqParams} :
    (runScan cmd).eval p =
      if cmd = ccmdScanStop then .stop
      else if cmd = ccmdConnect then .connect (readConnect.eval p)
      else .ignored := by
  unfold runScan
  split
  · rfl
  · exact Fetch.eval_map _
  · rename_i hstop hconnect
    rw [if_neg hstop, if_neg hconnect]
    rfl

end Places

/-! ## Logs -/

section Logs

variable {X : Type} {asks : ApiCall → Option X} {places : Place → Bool} {log : List DialEvent}

@[simp] theorem lastAsked_called {a : ApiCall} {status : Int} :
    lastAsked asks (.called a status :: log) = (asks a).or (lastAsked asks log) := by
  simp only [lastAsked, List.findSome?_cons]
  cases asks a <;> rfl

/-- What a pending call asks for is no older than the last that was asked for. -/
theorem lastAsked_of_pending {a : ApiCall} {x : X} (h : pendingCall log = some a)
    (hx : asks a = some x) : ∃ y, lastAsked asks log = some y := by
  induction log with
  | nil => cases h
  | cons e log ih =>
      cases e with
      | took place cmd => cases h
      | called a' status =>
          rw [lastAsked_called]
          cases hasks : asks a' with
          | some y => exact ⟨y, rfl⟩
          | none =>
              rw [pendingCall] at h
              split at h
              · -- the pending one is this call
                cases h
                rw [hasks] at hx
                cases hx
              · exact ih h
      | dialled place peer => exact ih h
      | scanned config => exact ih h

/-- Nobody is dialled, and nothing is scanned, that was not asked for by the
call itself, exactly when no call is overtaken. -/
theorem carriedOf_eq_askedOf_iff :
    carriedOf asks places log = askedOf asks places log
      ↔ EachEvent (fun e log => ¬ Overtaken asks places e log) log := by
  induction log with
  | nil => exact ⟨fun _ => trivial, fun _ => rfl⟩
  | cons e log ih =>
      have hquiet (he : ∀ place cmd, e ≠ .took place cmd) : ¬ Overtaken asks places e log := by
        rintro ⟨place, cmd, _, rfl, _⟩
        exact he place cmd rfl
      cases e with
      | called a status =>
          exact ih.trans (and_iff_right (hquiet nofun)).symm
      | dialled place peer => exact ih.trans (and_iff_right (hquiet nofun)).symm
      | scanned config => exact ih.trans (and_iff_right (hquiet nofun)).symm
      | took place cmd =>
          simp only [carriedOf, askedOf, EachEvent, ← ih]
          cases hplace : places place with
          | false => simp [Overtaken, hplace]
          | true =>
              cases hasked : (pendingCall log).bind asks with
              | none => simp [Overtaken, hasked]
              | some x =>
                  obtain ⟨a, hpending, hx⟩ := Option.bind_eq_some_iff.mp hasked
                  obtain ⟨y, hy⟩ := lastAsked_of_pending hpending hx
                  simp [Overtaken, hplace, hasked, hy]

end Logs

/-! ## Calls in the log -/

section Calls

variable {b : Build} {configured : Option PeerAddress}

theorem called_of_lastAsked {log : List DialEvent} {peer : PeerAddress}
    (h : lastAsked ApiCall.peer? log = some peer) :
    ∃ a status, .called a status ∈ log ∧ a.peer? = some peer := by
  obtain ⟨e, he, hasks⟩ := List.exists_of_findSome?_eq_some h
  cases e with
  | called a status => exact ⟨a, status, he, hasks⟩
  | took place cmd => cases hasks
  | dialled place peer => cases hasks
  | scanned config => cases hasks

/-- Whoever is dialled for a command has been asked for. -/
theorem called_of_mem_dialsOf {log : List DialEvent} {peer : PeerAddress}
    (h : peer ∈ dialsOf log) : ∃ a status, .called a status ∈ log ∧ a.peer? = some peer := by
  unfold dialsOf at h
  induction log with
  | nil => cases h
  | cons e log ih =>
      have hlater : (∃ a status, .called a status ∈ log ∧ a.peer? = some peer) →
          ∃ a status, .called a status ∈ e :: log ∧ a.peer? = some peer := by
        rintro ⟨a, status, hmem, hpeer⟩
        exact ⟨a, status, List.mem_cons_of_mem _ hmem, hpeer⟩
      apply hlater
      cases e with
      | called a status => exact ih h
      | dialled place peer => exact ih h
      | scanned config => exact ih h
      | took place cmd =>
          rw [carriedOf, List.mem_append] at h
          rcases h with h | h
          · obtain ⟨x, -, hlast⟩ := Option.bind_eq_some_iff.mp (Option.mem_toList.mp h)
            exact called_of_lastAsked hlast
          · exact ih h

theorem called_mem_swap {d : Dialer} {place : Place} {a : ApiCall} {status : Int}
    (h : .called a status ∈ (d.swap place).log) : .called a status ∈ d.log := by
  simp only [Dialer.swap] at h
  split_ifs at h
  · exact h
  · rcases List.mem_cons.mp h with heq | h
    · cases heq
    · exact h

/-- Only a call is logged as one. -/
theorem called_of_step {d d' : Dialer} {i : DialLabel} (hs : dialStep b configured d i = some d')
    {a : ApiCall} {status : Int} (h : .called a status ∈ d'.log) :
    .called a status ∈ d.log ∨ i = .call a := by
  cases i with
  | call a' =>
      cases hs
      rcases List.mem_cons.mp h with heq | h
      · -- only a call is logged as one
        cases heq
        exact .inr rfl
      · exact .inl h
  | unload =>
      cases hs
      exact .inl h
  | look =>
      simp only [dialStep] at hs
      split_ifs at hs
      · cases hs
        exact .inl h
      · cases configured with
        | none =>
            cases hs
            exact .inl h
        | some peer =>
            cases hs
            rcases List.mem_cons.mp h with heq | h
            · cases heq
            · exact .inl h
      · cases configured <;> cases hs <;> exact .inl h
  | poll =>
      simp only [dialStep, pollCommands] at hs
      split at hs
      · split_ifs at hs
        · cases hs
          exact .inl h
        · cases hs
          unfold Dialer.waitIdle at h
          simp only at h
          split at h
          · rcases List.mem_cons.mp h with heq | h
            · cases heq
            · exact .inl (called_mem_swap h)
          · rcases List.mem_cons.mp h with heq | h
            · cases heq
            · exact .inl (called_mem_swap h)
          · exact .inl (called_mem_swap h)
      · split_ifs at hs
        · cases hs
          exact .inl h
        · cases hs
          unfold Dialer.runScan at h
          simp only at h
          split at h
          · exact .inl (called_mem_swap h)
          · rcases List.mem_cons.mp h with heq | h
            · cases heq
            · exact .inl (called_mem_swap h)
          · exact .inl (called_mem_swap h)
      · cases hs
        exact .inl (called_mem_swap h)
      · cases hs
  | scanOver | linkOver | wake | connected =>
      simp only [dialStep] at hs
      split_ifs at hs
      all_goals
        cases hs
        exact .inl h

end Calls

/-! ## The invariant -/

section Invariant

variable {b : Build} {configured : Option PeerAddress} {s t : Dialer} {mem : ReqMem}
  {log : List DialEvent}

/-- What `CENTRAL_CMD` and its parameters have to do with the log. -/
structure Mailed (b : Build) (mem : ReqMem) (log : List DialEvent) : Prop where
  free : pendingCall log = none → mem.slot .centralCmd = 0
  pending : ∀ a, pendingCall log = some a →
    a.slot = .centralCmd ∧ ∃ c, a.entry b = .ok c ∧ mem.slot .centralCmd = c.cmd
  peer : ∀ x, lastAsked ApiCall.peer? log = some x → readConnect.eval mem.params = x
  config : ∀ x, lastAsked scan? log = some x → runScanConfig.eval mem.params = x

/-- The parameters behind a call. -/
theorem Mailed.asked {X : Type} {asks : ApiCall → Option X} {fetch : ReqFetch X} {a : ApiCall}
    {status : Int} (h : ∀ x, lastAsked asks log = some x → fetch.eval mem.params = x)
    {p : ReqParams} (heval : fetch.eval p = (asks a).getD (fetch.eval mem.params)) :
    ∀ x, lastAsked asks (.called a status :: log) = some x → fetch.eval p = x := by
  intro x hx
  rw [lastAsked_called] at hx
  rw [heval]
  cases hasks : asks a with
  | none =>
      rw [hasks] at hx
      exact h x hx
  | some y =>
      rw [hasks] at hx
      exact Option.some.inj hx

theorem Mailed.call (h : Mailed b mem log) (hb : b.central = true) (a : ApiCall) :
    Mailed b (invoke b mem a).2 (.called a (invoke b mem a).1 :: log) := by
  cases hentry : a.entry b with
  | error err =>
      obtain ⟨hpeer, hscan⟩ := asks_of_error hb hentry
      have hout : invoke b mem a = (err, mem) := by simp only [invoke, hentry]
      -- nothing is stored, and the log's answer is no acceptance
      have herr : err ≠ runtimeBleOk := by
        rw [error_of_entry hentry]
        decide
      rw [hout]
      have hpending : pendingCall (.called a err :: log) = pendingCall log :=
        if_neg fun hboth => herr hboth.1
      refine ⟨?_, ?_, ?_, ?_⟩
      · rw [hpending]
        exact h.free
      · rw [hpending]
        exact h.pending
      · exact Mailed.asked h.peer (by rw [hpeer]; rfl)
      · exact Mailed.asked h.config (by rw [hscan]; rfl)
  | ok c =>
      have hslot : c.slot = a.slot := (call_spec hentry).2.2.1
      by_cases hbusy : mem.slot c.slot = 0
      · -- accepted
        have hout : invoke b mem a = (runtimeBleOk,
            { slot := Function.update mem.slot c.slot c.cmd
              params := mem.params.puts (c.early ++ c.late) }) := by
          simp only [invoke, hentry, Call.run, hbusy, ne_eq, not_true_eq_false, if_false,
            Params.puts_append]
        rw [hout]
        refine ⟨?_, ?_, Mailed.asked h.peer (eval_readConnect_puts hentry (.inr rfl) _),
          Mailed.asked h.config (eval_runScanConfig_puts hentry (.inr rfl) _)⟩
        · by_cases hcentral : a.slot = .centralCmd
          · intro hnone
            simp [pendingCall, hcentral] at hnone
          · simpa [pendingCall, hcentral, hslot, Function.update_of_ne (Ne.symm hcentral)]
              using h.free
        · by_cases hcentral : a.slot = .centralCmd
          · intro a' ha'
            simp only [pendingCall, hcentral, and_self, if_true, Option.some.injEq] at ha'
            subst ha'
            exact ⟨hcentral, c, hentry, by simp [hslot, hcentral]⟩
          · simpa [pendingCall, hcentral, hslot, Function.update_of_ne (Ne.symm hcentral)]
              using h.pending
      · -- busy: what `central_cmd` stores ahead of its test stays
        have hout : invoke b mem a
            = (runtimeBleErrNoMem, { mem with params := mem.params.puts c.early }) := by
          simp only [invoke, hentry, Call.run, ne_eq, hbusy, not_false_eq_true, if_true]
        rw [hout]
        refine ⟨h.free, h.pending, Mailed.asked h.peer (eval_readConnect_puts hentry (.inl rfl) _),
          Mailed.asked h.config (eval_runScanConfig_puts hentry (.inl rfl) _)⟩

/-- A dial or a scan leaves all in place. -/
theorem Mailed.note (h : Mailed b mem log) (e : DialEvent)
    (he : e.peer.isSome = true ∨ e.config.isSome = true) : Mailed b mem (e :: log) := by
  cases e with
  | dialled place peer => exact ⟨h.free, h.pending, h.peer, h.config⟩
  | scanned config => exact ⟨h.free, h.pending, h.peer, h.config⟩
  | called a status => simp [DialEvent.peer, DialEvent.config] at he
  | took place cmd => simp [DialEvent.peer, DialEvent.config] at he

/-- Nothing is pending: a poll comes to nothing. -/
theorem Mailed.swap_free (h : Mailed b s.mem s.log) (hnone : pendingCall s.log = none)
    (place : Place) : s.swap place = s := by
  have hfree := h.free hnone
  obtain ⟨⟨slot, params⟩, pc, auto, unloadReq, log⟩ := s
  have hslot : Function.update slot .centralCmd 0 = slot := by
    rw [Function.update_eq_self_iff]
    exact hfree.symm
  simp only [Dialer.swap] at hfree ⊢
  rw [hslot, if_pos hfree]

/-- A call is pending: its command is taken. -/
theorem Mailed.swap_pending (h : Mailed b s.mem s.log) {a : ApiCall}
    (hsome : pendingCall s.log = some a) (place : Place) :
    (s.swap place).log = .took place (s.mem.slot .centralCmd) :: s.log
      ∧ Mailed b (s.swap place).mem (s.swap place).log := by
  obtain ⟨-, c, hentry, hcmd⟩ := h.pending a hsome
  have hbusy : s.mem.slot .centralCmd ≠ 0 := by
    rw [hcmd]
    exact (call_spec hentry).2.2.2
  have hlog : (s.swap place).log = .took place (s.mem.slot .centralCmd) :: s.log :=
    if_neg hbusy
  refine ⟨hlog, ?_⟩
  rw [hlog]
  refine ⟨fun _ => ?_, ?_, h.peer, h.config⟩
  · show Function.update s.mem.slot .centralCmd 0 .centralCmd = 0
    rw [Function.update_self]
  · intro a' ha'
    cases ha'

/-! ## The books -/

/-- Between the two logs the loop dials whom its commands carry, and scans
with what they carry. -/
structure Books (log log' : List DialEvent) : Prop where
  dials : ∃ new, Client.dials log' = new ++ Client.dials log ∧ dialsOf log' = new ++ dialsOf log
  scans : ∃ new, Client.scans log' = new ++ Client.scans log ∧ scansOf log' = new ++ scansOf log

theorem Books.refl : Books log log := ⟨⟨[], rfl, rfl⟩, ⟨[], rfl, rfl⟩⟩

theorem Books.called {a : ApiCall} {status : Int} : Books log (.called a status :: log) :=
  ⟨⟨[], rfl, rfl⟩, ⟨[], rfl, rfl⟩⟩

/-- A command is taken that carries neither, or is taken where it is dropped. -/
theorem Books.took_none {place : Place} {cmd : Nat}
    (hpeer : place = .client ∨ (pendingCall log).bind ApiCall.peer? = none)
    (hscan : place ≠ .idle ∨ (pendingCall log).bind scan? = none) :
    Books log (.took place cmd :: log) := by
  refine ⟨⟨[], rfl, ?_⟩, ⟨[], rfl, ?_⟩⟩
  · show carriedOf _ _ _ = _
    rcases hpeer with rfl | hpeer
    · simp [carriedOf, dialsOf]
    · simp [carriedOf, dialsOf, hpeer]
  · show carriedOf _ _ _ = _
    rcases hscan with hplace | hscan
    · simp [carriedOf, scansOf, hplace]
    · simp [carriedOf, scansOf, hscan]

/-- A connect is taken, and dialled. -/
theorem Books.took_connect {place : Place} {cmd : Nat} {a : ApiCall} {x y : PeerAddress}
    (hplace : place ≠ .client) (hpending : pendingCall log = some a) (hx : a.peer? = some x)
    (hy : lastAsked ApiCall.peer? log = some y) :
    Books log (.dialled (some place) y :: .took place cmd :: log) := by
  have hscan : scan? a = none := by
    cases a <;> first | rfl | cases hx
  refine ⟨⟨[y], rfl, ?_⟩, ⟨[], rfl, ?_⟩⟩
  · show carriedOf _ _ _ = _
    simp [carriedOf, dialsOf, hplace, hpending, hx, hy]
  · show carriedOf _ _ _ = _
    simp [carriedOf, scansOf, hpending, hscan]

/-- A scan is taken, and begun. -/
theorem Books.took_scan {cmd : Nat} {a : ApiCall} {x y : ScanConfig}
    (hpending : pendingCall log = some a) (hx : scan? a = some x)
    (hy : lastAsked scan? log = some y) :
    Books log (.scanned y :: .took .idle cmd :: log) := by
  have hpeer : a.peer? = none := by
    cases a <;> first | rfl | cases hx
  refine ⟨⟨[], rfl, ?_⟩, ⟨[y], rfl, ?_⟩⟩
  · show carriedOf _ _ _ = _
    simp [carriedOf, dialsOf, hpending, hpeer]
  · show carriedOf _ _ _ = _
    simp [carriedOf, scansOf, hpending, hx, hy]

/-- Behind a step of the loop. -/
structure Kept (b : Build) (s t : Dialer) : Prop where
  auto : t.auto = s.auto
  mailed : Mailed b t.mem t.log
  books : Books s.log t.log

theorem Mailed.waitIdle (h : Mailed b s.mem s.log) : Kept b s s.waitIdle := by
  unfold Dialer.waitIdle
  cases hpending : pendingCall s.log with
  | none =>
      rw [h.swap_free hpending, h.free hpending]
      exact ⟨rfl, h, .refl⟩
  | some a =>
      obtain ⟨hlog, hswap⟩ := h.swap_pending hpending .idle
      obtain ⟨hslot, c, hentry, hcmd⟩ := h.pending a hpending
      obtain ⟨hconnect, hscan⟩ := cmd_of_entry hentry hslot
      rw [waitIdleCmd_eval, hcmd]
      by_cases hpeer : a.peer?.isSome = true
      · obtain ⟨x, hx⟩ := Option.isSome_iff_exists.mp hpeer
        obtain ⟨y, hy⟩ := lastAsked_of_pending hpending hx
        rw [if_pos (hconnect.mpr hpeer), h.peer y hy]
        refine ⟨rfl, hswap.note _ (.inl rfl), ?_⟩
        show Books s.log (_ :: (s.swap .idle).log)
        rw [hlog]
        exact .took_connect (by decide) hpending hx hy
      · rw [if_neg (mt hconnect.mp hpeer)]
        by_cases hconfig : (scan? a).isSome = true
        · obtain ⟨x, hx⟩ := Option.isSome_iff_exists.mp hconfig
          obtain ⟨y, hy⟩ := lastAsked_of_pending hpending hx
          rw [if_pos (hscan.mpr hconfig), h.config y hy]
          refine ⟨rfl, hswap.note _ (.inr rfl), ?_⟩
          show Books s.log (_ :: (s.swap .idle).log)
          rw [hlog]
          exact .took_scan hpending hx hy
        · rw [if_neg (mt hscan.mp hconfig)]
          refine ⟨rfl, hswap, ?_⟩
          show Books s.log (s.swap .idle).log
          rw [hlog]
          rw [Bool.not_eq_true, Option.isSome_eq_false_iff, Option.isNone_iff_eq_none]
            at hpeer hconfig
          exact .took_none (.inr (by rw [hpending]; exact hpeer))
            (.inr (by rw [hpending]; exact hconfig))

theorem Mailed.runScan (h : Mailed b s.mem s.log) : Kept b s s.runScan := by
  unfold Dialer.runScan
  cases hpending : pendingCall s.log with
  | none =>
      rw [h.swap_free hpending, h.free hpending]
      exact ⟨rfl, h, .refl⟩
  | some a =>
      obtain ⟨hlog, hswap⟩ := h.swap_pending hpending .scanning
      obtain ⟨hslot, c, hentry, hcmd⟩ := h.pending a hpending
      obtain ⟨hconnect, -⟩ := cmd_of_entry hentry hslot
      rw [runScan_eval, hcmd]
      by_cases hpeer : a.peer?.isSome = true
      · obtain ⟨x, hx⟩ := Option.isSome_iff_exists.mp hpeer
        obtain ⟨y, hy⟩ := lastAsked_of_pending hpending hx
        have hstop : c.cmd ≠ ccmdScanStop := by
          rw [hconnect.mpr hpeer]
          decide
        rw [if_neg hstop, if_pos (hconnect.mpr hpeer), h.peer y hy]
        refine ⟨rfl, hswap.note _ (.inl rfl), ?_⟩
        show Books s.log (_ :: (s.swap .scanning).log)
        rw [hlog]
        exact .took_connect (by decide) hpending hx hy
      · -- stopped, or dropped
        have hbooks : Books s.log (s.swap .scanning).log := by
          rw [hlog]
          rw [Bool.not_eq_true, Option.isSome_eq_false_iff, Option.isNone_iff_eq_none] at hpeer
          exact .took_none (.inr (by rw [hpending]; exact hpeer)) (.inl (by decide))
        rw [if_neg (mt hconnect.mp hpeer)]
        split_ifs
        · exact ⟨rfl, hswap, hbooks⟩
        · exact ⟨rfl, hswap, hbooks⟩

theorem Mailed.pump (h : Mailed b s.mem s.log) : Kept b s (s.swap .client) := by
  cases hpending : pendingCall s.log with
  | none =>
      rw [h.swap_free hpending]
      exact ⟨rfl, h, .refl⟩
  | some a =>
      obtain ⟨hlog, hswap⟩ := h.swap_pending hpending .client
      refine ⟨rfl, hswap, ?_⟩
      rw [hlog]
      exact .took_none (.inl rfl) (.inl (by decide))

/-- `auto` is up to the first look only, and nothing is carried before it. -/
structure Dialling (b : Build) (configured : Option PeerAddress) (s : Dialer) : Prop where
  mailed : Mailed b s.mem s.log
  fresh : s.auto = true →
    configured.isSome = true ∧ (s.pc = .head ∨ s.pc = .returned) ∧ dialsOf s.log = []
  dials : dials s.log = dialsOf s.log ++ (if s.auto then [] else configured.toList)
  scans : scans s.log = scansOf s.log

theorem Dialling.kept (h : Dialling b configured s) (hk : Kept b s t)
    (hfresh : s.auto = true → (t.pc = .head ∨ t.pc = .returned) ∧ dialsOf t.log = dialsOf s.log) :
    Dialling b configured t where
  mailed := hk.mailed
  fresh := by
    rw [hk.auto]
    intro hauto
    obtain ⟨hsome, -, hnone⟩ := h.fresh hauto
    obtain ⟨hpc, heq⟩ := hfresh hauto
    exact ⟨hsome, hpc, heq.trans hnone⟩
  dials := by
    obtain ⟨new, hdials, hof⟩ := hk.books.dials
    rw [hdials, hof, hk.auto, h.dials, List.append_assoc]
  scans := by
    obtain ⟨new, hscans, hof⟩ := hk.books.scans
    rw [hscans, hof, h.scans]

/-- A step that leaves memory and log alone. -/
theorem Dialling.quiet (h : Dialling b configured s) (hmem : t.mem = s.mem) (hlog : t.log = s.log)
    (hauto : t.auto = s.auto) (hpc : s.auto = true → t.pc = .head ∨ t.pc = .returned) :
    Dialling b configured t := by
  apply h.kept
  · refine ⟨hauto, ?_, ?_⟩
    · rw [hmem, hlog]
      exact h.mailed
    · rw [hlog]
      exact .refl
  · intro htrue
    exact ⟨hpc htrue, congrArg _ hlog⟩

/-- Elsewhere than at its head the loop has looked. -/
theorem Dialling.looked (h : Dialling b configured s) (hhead : s.pc ≠ .head)
    (hreturned : s.pc ≠ .returned) : ¬ s.auto = true := by
  intro hauto
  rcases (h.fresh hauto).2.1 with hpc | hpc
  · exact hhead hpc
  · exact hreturned hpc

theorem Dialling.look (h : Dialling b configured s)
    (hs : dialStep b configured s .look = some t) : Dialling b configured t := by
  simp only [dialStep] at hs
  split_ifs at hs with hpc hunload hauto
  · cases hs
    exact h.quiet rfl rfl rfl fun _ => .inr rfl
  · obtain ⟨hsome, -, hnone⟩ := h.fresh hauto
    obtain ⟨peer, rfl⟩ := Option.isSome_iff_exists.mp hsome
    cases hs
    have hdials := h.dials
    rw [hauto, hnone] at hdials
    refine ⟨h.mailed.note _ (.inl rfl), nofun, ?_, h.scans⟩
    show peer :: Client.dials s.log = dialsOf s.log ++ [peer]
    rw [hdials, hnone]
    rfl
  · -- the configured peer has had its turn, or there is none
    have ht : t = { s with pc := .idle } := by
      cases configured <;> exact (Option.some.inj hs).symm
    subst ht
    exact h.quiet rfl rfl rfl fun htrue => absurd htrue hauto

/-- **One step** of the application, the loop or the host. -/
theorem Dialling.step (hb : b.central = true) (h : Dialling b configured s) {i : DialLabel}
    (hs : dialStep b configured s i = some t) : Dialling b configured t := by
  cases i with
  | call a =>
      cases hs
      apply h.kept
      · exact ⟨rfl, h.mailed.call hb a, .called⟩
      · intro hauto
        exact ⟨(h.fresh hauto).2.1, rfl⟩
  | unload =>
      cases hs
      exact h.quiet rfl rfl rfl fun hauto => (h.fresh hauto).2.1
  | look => exact h.look hs
  | poll =>
      simp only [dialStep, pollCommands] at hs
      split at hs
      · rename_i hpc
        -- the configured peer has been dialled by now
        have hlooked := h.looked (by rw [hpc]; decide) (by rw [hpc]; decide)
        split_ifs at hs with hunload
        · cases hs
          exact h.quiet rfl rfl rfl fun hauto => absurd hauto hlooked
        · cases hs
          exact h.kept h.mailed.waitIdle fun hauto => absurd hauto hlooked
      · rename_i hpc
        have hlooked := h.looked (by rw [hpc]; decide) (by rw [hpc]; decide)
        split_ifs at hs with hunload
        · cases hs
          exact h.quiet rfl rfl rfl fun hauto => absurd hauto hlooked
        · cases hs
          exact h.kept h.mailed.runScan fun hauto => absurd hauto hlooked
      · rename_i hpc
        have hlooked := h.looked (by rw [hpc]; decide) (by rw [hpc]; decide)
        cases hs
        exact h.kept h.mailed.pump fun hauto => absurd hauto hlooked
      · cases hs
  | scanOver | linkOver | wake =>
      simp only [dialStep] at hs
      split_ifs at hs with hpc
      cases hs
      exact h.quiet rfl rfl rfl fun _ => .inl rfl
  | connected ok =>
      rw [dialStep] at hs
      by_cases hpc : s.pc = .connecting
      · rw [if_pos hpc] at hs
        cases hs
        exact h.quiet rfl rfl rfl fun hauto =>
          absurd hauto (h.looked (by rw [hpc]; decide) (by rw [hpc]; decide))
      · rw [if_neg hpc] at hs
        cases hs

theorem dialling_of_reachable (hb : b.central = true) (h : (dialer b configured).Reachable s) :
    Dialling b configured s := by
  apply Machine.Reach.invariant (P := Dialling b configured) ?_ ?_ h
  · rintro s ⟨hslot, hpc, hauto, hlog⟩
    refine ⟨⟨fun _ => hslot, ?_, ?_, ?_⟩, ?_, ?_, ?_⟩
    · intro a ha
      rw [hlog] at ha
      cases ha
    · intro x hx
      rw [hlog] at hx
      cases hx
    · intro x hx
      rw [hlog] at hx
      cases hx
    · intro htrue
      rw [hlog]
      exact ⟨hauto ▸ htrue, .inl hpc, rfl⟩
    · rw [hlog, hauto]
      cases configured <;> rfl
    · rw [hlog]
      rfl
  · intro s i t hinv _ hs
    exact hinv.step hb hs

end Invariant

/-! ## Every run -/

/-- **Who is dialled**, over any run with its calls between the polls: the
configured peer once and first, and then, for each connect that is taken while
the loop is idle or scans, the peer of the last call that asked for one; a scan
is begun with what the last call asked for. The peer is that of the connect's
own call exactly when no other has come between, which is refused then, and
takes effect nevertheless. -/
theorem dials_exact {b : Build} (hb : b.central = true) {configured : Option PeerAddress}
    {s : Dialer} (h : (dialer b configured).Reachable s) :
    dials s.log = dialsOf s.log ++ (if s.auto then [] else configured.toList)
    ∧ scans s.log = scansOf s.log
    ∧ (dialsOf s.log = ownDialsOf s.log ↔
        EachEvent (fun e log => ¬ Overtaken ApiCall.peer? (· != .client) e log) s.log)
    ∧ (scansOf s.log = ownScansOf s.log ↔
        EachEvent (fun e log => ¬ Overtaken scan? (· == .idle) e log) s.log) := by
  have hinv := dialling_of_reachable hb h
  exact ⟨hinv.dials, hinv.scans, carriedOf_eq_askedOf_iff, carriedOf_eq_askedOf_iff⟩

/-- A connect to the first device is pending when one to the second is
refused: the loop dials the second. -/
theorem dials_exact_overtaken :
    let home : PeerAddress := { addr := [1, 2, 3, 4, 5, 6], kind := 0 }
    let first : Bytes 6 := #v[0x11, 0x12, 0x13, 0x14, 0x15, 0x16]
    let second : Bytes 6 := #v[0x21, 0x22, 0x23, 0x24, 0x25, 0x26]
    ∃ s, (dialer { central := true } (some home)).Reachable s
      ∧ dials s.log = [{ addr := second.toList, kind := 1 }, home]
      ∧ ownDialsOf s.log = [{ addr := first.toList, kind := 0 }]
      ∧ ¬ EachEvent (fun e log => ¬ Overtaken ApiCall.peer? (· != .client) e log) s.log := by
  intro home first second
  have hexec : ((dialer { central := true } (some home)).exec { mem := bootMem, auto := true }
        [.look, .call (.connect (some first)), .connected false, .wake,
          .call (.connectAddr (some second) 1), .look, .poll]).map
      (fun s => decide (dialsOf s.log = [{ addr := second.toList, kind := 1 }]
        ∧ ownDialsOf s.log = [{ addr := first.toList, kind := 0 }]
        ∧ s.auto = false)) = some true := by
    decide
  obtain ⟨s, hreach, hs⟩ := Machine.exists_reachable_of_exec _
    (show (dialer { central := true } (some home)).init { mem := bootMem, auto := true } from
      ⟨rfl, rfl, rfl, rfl⟩) hexec
  obtain ⟨hof, hown, hauto⟩ := of_decide_eq_true hs
  obtain ⟨hdials, -, hiff, -⟩ := dials_exact rfl hreach
  refine ⟨s, hreach, ?_, hown, ?_⟩
  · rw [hdials, hof, hauto]
    rfl
  · rw [← hiff, hof, hown]
    decide

end RuntimeBle.Client
