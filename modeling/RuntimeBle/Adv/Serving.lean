import RuntimeBle.Lib.Brackets
import RuntimeBle.Lib.Dialogue
import RuntimeBle.Lib.Machine
import RuntimeBle.Link.Intervals

/-!
# Adv — Serving

`serve`: what the host is asked for before a connection is accepted, in
which order, and what becomes of it when something is refused.

An attempt to advertise is a dialogue with the host, as the source has it,
with a return behind each `await` that fails. `script` is the same attempt
as a list, from the configuration alone.
-/

namespace RuntimeBle.Adv

open RuntimeBle.Lib Dialogue
open RuntimeBle.Bond (Address)
open RuntimeBle.Link (PeriodicCommand enablePeriodicAdvertising)

/-! ## The dialogue -/

/-- What is awaited; all may fail. -/
inductive ServeQuery where
  | setFilterAcceptList (peers : List Address)
  | advertise (params : AdvertisementParameters) (ad : Advertisement)
  | advertiseExt (params : AdvertisementParameters) (ad : Advertisement)
  | command (cmd : PeriodicCommand)
  | accept
deriving DecidableEq

/-- The events are lines of the log. -/
abbrev ServeDialogue := Dialogue ServeQuery (fun _ => Bool) String Bool

/-- An `await` with its `?`. -/
def await (q : ServeQuery) (next : ServeDialogue) : ServeDialogue :=
  .ask q fun ok => if ok then next else .ret false

section Attempt

variable (genericPowerDevice : UInt16) (cfg : RuntimeCfg)

/-- The address of the accept list, if the configuration gives one. -/
def advAcceptPeer : Option Address :=
  cfg.advAcceptAddress.map fun addr => { kind := cAddrKind cfg.advAcceptAddressKind, addr }

/-- `apply_adv_accept_list`: the one address, where a filter policy is set. -/
def applyAdvAcceptList : ServeDialogue :=
  if cfg.advFilterPolicy = 0 then .ret true
  else
    match advAcceptPeer cfg with
    | some peer => await (.setFilterAcceptList [peer]) (.ret true)
    | none => .ret true

/-- The commands of `enable_periodic_advertising`, one after the other. -/
def runCommands : List PeriodicCommand → ServeDialogue
  | [] => .emit "[adv] periodic advertising enabled" (.ret true)
  | cmd :: cmds => await (.command cmd) (runCommands cmds)

/-- The commands of the periodic advertising, where it is configured. -/
def enablePeriodic : ServeDialogue :=
  if cfg.periodicAdv = 0 then .ret true else runCommands (enablePeriodicAdvertising cfg)

/-- `Ok` of `accept`. -/
def acceptOne : ServeDialogue := await .accept (.ret true)

/-- `advertise_connectable`, with its questions to the host. -/
def runAdvertiseConnectable : ServeDialogue :=
  (applyAdvAcceptList cfg).andThen <|
  match directedPeer cfg with
  | some peer =>
      if cfg.advExtended ≠ 0 ∧ cfg.directedHighDuty = 0 then
        match advertisingPartsExt genericPowerDevice cfg with
        | .error _ => .ret false
        | .ok (adv, _, params) =>
            await (.advertiseExt params (.extConnectableNonscannableDirected peer adv)) <|
            (enablePeriodic cfg).andThen acceptOne
      else
        let advertisement :=
          if cfg.directedHighDuty ≠ 0 then .connectableNonscannableDirectedHighDuty peer
          else .connectableNonscannableDirected peer
        await (.advertise (advertisingParams cfg) advertisement) acceptOne
  | none =>
      if cfg.advExtended ≠ 0 then
        match advertisingPartsExt genericPowerDevice cfg with
        | .error _ => .ret false
        | .ok (adv, _, params) =>
            await (.advertiseExt params (.extConnectableNonscannableUndirected adv)) <|
            (enablePeriodic cfg).andThen acceptOne
      else
        match advertisingParts genericPowerDevice cfg with
        | .error _ => .ret false
        | .ok (adv, scanData, params) =>
            await (.advertise params (.connectableScannableUndirected adv.payload scanData)) <|
            acceptOne

/-- Up to `wait_unload`. -/
def runAdvertiseNonconnectable : ServeDialogue :=
  (applyAdvAcceptList cfg).andThen <|
  if cfg.advExtended ≠ 0 then
    match advertisingPartsExt genericPowerDevice cfg with
    | .error _ => .ret false
    | .ok (adv, scanData, params) =>
        match extend adv scanData with
        | none => .ret false
        | some scanPayload =>
            let data :=
              if cfg.periodicAdv ≠ 0 then .extNonconnectableNonscannableUndirected scanPayload
              else .extNonconnectableScannableUndirected scanPayload
            await (.advertiseExt params data) <|
            (enablePeriodic cfg).andThen <|
            .emit "[adv] extended advertising started" (.ret true)
  else
    match advertisingParts genericPowerDevice cfg with
    | .error _ => .ret false
    | .ok (adv, scanData, params) =>
        let data :=
          if scanData = [] then .nonconnectableNonscannableUndirected adv.payload
          else .nonconnectableScannableUndirected adv.payload scanData
        await (.advertise params data) <|
        .emit "[adv] legacy advertising started" (.ret true)

/-- One turn of the loop, up to the advertiser. -/
def attempt : ServeDialogue :=
  if cfg.nonconnectable ≠ 0 then runAdvertiseNonconnectable genericPowerDevice cfg
  else runAdvertiseConnectable genericPowerDevice cfg

end Attempt

/-! ## `serve` -/

/-- `started`: in `wait_unload` of `advertise_nonconnectable`. -/
inductive ServePc where
  | head
  | trying (left : ServeDialogue)
  | connected
  | started
  | pausing
  | returned

/-- What the loop does and hears, line by line. -/
inductive ServeEvent where
  | line (l : Line ServeQuery (fun _ => Bool) String)
  | onConnected
  | onDisconnected
  | startFailed
  | pausing

/-- The loop, and what it has done so far. -/
structure Server where
  pc : ServePc := .head
  unloadReq : Bool := false
  log : List ServeEvent := []

/-- `go`: the loop goes round. -/
inductive ServeLabel where
  | go
  | answer (ok : Bool)
  | linkOver
  | wake
  | unload
  | unloadSeen

section Step

variable (genericPowerDevice : UInt16) (cfg : RuntimeCfg)

/-- An attempt goes on to its next question, or to its end. -/
def Server.proceed (s : Server) (d : ServeDialogue) : Server :=
  let log := (d.flush.1.map fun text => ServeEvent.line (.said text)).reverse ++ s.log
  match d.flush.2 with
  | .ret true =>
      if cfg.nonconnectable ≠ 0 then { s with pc := .started, log }
      else { s with pc := .connected, log := .onConnected :: log }
  | .ret false =>
      if cfg.nonconnectable ≠ 0 then
        { s with pc := .pausing, log := .pausing :: .startFailed :: log }
      else { s with pc := .pausing, log := .pausing :: log }
  | left => { s with pc := .trying left, log }

/-- One step of the loop, or of what it waits for. -/
def serveStep (s : Server) : ServeLabel → Option Server
  | .go =>
      match s.pc with
      | .head =>
          if cfg.nonconnectable ≠ 0 ∧ s.unloadReq = true then some { s with pc := .returned }
          else some (s.proceed cfg (attempt genericPowerDevice cfg))
      | _ => none
  | .answer ok =>
      match s.pc with
      | .trying (.ask q next) =>
          some (Server.proceed cfg { s with log := .line (.answered q ok) :: s.log } (next ok))
      | _ => none
  | .linkOver =>
      match s.pc with
      | .connected => some { s with pc := .head, log := .onDisconnected :: s.log }
      | _ => none
  | .wake =>
      match s.pc with
      | .pausing => some { s with pc := .head }
      | _ => none
  | .unload => some { s with unloadReq := true }
  | .unloadSeen =>
      match s.pc with
      | .started => if s.unloadReq then some { s with pc := .returned } else none
      | _ => none

/-- `serve` from its first turn on. -/
def serve : Machine Server ServeLabel where
  init s := s.pc = .head ∧ s.log = []
  step := serveStep genericPowerDevice cfg

end Step

/-! ## The script -/

/-- It goes by the extended commands. -/
def Advertisement.extended : Advertisement → Bool
  | extConnectableNonscannableUndirected _ | extConnectableNonscannableDirected ..
  | extNonconnectableScannableUndirected _ | extNonconnectableNonscannableUndirected _ => true
  | _ => false

section Script

variable (genericPowerDevice : UInt16) (cfg : RuntimeCfg)

/-- The accept list, if there is a policy to consult it. -/
def acceptScript : List (String ⊕ ServeQuery) :=
  if cfg.advFilterPolicy = 0 then []
  else (advAcceptPeer cfg).toList.map fun peer => .inr (.setFilterAcceptList [peer])

/-- What is logged and asked when periodic advertising starts. -/
def periodicScript : List (String ⊕ ServeQuery) :=
  if cfg.periodicAdv = 0 then []
  else
    (enablePeriodicAdvertising cfg).map (fun cmd => .inr (.command cmd))
      ++ [.inl "[adv] periodic advertising enabled"]

/-- What comes of an advertisement that has been put together: it is started,
with the periodic one behind an extended one, and one connection accepted. -/
def startScript (params : AdvertisementParameters) (ad : Advertisement) :
    List (String ⊕ ServeQuery) :=
  if ad.extended then
    .inr (.advertiseExt params ad) :: periodicScript cfg ++
      (if cfg.nonconnectable ≠ 0 then [.inl "[adv] extended advertising started"]
       else [.inr .accept])
  else
    .inr (.advertise params ad) ::
      (if cfg.nonconnectable ≠ 0 then [.inl "[adv] legacy advertising started"]
       else [.inr .accept])

/-- A whole attempt. -/
def script : List (String ⊕ ServeQuery) :=
  acceptScript cfg ++
    match serveAdvertisement genericPowerDevice cfg with
    | .error _ => []
    | .ok (params, ad) => startScript cfg params ad

end Script

/-! ## The attempt follows the script -/

section Follows

variable {genericPowerDevice : UInt16} {cfg : RuntimeCfg}

theorem applyAdvAcceptList_eq :
    applyAdvAcceptList cfg = tries true (acceptScript cfg) := by
  unfold applyAdvAcceptList acceptScript
  split_ifs
  · rfl
  · cases advAcceptPeer cfg <;> rfl

theorem runCommands_eq (cmds : List PeriodicCommand) :
    runCommands cmds = tries true (cmds.map (fun cmd => .inr (.command cmd))
      ++ [.inl "[adv] periodic advertising enabled"]) := by
  induction cmds with
  | nil => rfl
  | cons cmd cmds ih =>
      rw [runCommands, ih]
      rfl

theorem enablePeriodic_eq : enablePeriodic cfg = tries true (periodicScript cfg) := by
  unfold enablePeriodic periodicScript
  split_ifs
  · rfl
  · exact runCommands_eq _

section Start

variable {params : AdvertisementParameters} {ad : Advertisement}

theorem startExtended_eq (hext : ad.extended = true) (hconn : cfg.nonconnectable = 0) :
    await (.advertiseExt params ad) ((enablePeriodic cfg).andThen acceptOne)
      = tries true (startScript cfg params ad) := by
  have haccept : acceptOne = tries true [.inr .accept] := rfl
  rw [enablePeriodic_eq, haccept, tries_andThen, startScript, if_pos hext,
    if_neg (not_not_intro hconn)]
  rfl

theorem startLegacy_eq (hext : ad.extended = false) (hconn : cfg.nonconnectable = 0) :
    await (.advertise params ad) acceptOne = tries true (startScript cfg params ad) := by
  rw [startScript, if_neg (by simp [hext]), if_neg (not_not_intro hconn)]
  rfl

theorem broadcastExtended_eq (hext : ad.extended = true) (hnon : cfg.nonconnectable ≠ 0) :
    await (.advertiseExt params ad)
        ((enablePeriodic cfg).andThen
          (.emit "[adv] extended advertising started" (.ret true)))
      = tries true (startScript cfg params ad) := by
  have hstarted : (.emit "[adv] extended advertising started" (.ret true) : ServeDialogue)
      = tries true [.inl "[adv] extended advertising started"] := rfl
  rw [enablePeriodic_eq, hstarted, tries_andThen, startScript, if_pos hext, if_pos hnon]
  rfl

theorem broadcastLegacy_eq (hext : ad.extended = false) (hnon : cfg.nonconnectable ≠ 0) :
    await (.advertise params ad) (.emit "[adv] legacy advertising started" (.ret true))
      = tries true (startScript cfg params ad) := by
  rw [startScript, if_neg (by simp [hext]), if_pos hnon]
  rfl

end Start

/-- The script of an advertisement, if there is one. -/
theorem runAdvertiseConnectable_eq (hconn : cfg.nonconnectable = 0) :
    runAdvertiseConnectable genericPowerDevice cfg
      = tries (advertiseConnectable genericPowerDevice cfg).isOk
          (acceptScript cfg ++
            match advertiseConnectable genericPowerDevice cfg with
            | .error _ => []
            | .ok (params, ad) => startScript cfg params ad) := by
  rw [runAdvertiseConnectable, applyAdvAcceptList_eq, ← tries_andThen]
  congr 1
  unfold advertiseConnectable
  cases directedPeer cfg with
  | some peer =>
      dsimp only
      split_ifs
      · cases advertisingPartsExt genericPowerDevice cfg with
        | error err => rfl
        | ok parts => exact startExtended_eq rfl hconn
      · exact startLegacy_eq rfl hconn
      · exact startLegacy_eq rfl hconn
  | none =>
      dsimp only
      split_ifs
      · cases advertisingPartsExt genericPowerDevice cfg with
        | error err => rfl
        | ok parts => exact startExtended_eq rfl hconn
      · cases advertisingParts genericPowerDevice cfg with
        | error err => rfl
        | ok parts => exact startLegacy_eq rfl hconn

theorem runAdvertiseNonconnectable_eq (hnon : cfg.nonconnectable ≠ 0) :
    runAdvertiseNonconnectable genericPowerDevice cfg
      = tries (advertiseNonconnectable genericPowerDevice cfg).isOk
          (acceptScript cfg ++
            match advertiseNonconnectable genericPowerDevice cfg with
            | .error _ => []
            | .ok (params, ad) => startScript cfg params ad) := by
  rw [runAdvertiseNonconnectable, applyAdvAcceptList_eq, ← tries_andThen]
  congr 1
  unfold advertiseNonconnectable
  by_cases hext : cfg.advExtended ≠ 0
  · simp only [if_pos hext]
    cases advertisingPartsExt genericPowerDevice cfg with
    | error err => rfl
    | ok parts =>
        obtain ⟨adv, scanData, params⟩ := parts
        simp only [Bind.bind, Except.bind]
        cases extend adv scanData with
        | none => rfl
        | some scanPayload =>
            dsimp only
            by_cases hperiodic : cfg.periodicAdv ≠ 0
            · rw [if_pos hperiodic, if_pos hperiodic]
              exact broadcastExtended_eq rfl hnon
            · rw [if_neg hperiodic, if_neg hperiodic]
              exact broadcastExtended_eq rfl hnon
  · simp only [if_neg hext]
    cases advertisingParts genericPowerDevice cfg with
    | error err => rfl
    | ok parts =>
        obtain ⟨adv, scanData, params⟩ := parts
        simp only [Bind.bind, Except.bind]
        by_cases hscan : scanData = []
        · rw [if_pos hscan, if_pos hscan]
          exact broadcastLegacy_eq rfl hnon
        · rw [if_neg hscan, if_neg hscan]
          exact broadcastLegacy_eq rfl hnon

/-- **The attempt is the script**, up to its first refusal. -/
theorem attempt_eq :
    attempt genericPowerDevice cfg
      = tries (serveAdvertisement genericPowerDevice cfg).isOk
          (script genericPowerDevice cfg) := by
  unfold attempt script serveAdvertisement
  split_ifs with hnon
  · exact runAdvertiseNonconnectable_eq hnon
  · exact runAdvertiseConnectable_eq (not_not.mp hnon)

end Follows

/-! ## The order of a run -/

/-- The next attempt is behind it. -/
def ServeEvent.ends : ServeEvent → Bool
  | onDisconnected | pausing => true
  | _ => false

/-- The two events that open and close a connection. -/
def ServeEvent.mark : ServeEvent → Option Bool
  | onConnected => some true
  | onDisconnected => some false
  | _ => none

/-- What a script leaves in the log, granted throughout. -/
def grantedLog (es : List (String ⊕ ServeQuery)) : List ServeEvent :=
  ((granted es).map .line).reverse

section Order

variable (genericPowerDevice : UInt16) (cfg : RuntimeCfg)

/-- The attempt up to now has come to nothing: the last question is refused,
or there is no advertisement to ask for. -/
def Failed (log : List ServeEvent) : Prop :=
  (∃ done q rest, script genericPowerDevice cfg = done ++ .inr q :: rest
      ∧ since ServeEvent.ends log = .line (.answered q false) :: grantedLog done)
  ∨ (serveAdvertisement genericPowerDevice cfg).isOk = false
      ∧ since ServeEvent.ends log = grantedLog (script genericPowerDevice cfg)

/-- What may come behind the log. -/
def InOrder (e : ServeEvent) (log : List ServeEvent) : Prop :=
  match e with
  | .line l => ∃ done rest, script genericPowerDevice cfg = done ++ l.shape :: rest
      ∧ since ServeEvent.ends log = grantedLog done
  | .onConnected => cfg.nonconnectable = 0
      ∧ (serveAdvertisement genericPowerDevice cfg).isOk = true
      ∧ since ServeEvent.ends log = grantedLog (script genericPowerDevice cfg)
  | .onDisconnected => ∃ earlier, log = .onConnected :: earlier
  | .startFailed => cfg.nonconnectable ≠ 0 ∧ Failed genericPowerDevice cfg log
  | .pausing => (cfg.nonconnectable = 0 ∧ Failed genericPowerDevice cfg log)
      ∨ ∃ earlier, log = .startFailed :: earlier

/-- In an attempt, with `done` behind it. -/
structure Round (log : List ServeEvent) (done : List (String ⊕ ServeQuery)) : Prop where
  round : since ServeEvent.ends log = grantedLog done
  order : EachEvent (InOrder genericPowerDevice cfg) log
  alternating : Alternating ServeEvent.mark log
  closed : isOpen ServeEvent.mark log = false

/-- Where the loop is in the script. -/
def Serving (s : Server) : Prop :=
  match s.pc with
  | .head | .pausing => Round genericPowerDevice cfg s.log []
  | .trying left => ∃ done q rest,
      script genericPowerDevice cfg = done ++ .inr q :: rest
      ∧ left = tries (serveAdvertisement genericPowerDevice cfg).isOk (.inr q :: rest)
      ∧ Round genericPowerDevice cfg s.log done
  | .connected =>
      (∃ earlier, s.log = .onConnected :: earlier)
      ∧ EachEvent (InOrder genericPowerDevice cfg) s.log
      ∧ Alternating ServeEvent.mark s.log
  | .started | .returned =>
      EachEvent (InOrder genericPowerDevice cfg) s.log
      ∧ Alternating ServeEvent.mark s.log

end Order

section Invariant

variable {genericPowerDevice : UInt16} {cfg : RuntimeCfg} {s t : Server}
  {log : List ServeEvent} {done rest : List (String ⊕ ServeQuery)}

theorem grantedLog_concat (es : List (String ⊕ ServeQuery)) (e : String ⊕ ServeQuery) :
    grantedLog (es ++ [e])
      = .line (Sum.elim .said (fun q => .answered q true) e) :: grantedLog es := by
  simp [grantedLog, granted]

/-- What is granted, or said. -/
theorem Round.line {e : String ⊕ ServeQuery}
    (h : Round genericPowerDevice cfg log done)
    (hscript : script genericPowerDevice cfg = done ++ e :: rest) :
    Round genericPowerDevice cfg
      (.line (Sum.elim .said (fun q => .answered q true) e) :: log) (done ++ [e]) where
  round := by
    rw [since_cons_of_not rfl, h.round, grantedLog_concat]
  order := by
    refine ⟨⟨done, rest, ?_, h.round⟩, h.order⟩
    cases e <;> exact hscript
  alternating := h.alternating.cons_of_unmarked rfl
  closed := by
    rw [isOpen_cons_of_unmarked rfl]
    exact h.closed

/-- What is said on the way to the next question. -/
theorem Round.said {texts : List String} : ∀ {done : List (String ⊕ ServeQuery)}
    {log : List ServeEvent}, Round genericPowerDevice cfg log done →
    script genericPowerDevice cfg = done ++ (texts.map .inl ++ rest) →
    Round genericPowerDevice cfg
      ((texts.map fun text => ServeEvent.line (.said text)).reverse ++ log)
      (done ++ texts.map .inl) := by
  induction texts with
  | nil =>
      intro done log h _
      simpa using h
  | cons text texts ih =>
      intro done log h hscript
      have hnext := h.line (e := .inl text) hscript
      have hshift : script genericPowerDevice cfg
          = (done ++ [.inl text]) ++ (texts.map .inl ++ rest) := by
        rw [hscript]
        simp
      simpa using ih hnext hshift

/-- A refusal, and no advertisement to ask for, end the attempt. -/
theorem Serving.failed (horder : EachEvent (InOrder genericPowerDevice cfg) s.log)
    (halternating : Alternating ServeEvent.mark s.log)
    (hclosed : isOpen ServeEvent.mark s.log = false)
    (hfailed : Failed genericPowerDevice cfg s.log) :
    Serving genericPowerDevice cfg (s.proceed cfg (.ret false)) := by
  unfold Server.proceed
  simp only [flush, List.map_nil, List.reverse_nil, List.nil_append]
  split_ifs with hnon
  · refine ⟨since_cons_of_stop rfl, ⟨.inr ⟨_, rfl⟩, ⟨hnon, hfailed⟩, horder⟩,
      (halternating.cons_of_unmarked rfl).cons_of_unmarked rfl, ?_⟩
    rw [isOpen_cons_of_unmarked rfl, isOpen_cons_of_unmarked rfl]
    exact hclosed
  · refine ⟨since_cons_of_stop rfl, ⟨.inl ⟨not_not.mp hnon, hfailed⟩, horder⟩,
      halternating.cons_of_unmarked rfl, ?_⟩
    rw [isOpen_cons_of_unmarked rfl]
    exact hclosed

theorem Serving.proceed (h : Round genericPowerDevice cfg s.log done)
    (hscript : script genericPowerDevice cfg = done ++ rest) :
    Serving genericPowerDevice cfg
      (s.proceed cfg (tries (serveAdvertisement genericPowerDevice cfg).isOk rest)) := by
  obtain ⟨texts, rest', rfl, hflush, hrest⟩ :=
    flush_tries (serveAdvertisement genericPowerDevice cfg).isOk rest
  have hsaid := h.said hscript
  rw [← List.append_assoc] at hscript
  cases rest' with
  | cons e rest' =>
      cases e with
      | inl text => exact absurd rfl (hrest text rest')
      | inr q =>
          unfold Server.proceed
          rw [hflush]
          exact ⟨_, q, rest', hscript, rfl, hsaid⟩
  | nil =>
      -- the whole script is granted
      rw [List.append_nil] at hscript
      have hround := hsaid.round
      rw [← hscript] at hround
      cases hok : (serveAdvertisement genericPowerDevice cfg).isOk with
      | true =>
          unfold Server.proceed
          rw [hok] at hflush
          rw [hflush]
          simp only [tries]
          split_ifs with hnon
          · exact ⟨hsaid.order, hsaid.alternating⟩
          · refine ⟨⟨_, rfl⟩, ⟨⟨not_not.mp hnon, hok, hround⟩, hsaid.order⟩, ?_⟩
            exact hsaid.alternating.cons_of_mark rfl hsaid.closed
      | false =>
          have hproceed : s.proceed cfg (tries false (texts.map .inl ++ []))
              = Server.proceed cfg
                { s with log := (texts.map fun text =>
                    ServeEvent.line (.said text)).reverse ++ s.log }
                (.ret false) := by
            unfold Server.proceed
            rw [hok] at hflush
            rw [hflush]
            rfl
          rw [hproceed]
          exact Serving.failed hsaid.order hsaid.alternating hsaid.closed (.inr ⟨hok, hround⟩)

/-- **One step** of the loop, the host or the application. -/
theorem Serving.step (h : Serving genericPowerDevice cfg s) {i : ServeLabel}
    (hs : serveStep genericPowerDevice cfg s i = some t) :
    Serving genericPowerDevice cfg t := by
  cases i with
  | go =>
      simp only [serveStep] at hs
      split at hs
      · rename_i hpc
        rw [Serving, hpc] at h
        split_ifs at hs with hunload
        · cases hs
          exact ⟨h.order, h.alternating⟩
        · cases hs
          rw [attempt_eq]
          exact Serving.proceed h rfl
      · cases hs
  | answer ok =>
      simp only [serveStep] at hs
      split at hs
      · rename_i q next hpc
        cases hs
        rw [Serving, hpc] at h
        obtain ⟨done, q', rest, hscript, heq, hround⟩ := h
        cases heq
        cases ok with
        | true =>
            -- granted: the question is behind, with the rest of the script ahead
            apply Serving.proceed (hround.line hscript)
            rw [hscript]
            simp
        | false =>
            -- refused: the round ends with this question
            apply Serving.failed
            · exact ⟨⟨done, rest, hscript, hround.round⟩, hround.order⟩
            · exact hround.alternating.cons_of_unmarked rfl
            · exact (isOpen_cons_of_unmarked rfl).trans hround.closed
            · exact .inl ⟨done, q, rest, hscript, by rw [since_cons_of_not rfl, hround.round]⟩
      · cases hs
  | linkOver =>
      simp only [serveStep] at hs
      split at hs
      · rename_i hpc
        cases hs
        rw [Serving, hpc] at h
        -- the last event is the connection that is over now
        obtain ⟨⟨earlier, hlog⟩, horder, halternating⟩ := h
        refine ⟨since_cons_of_stop rfl, ⟨⟨earlier, hlog⟩, horder⟩, ?_, isOpen_cons_of_mark rfl⟩
        apply halternating.cons_of_mark rfl
        rw [hlog]
        exact isOpen_cons_of_mark rfl
      · cases hs
  | wake =>
      simp only [serveStep] at hs
      split at hs
      · rename_i hpc
        cases hs
        rw [Serving, hpc] at h
        exact h
      · cases hs
  | unload =>
      cases hs
      exact h
  | unloadSeen =>
      simp only [serveStep] at hs
      split at hs
      · rename_i hpc
        rw [Serving, hpc] at h
        split_ifs at hs
        cases hs
        exact h
      · cases hs

theorem Serving.ordered (h : Serving genericPowerDevice cfg s) :
    EachEvent (InOrder genericPowerDevice cfg) s.log
      ∧ Alternating ServeEvent.mark s.log := by
  unfold Serving at h
  split at h
  · exact ⟨h.order, h.alternating⟩
  · exact ⟨h.order, h.alternating⟩
  · obtain ⟨done, q, rest, -, -, hround⟩ := h
    exact ⟨hround.order, hround.alternating⟩
  · exact h.2
  · exact h
  · exact h

theorem serving_of_reachable (h : (serve genericPowerDevice cfg).Reachable s) :
    Serving genericPowerDevice cfg s := by
  apply Machine.Reach.invariant (P := Serving genericPowerDevice cfg) ?_ ?_ h
  · rintro s ⟨hpc, hlog⟩
    rw [Serving, hpc, hlog]
    exact ⟨rfl, trivial, alternating_nil, rfl⟩
  · intro s i t hinv _ hs
    exact hinv.step hs

end Invariant

/-! ## Every run -/

/-- Puts an advertisement out. -/
def ServeQuery.starts : ServeQuery → Bool
  | advertise .. | advertiseExt .. => true
  | _ => false

section Every

variable {genericPowerDevice : UInt16} {cfg : RuntimeCfg}

/-- What `runtime_ble_init` sees to. -/
theorem accepted_cfg {c : RuntimeBleConfig} (h : runtimeBleInit (some c) = .ok cfg) :
    (cfg.advFilterPolicy ≠ 0 → cfg.advAcceptAddress.isSome = true)
      ∧ (cfg.periodicAdv ≠ 0 → cfg.nonconnectable ≠ 0) := by
  simp only [runtimeBleInit] at h
  split_ifs at h with habi hbad
  cases h
  simp only [not_or, not_and_or, not_not] at hbad
  obtain ⟨-, -, -, -, -, -, -, -, hperiodic, hfilter⟩ := hbad
  refine ⟨fun hpolicy => ?_, fun hset => (hperiodic.resolve_left hset).2⟩
  exact Option.isSome_iff_ne_none.mpr (hfilter.resolve_left hpolicy)

theorem mem_grantedLog {q : ServeQuery} {es : List (String ⊕ ServeQuery)} (h : .inr q ∈ es) :
    .line (.answered q true) ∈ grantedLog es := by
  simp only [grantedLog, granted, List.mem_reverse, List.mem_map]
  exact ⟨_, ⟨_, h, rfl⟩, rfl⟩

/-- The accept list comes first in a script that has a policy. -/
theorem acceptList_before {done rest : List (String ⊕ ServeQuery)} {q : ServeQuery}
    (hpolicy : cfg.advFilterPolicy ≠ 0) (hpeer : cfg.advAcceptAddress.isSome = true)
    (hscript : script genericPowerDevice cfg = done ++ .inr q :: rest)
    (hstarts : q.starts = true) :
    ∃ peer, .inr (.setFilterAcceptList [peer]) ∈ done := by
  obtain ⟨addr, haddr⟩ := Option.isSome_iff_exists.mp hpeer
  have hfirst : acceptScript cfg
      = [.inr (.setFilterAcceptList [{ kind := cAddrKind cfg.advAcceptAddressKind, addr }])] := by
    simp [acceptScript, hpolicy, advAcceptPeer, haddr]
  rw [script, hfirst] at hscript
  cases done with
  | nil =>
      cases (List.cons.inj hscript).1
      cases hstarts
  | cons e done =>
      cases (List.cons.inj hscript).1
      exact ⟨_, List.mem_cons_self⟩

/-- Periodic advertising is for scripts that end without a connection. -/
theorem command_mem_script {cmd : PeriodicCommand}
    (h : .inr (.command cmd) ∈ script genericPowerDevice cfg) : cfg.periodicAdv ≠ 0 := by
  intro hzero
  have hperiodic : periodicScript cfg = [] := if_pos hzero
  rw [script, List.mem_append] at h
  rcases h with h | h
  · unfold acceptScript at h
    split_ifs at h
    · cases h
    · obtain ⟨peer, -, heq⟩ := List.mem_map.mp h
      cases heq
  · cases hstarted : serveAdvertisement genericPowerDevice cfg with
    | error err =>
        rw [hstarted] at h
        cases h
    | ok started =>
        rw [hstarted] at h
        simp only [startScript, hperiodic] at h
        split_ifs at h <;> simp at h

/-- **Advertising in order**, over any run: what the host is asked for
follows the script of the configuration, each question behind those before
it, all granted; a connection is reported behind a whole script, and its end
before the next attempt; an attempt that has failed is followed by a pause.
A configuration that `runtime_ble_init` has accepted is not advertised with
a filter policy before the accept list is set, and has no periodic
advertising where it is connectable. -/
theorem serve_in_order {s : Server} (h : (serve genericPowerDevice cfg).Reachable s) :
    EachEvent (InOrder genericPowerDevice cfg) s.log
    ∧ Alternating ServeEvent.mark s.log
    ∧ ∀ c, runtimeBleInit (some c) = .ok cfg → ∀ post q ok pre,
        s.log = post ++ .line (.answered q ok) :: pre →
          (q.starts = true → cfg.advFilterPolicy ≠ 0 →
            ∃ peer, .line (.answered (.setFilterAcceptList [peer]) true)
              ∈ since ServeEvent.ends pre)
          ∧ (∀ cmd, q = .command cmd → cfg.nonconnectable ≠ 0) := by
  obtain ⟨horder, halternating⟩ := (serving_of_reachable h).ordered
  refine ⟨horder, halternating, ?_⟩
  intro c haccepted post q ok pre hlog
  obtain ⟨haccept, hperiodic⟩ := accepted_cfg haccepted
  rw [hlog] at horder
  obtain ⟨done, rest, hscript, hround⟩ := horder.of_append
  constructor
  · intro hstarts hpolicy
    obtain ⟨peer, hpeer⟩ := acceptList_before hpolicy (haccept hpolicy) hscript hstarts
    rw [hround]
    exact ⟨peer, mem_grantedLog hpeer⟩
  · rintro cmd rfl
    have hmem : .inr (.command cmd) ∈ script genericPowerDevice cfg := by
      rw [hscript]
      exact List.mem_append_right _ List.mem_cons_self
    exact hperiodic (command_mem_script hmem)

end Every

/-- A refused attempt, and one that ends in a connection. -/
theorem serve_in_order_retried :
    ∃ cfg, runtimeBleInit (some { abiVersion := 1, adv :=
        { filterPolicy := 2, acceptAddress := some #v[1, 2, 3, 4, 5, 6],
          acceptAddressKind := 1 } }) = .ok cfg
    ∧ ∃ s, (serve 0x0500 cfg).Reachable s
      ∧ s.log.countP ServeEvent.ends = 1 ∧ s.log.filterMap ServeEvent.mark = [true]
      ∧ EachEvent (InOrder 0x0500 cfg) s.log ∧ Alternating ServeEvent.mark s.log := by
  refine ⟨_, rfl, ?_⟩
  have hexec : ∀ cfg, runtimeBleInit (some { abiVersion := 1, adv :=
      { filterPolicy := 2, acceptAddress := some #v[1, 2, 3, 4, 5, 6],
          acceptAddressKind := 1 } }) = .ok cfg →
      ((serve 0x0500 cfg).exec {} [.go, .answer true, .answer false, .wake, .go, .answer true,
        .answer true, .answer true]).map (fun s => decide (s.log.countP ServeEvent.ends = 1
          ∧ s.log.filterMap ServeEvent.mark = [true])) = some true := by
    rintro _ ⟨⟩
    decide
  obtain ⟨s, hreach, hs⟩ := Machine.exists_reachable_of_exec _
    (show (serve 0x0500 _).init {} from ⟨rfl, rfl⟩) (hexec _ rfl)
  obtain ⟨hends, hmark⟩ := of_decide_eq_true hs
  obtain ⟨horder, halternating, -⟩ := serve_in_order hreach
  exact ⟨s, hreach, hends, hmark, horder, halternating⟩

end RuntimeBle.Adv
