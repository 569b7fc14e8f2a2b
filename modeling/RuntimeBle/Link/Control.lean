import RuntimeBle.Lib.Dialogue
import RuntimeBle.Lib.History
import RuntimeBle.Lib.Machine
import RuntimeBle.Request.Consumers

/-!
# Link — Control

The link commands in the two loops that take them: `link_control` next to
the event loop of `connection_task`, and the tick of
`central_connection_events`, which is raced against the next connection
event and dropped when the event is first.

The commands are those of `linkControlOnce`. The 400 ms report of the ATT
MTU is left out.
-/

namespace RuntimeBle.Link

open RuntimeBle.Lib RuntimeBle.Request

/-! ## The operations -/

/-- The operations of the stack that `link_control_once` awaits. -/
inductive LinkQuery where
  | setPhy (phy : PhyKind)
  | updateDataLength (octets timeUs : UInt16)
  | updateConnectionParams (params : RequestedConnParams)
  | updateFrameSpace (minUs maxUs : Nat) (phys : PhyMask) (types : SpacingTypes)
  | requestConnectionRate (params : ConnectRateParams)
  | rssi
  | readPhy

/-- `none` and `false` are errors. -/
def LinkQuery.Answer : LinkQuery → Type
  | rssi => Option Int8
  | readPhy => Option (PhyKind × PhyKind)
  | _ => Bool

/-- What is done at once: callbacks, log lines, and the calls that the
stack does not make wait. -/
inductive LinkAction where
  | onRssi (rssi : Int8)
  | onPhyUpdate (tx rx : UInt8)
  | onLog (line : String)
  | requestSecurity
  | passKeyConfirm
  | passKeyCancel
  | passKeyInput (passkey : Nat)
  | emitAttMtu
  | emitSecurityState
deriving DecidableEq

/-- `phy_to_c`: both codings are 3. -/
def phyToC : PhyKind → UInt8
  | .le1M => 1
  | .le2M => 2
  | .leCoded | .leCodedS2 => 3

/-- The callback for the result of an operation, if it is `Ok`. -/
def resultCallback : (q : LinkQuery) → q.Answer → List LinkAction
  | .rssi, some rssi => [.onRssi rssi]
  | .readPhy, some (tx, rx) => [.onPhyUpdate (phyToC tx) (phyToC rx)]
  | _, _ => []

/-- The awaits of an operation, and what it does between them. -/
abbrev LinkDialogue := Dialogue LinkQuery LinkQuery.Answer LinkAction Unit

/-- An operation of one await, with the callback for its result. -/
def awaitOp (q : LinkQuery) : LinkDialogue := .ask q fun a => .emits (resultCallback q a) (.ret ())

/-- An operation that awaits nothing. -/
def atOnce (as : List LinkAction) : LinkDialogue := .emits as (.ret ())

/-- What `link_control_once` does for a command. -/
def linkDialogue : LinkOp → LinkDialogue
  | .setPhy phy => awaitOp (.setPhy phy)
  | .updateDataLength octets timeUs => awaitOp (.updateDataLength octets timeUs)
  | .updateConnectionParams params => awaitOp (.updateConnectionParams params)
  | .invalidConnectionParams => atOnce [.onLog "[link] invalid connection params"]
  | .updateFrameSpace minUs maxUs phys types => awaitOp (.updateFrameSpace minUs maxUs phys types)
  | .invalidFrameSpacing => atOnce [.onLog "[link] invalid frame spacing"]
  | .requestConnectionRate params => awaitOp (.requestConnectionRate params)
  | .invalidConnectionRate => atOnce [.onLog "[link] invalid connection rate"]
  | .requestSecurity => atOnce [.requestSecurity]
  | .passKeyConfirm => atOnce [.passKeyConfirm]
  | .passKeyCancel => atOnce [.passKeyCancel]
  | .passKeyInput passkey => atOnce [.passKeyInput passkey]
  | .readRssi => awaitOp .rssi
  | .readAttMtu => atOnce [.emitAttMtu]
  | .readPhy => awaitOp .readPhy
  | .readSecurity => atOnce [.emitSecurityState]
  | .ignored => atOnce []

/-! ## The loops -/

/-- The loops that take link commands. -/
inductive ControlLoop where
  | linkControl
  | centralConnectionEvents
deriving DecidableEq

/-- What the loop does and hears. -/
inductive ControlEvent where
  | taken (op : LinkOp)
  | line (l : Dialogue.Line LinkQuery LinkQuery.Answer LinkAction)
  | ended
  | closed

/-- Before the `swap`, in an operation, in the 20 ms; the link is gone or
unload is seen. -/
inductive ControlPc where
  | polling
  | working (left : LinkDialogue)
  | sleeping
  | closed

/-- `linkCmd` is `LINK_CMD`. The log has the newest event first. -/
structure Control where
  linkCmd : Nat := 0
  params : ReqParams
  pc : ControlPc := .polling
  log : List ControlEvent := []

/-- `request` and `write`: callers fill the slot and change parameters.
`event` is a connection event. `close` is one that ends the link, an unload,
or `run_central_conn` returning by another branch of its `select3`: whatever
drops the loop. -/
inductive ControlLabel where
  | request (cmd : Nat)
  | write (p : ReqParams)
  | poll
  | answer (f : (q : LinkQuery) → q.Answer)
  | wake
  | event
  | close

/-- An operation goes on to its next question, or to its end. -/
def Control.proceed (s : Control) (d : LinkDialogue) : Control :=
  let log := (d.flush.1.map fun a => .line (.said a)).reverse ++ s.log
  match d.flush.2 with
  | .ret _ => { s with pc := .sleeping, log := .ended :: log }
  | left => { s with pc := .working left, log }

section Step

variable (loop : ControlLoop) (isValid : RequestedConnParams → Bool)

/-- A step that is not enabled changes nothing. -/
def controlStep (s : Control) : ControlLabel → Control
  | .request cmd => if s.linkCmd = 0 then { s with linkCmd := cmd } else s
  | .write p => { s with params := p }
  | .poll =>
      match s.pc with
      | .polling =>
          if s.linkCmd = 0 then { s with pc := .sleeping }
          else
            let op := (linkControlOnce isValid s.linkCmd).eval s.params
            Control.proceed { s with linkCmd := 0, log := .taken op :: s.log } (linkDialogue op)
      | _ => s
  | .answer f =>
      match s.pc with
      | .working (.ask q next) =>
          Control.proceed { s with log := .line (.answered q (f q)) :: s.log } (next (f q))
      | _ => s
  | .wake =>
      match s.pc with
      | .sleeping => { s with pc := .polling }
      | _ => s
  | .event =>
      match loop, s.pc with
      | .linkControl, _ | _, .closed => s
      -- the tick is dropped where it stands, and the next one begins
      | .centralConnectionEvents, _ => { s with pc := .polling }
  | .close =>
      match s.pc with
      | .closed => s
      | _ => { s with pc := .closed, log := .closed :: s.log }

end Step

/-! ## Carried through -/

namespace ControlEvent

/-- A command is taken. -/
def isTaken : ControlEvent → Bool
  | taken _ => true
  | _ => false

/-- The operation of a command that is taken. -/
def op : ControlEvent → Option LinkOp
  | taken op => some op
  | _ => none

end ControlEvent

/-- A line of an operation's transcript. -/
abbrev LinkLine := Dialogue.Line LinkQuery LinkQuery.Answer LinkAction

/-- The command taken last, and what has happened since. -/
def lastOp (log : List ControlEvent) : Option LinkOp := log.findSome? ControlEvent.op

/-- What was done for the last command. -/
def sinceTaken (log : List ControlEvent) : List ControlEvent := since ControlEvent.isTaken log

/-- The lines of a part of a run, in the log. -/
def logged (ls : List LinkLine) : List ControlEvent := (ls.map .line).reverse

/-- The command taken last has been carried through to its result, every
question answered and the callback made, or the link has ended on it. -/
def Settled (log : List ControlEvent) : Prop :=
  ∀ op, lastOp log = some op →
    .closed ∈ sinceTaken log
    ∨ ∃ ls, (linkDialogue op).Plays ls (.ret ()) ∧ sinceTaken log = .ended :: logged ls

/-- The command taken last is under way, with `left` to do. -/
def UnderWay (log : List ControlEvent) (left : LinkDialogue) : Prop :=
  ∃ op ls, lastOp log = some op ∧ (linkDialogue op).Plays ls left ∧ sinceTaken log = logged ls

/-- An operation is under way. -/
def ControlPc.isWorking : ControlPc → Bool
  | working _ => true
  | _ => false

/-- Every command was carried through before the next was taken, and so
was the last one unless it is under way. -/
structure Control.CarriesThrough (s : Control) : Prop where
  before : EachEvent (fun e log => e.isTaken = true → Settled log) s.log
  last : s.pc.isWorking = false → Settled s.log

/-- No connection event arrives on the central's link while a stack
operation is under way. -/
def undisturbed (loop : ControlLoop) (s : Control) : ControlLabel → Prop
  | .event => loop = .centralConnectionEvents → s.pc.isWorking = false
  | _ => True

section Log

variable {log : List ControlEvent} {ls ls' : List LinkLine} {left : LinkDialogue}

theorem not_isTaken_logged : ∀ e ∈ logged ls, e.isTaken = false := by
  intro e he
  obtain ⟨l, -, rfl⟩ := List.mem_map.mp (List.mem_reverse.mp he)
  rfl

theorem logged_append : logged (ls ++ ls') = logged ls' ++ logged ls := by
  rw [logged, List.map_append, List.reverse_append]
  rfl

theorem sinceTaken_logged : sinceTaken (logged ls ++ log) = logged ls ++ sinceTaken log :=
  since_append_of_not not_isTaken_logged

theorem lastOp_logged : lastOp (logged ls ++ log) = lastOp log := by
  have hnone : (logged ls).findSome? ControlEvent.op = none := by
    rw [List.findSome?_eq_none_iff]
    intro e he
    obtain ⟨l, -, rfl⟩ := List.mem_map.mp (List.mem_reverse.mp he)
    rfl
  rw [lastOp, List.findSome?_append, hnone]
  rfl

theorem UnderWay.plays {d : LinkDialogue} (h : UnderWay log d) (hd : d.Plays ls left) :
    UnderWay (logged ls ++ log) left := by
  obtain ⟨op, ls₀, hop, hplays, hsince⟩ := h
  refine ⟨op, ls₀ ++ ls, lastOp_logged.trans hop, hplays.trans hd, ?_⟩
  rw [sinceTaken_logged, hsince, logged_append]

theorem UnderWay.ended (h : UnderWay log (.ret ())) : Settled (.ended :: log) := by
  obtain ⟨op, ls, hop, hplays, hsince⟩ := h
  intro op' hop'
  cases hop.symm.trans hop'
  refine .inr ⟨ls, hplays, ?_⟩
  rw [sinceTaken, since_cons_of_not rfl, ← hsince]
  rfl

theorem UnderWay.not_settled (h : UnderWay log left) : ¬ Settled log := by
  obtain ⟨op, ls, hop, -, hsince⟩ := h
  intro hsettled
  have hlines : ∀ e ∈ sinceTaken log, ∃ l, e = .line l := by
    intro e he
    rw [hsince] at he
    obtain ⟨l, -, rfl⟩ := List.mem_map.mp (List.mem_reverse.mp he)
    exact ⟨l, rfl⟩
  rcases hsettled op hop with hclosed | ⟨ls', -, hended⟩
  · obtain ⟨l, hl⟩ := hlines _ hclosed
    cases hl
  · obtain ⟨l, hl⟩ := hlines .ended (by rw [hended]; exact List.mem_cons_self)
    cases hl

end Log

/-! ## The invariant -/

/-- Commands are taken one behind the other: what came before a command is
settled, and so is what came before a rest. -/
structure Control.Steady (s : Control) : Prop where
  before : EachEvent (fun e log => e.isTaken = true → Settled log) s.log
  working : ∀ left, s.pc = .working left → UnderWay s.log left
  resting : s.pc.isWorking = false → Settled s.log

section Invariant

variable {loop : ControlLoop} {isValid : RequestedConnParams → Bool} {s : Control}

theorem Control.Steady.proceed {d : LinkDialogue}
    (hbefore : EachEvent (fun e log => e.isTaken = true → Settled log) s.log)
    (hd : UnderWay s.log d) : (s.proceed d).Steady := by
  have hflush : UnderWay (logged (d.flush.1.map .said) ++ s.log) d.flush.2 :=
    hd.plays (Dialogue.plays_flush d)
  have hlog : logged (d.flush.1.map .said)
      = (d.flush.1.map fun a => ControlEvent.line (.said a)).reverse := by
    rw [logged, List.map_map]
    rfl
  have hbefore' := hbefore.append_of_not (logged (d.flush.1.map .said)) not_isTaken_logged
  rw [hlog] at hflush hbefore'
  unfold Control.proceed
  rcases d.flush_cases with ⟨r, hret⟩ | ⟨q, next, hask⟩
  · rw [hret] at hflush ⊢
    exact ⟨⟨nofun, hbefore'⟩, nofun, fun _ => hflush.ended⟩
  · rw [hask] at hflush ⊢
    refine ⟨hbefore', ?_, nofun⟩
    intro left hleft
    cases hleft
    exact hflush

theorem Control.Steady.step {i : ControlLabel} (h : s.Steady) (hok : undisturbed loop s i) :
    (controlStep loop isValid s i).Steady := by
  cases i with
  | request cmd =>
      simp only [controlStep]
      split
      · exact ⟨h.before, h.working, h.resting⟩
      · exact h
  | write p => exact ⟨h.before, h.working, h.resting⟩
  | poll =>
      simp only [controlStep]
      split
      · rename_i hpc
        -- the loop rests at its poll, so what came before is settled
        have hlast : Settled s.log := h.resting (by rw [hpc]; rfl)
        split
        · exact ⟨h.before, nofun, fun _ => hlast⟩
        · exact Control.Steady.proceed ⟨fun _ => hlast, h.before⟩ ⟨_, [], rfl, .refl, rfl⟩
      · exact h
  | answer f =>
      simp only [controlStep]
      split
      · rename_i q next hpc
        have hline : (Dialogue.ask q next).Plays [.answered q (f q)] (next (f q)) :=
          .ask (f q) .refl
        exact Control.Steady.proceed ⟨nofun, h.before⟩ ((h.working _ hpc).plays hline)
      · exact h
  | wake =>
      simp only [controlStep]
      split
      · rename_i hpc
        exact ⟨h.before, nofun, fun _ => h.resting (by rw [hpc]; rfl)⟩
      · exact h
  | event =>
      simp only [controlStep]
      split
      · exact h
      · exact h
      · rename_i hpc
        exact ⟨h.before, nofun, fun _ => h.resting (hok rfl)⟩
  | close =>
      simp only [controlStep]
      split
      · exact h
      · refine ⟨⟨nofun, h.before⟩, nofun, fun _ op _ => .inl ?_⟩
        rw [sinceTaken, since_cons_of_not rfl]
        exact List.mem_cons_self

/-- An event that drops an operation leaves its command behind. -/
theorem undisturbed_of_carriesThrough {i : ControlLabel} (h : s.Steady)
    (ht : (controlStep loop isValid s i).CarriesThrough) : undisturbed loop s i := by
  cases i with
  | event =>
      rintro rfl
      cases hpc : s.pc with
      | working left =>
          have hlast := ht.last
          simp only [controlStep, hpc] at hlast
          exact absurd (hlast rfl) (h.working left hpc).not_settled
      | polling | sleeping | closed => rfl
  | _ => trivial

theorem steady_start (p : ReqParams) : Control.Steady { params := p } :=
  ⟨trivial, nofun, nofun⟩

/-- `link_control` carries every command through. -/
theorem linkControl_carries (p : ReqParams) (run : List ControlLabel) :
    Always (controlStep .linkControl isValid) Control.CarriesThrough { params := p } run := by
  have hok : ∀ (run : List ControlLabel) (s : Control),
      EachStep (controlStep .linkControl isValid) (undisturbed .linkControl) s run := by
    intro run
    induction run with
    | nil => intro s; trivial
    | cons i run ih =>
        intro s
        refine ⟨?_, ih _⟩
        cases i <;> first | trivial | nofun
  have hsteady := EachStep.always (fun s i hs hok => Control.Steady.step hs hok) (steady_start p)
    (hok run { params := p })
  exact hsteady.mono fun s hs => ⟨hs.before, hs.resting⟩

/-- **Link commands are carried through** in a run, on either link, exactly
when no connection event arrives on the central's link while a stack
operation of `link_control_once` is under way. -/
theorem commands_carried_iff (p : ReqParams) (run : List ControlLabel) :
    Always (controlStep loop isValid) Control.CarriesThrough { params := p } run
      ↔ EachStep (controlStep loop isValid) (undisturbed loop) { params := p } run := by
  refine always_iff_eachStep ?_ ?_ ?_ run _ (steady_start p)
  · intro s hs
    exact ⟨hs.before, hs.resting⟩
  · intro s i hs hok
    exact hs.step hok
  · intro s i hs ht
    exact undisturbed_of_carriesThrough hs ht

/-- An event behind the request of `rssi`: there is no answer, and no
`on_rssi`. -/
theorem rssi_dropped_by_event :
    ¬ Always (controlStep .centralConnectionEvents fun _ => true) Control.CarriesThrough
      { params := bootMem.params } [.request lcmdReadRssi, .poll, .event] := by
  rintro ⟨-, -, -, h⟩
  rcases h.last rfl .readRssi rfl with hclosed | ⟨ls, -, hended⟩
  · cases hclosed
  · cases hended

end Invariant

end RuntimeBle.Link
