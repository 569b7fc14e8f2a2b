import Mathlib.Logic.Function.Basic
import RuntimeBle.Config
import RuntimeBle.Lib.Brackets
import RuntimeBle.Lib.Machine

/-!
# Session — Callbacks

`serve_session` and `serve_central` as what they are: futures in nested
`select`s and `join`s. A `select` ends with the first of its futures and
drops the others where they stand, so a callback behind an `await` is made
only if the future gets there.

The log has a callback whether or not the application has set it, and tells
which of the two link loops made it.
-/

namespace RuntimeBle.Session

open RuntimeBle.Lib

/-! ## Callbacks -/

/-- `serve` and `central_loop`. -/
inductive LinkLoop where
  | serve
  | central
deriving DecidableEq

/-- The callbacks that tell of a link and of its channel, by the loop that
makes them. -/
inductive LinkCallback where
  | onConnected (l : LinkLoop)
  | onDisconnected (l : LinkLoop)
  | onL2capConnected (l : LinkLoop)
  | onL2capDisconnected (l : LinkLoop)
deriving DecidableEq

/-- What is opened by one callback and closed by another. -/
inductive Bracket where
  | link (l : LinkLoop)
  | channel (l : LinkLoop)
deriving DecidableEq

namespace LinkCallback

/-- What it tells of. -/
def bracket : LinkCallback → Bracket
  | onConnected l | onDisconnected l => .link l
  | onL2capConnected l | onL2capDisconnected l => .channel l

/-- It tells that the link or the channel is there. -/
def opens : LinkCallback → Bool
  | onConnected _ | onL2capConnected _ => true
  | onDisconnected _ | onL2capDisconnected _ => false

end LinkCallback

/-- The callbacks of one bracket, read as opening and closing. -/
def Bracket.mark (k : Bracket) (e : LinkCallback) : Option Bool :=
  if e.bracket = k then some e.opens else none

/-! ## The futures -/

/-- The L2CAP future of a link: not there (no feature or no PSM), before
the channel (`listener.accept`, `L2capChannel::create`), in the 200 ms after
a failed accept, in `l2cap_serve`. -/
inductive ChannelPc where
  | off
  | waiting
  | pausing
  | serving
deriving DecidableEq

/-- Where a link loop is: at its head, in `wait_idle_cmd`, in `run_scan`,
advertising or connecting, in the second after a failure, in
`run_connection` or `run_central_conn`. -/
inductive LoopPc where
  | absent
  | head
  | idle
  | scanning
  | linking
  | pausing
  | linked (channel : ChannelPc)
  | returned
deriving DecidableEq

namespace LoopPc

/-- The loop is inside `run_connection` or `run_central_conn`. -/
def linkUp : LoopPc → Bool
  | linked _ => true
  | _ => false

/-- The loop is inside `l2cap_serve`. -/
def channelUp : LoopPc → Bool
  | linked .serving => true
  | _ => false

theorem channelUp_of_linkUp {pc : LoopPc} (h : pc.linkUp = false) : pc.channelUp = false := by
  cases pc <;> first | rfl | cases h

end LoopPc

/-- `auto`: `central_loop` has yet to connect to the configured peer. The
`done` fields tell which of the other futures have ended, `finished` that
`block_on` has returned, `unloaded` that `runtime_ble_unload` has. -/
structure Links where
  pc : LinkLoop → LoopPc
  auto : Bool := false
  runnerDone : Bool := false
  bondAdminDone : Bool := false
  waitUnloadDone : Bool := false
  unloadReq : Bool := false
  finished : Bool := false
  unloaded : Bool := false
  log : List LinkCallback := []

/-- Why the futures of a link or of a channel end: by what the host says of
it, or because their `wait_unload` sees the request. -/
inductive Ending where
  | host
  | unload
deriving DecidableEq

/-- `look`: the head of a `serve` that does not connect. `advertise`: one
of the two functions that advertise returns. `connectionTask`: it returns. -/
inductive ServeMove where
  | look
  | advertise (ok : Bool)
  | pause
  | connectionTask (e : Ending)
  | accept (ok : Bool)
  | acceptPause
  | l2capServe (e : Ending)

/-- What `wait_idle_cmd` returns; `none` once unload is requested. -/
inductive IdleResult where
  | connect
  | scanStart

/-- `connTask`: `client_session`, `central_connection_events` or the
`wait_unload` next to them returns. -/
inductive CentralMove where
  | look
  | idleCmd (cmd : Option IdleResult)
  | scan (connect : Bool)
  | connect (ok : Bool)
  | pause
  | connTask (e : Ending)
  | create (ok : Bool)
  | l2capServe (e : Ending)

/-- The unload's two steps, and what the futures of the session may do. -/
inductive LinksLabel where
  | unload
  | unloadReturns
  | serve (m : ServeMove)
  | central (m : CentralMove)
  | runner
  | bondAdmin
  | waitUnload

namespace Links

/-- One loop moves on. -/
def goTo (s : Links) (l : LinkLoop) (pc : LoopPc) : Links :=
  { s with pc := Function.update s.pc l pc }

/-- A callback is made. -/
def call (s : Links) (e : LinkCallback) : Links := { s with log := e :: s.log }

/-- A link is there, and is told. -/
def linkBegins (s : Links) (l : LinkLoop) (channel : ChannelPc) : Links :=
  (s.call (.onConnected l)).goTo l (.linked channel)

/-- A link is over, and is told. -/
def linkEnds (s : Links) (l : LinkLoop) (pc : LoopPc) : Links :=
  (s.call (.onDisconnected l)).goTo l pc

/-- A channel is there, and is told. -/
def channelOpens (s : Links) (l : LinkLoop) : Links :=
  (s.call (.onL2capConnected l)).goTo l (.linked .serving)

/-- A channel is over, and is told. -/
def channelCloses (s : Links) (l : LinkLoop) : Links :=
  (s.call (.onL2capDisconnected l)).goTo l (.linked .waiting)

/-- No future of the link that this could end has to wait for a request
not made. -/
def mayEnd (s : Links) : Ending → Bool
  | .host => true
  | .unload => s.unloadReq

end Links

/-! ## The session -/

section Session

variable (b : Build) (cfg : RuntimeCfg)

/-- The session serves channels. -/
def usesL2cap : Bool := b.l2cap && cfg.l2capPsm != 0

/-- The session is `serve_central`. -/
def runsCentral : Bool := b.central && cfg.role == 1

/-- The session serves both roles. -/
def runsDual : Bool := b.central && cfg.role == 2

/-- `if UNLOAD_REQ { break; }` at the end of the loop of `l2cap_peripheral`. -/
def acceptAgain (s : Links) : Links :=
  if s.unloadReq then s.linkEnds .serve .linking else s.goTo .serve (.linked .waiting)

/-- `serve`, and `run_connection` inside it. -/
def serveStep (s : Links) : ServeMove → Option Links
  | .look =>
      if cfg.nonconnectable ≠ 0 ∧ s.pc .serve = .head then
        some (s.goTo .serve (if s.unloadReq then .returned else .linking))
      else none
  | .advertise ok =>
      if s.pc .serve = .linking then
        if !ok then some (s.goTo .serve .pausing)
        else if cfg.nonconnectable ≠ 0 then
          -- `advertise_nonconnectable` succeeds behind its own `wait_unload`
          if s.unloadReq then some (s.goTo .serve .returned) else none
        else some (s.linkBegins .serve (if usesL2cap b cfg then .waiting else .off))
      else none
  | .pause =>
      if s.pc .serve = .pausing then
        some (s.goTo .serve (if cfg.nonconnectable ≠ 0 then .head else .linking))
      else none
  -- an open channel is dropped with the link
  | .connectionTask e =>
      if (s.pc .serve).linkUp ∧ s.mayEnd e then some (s.linkEnds .serve .linking) else none
  | .accept ok =>
      if s.pc .serve = .linked .waiting then
        if ok then some (s.channelOpens .serve) else some (s.goTo .serve (.linked .pausing))
      else none
  | .acceptPause => if s.pc .serve = .linked .pausing then some (acceptAgain s) else none
  | .l2capServe e =>
      if s.pc .serve = .linked .serving ∧ s.mayEnd e then
        some (acceptAgain (s.channelCloses .serve))
      else none

/-- `central_loop`, and `run_central_conn` inside it. -/
def centralStep (s : Links) : CentralMove → Option Links
  | .look =>
      if s.pc .central = .head then
        if s.unloadReq then some (s.goTo .central .returned)
        else if s.auto then some { s.goTo .central .linking with auto := false }
        else some (s.goTo .central .idle)
      else none
  | .idleCmd cmd =>
      if s.pc .central = .idle then
        match cmd with
        | none => if s.unloadReq then some (s.goTo .central .returned) else none
        | some .connect => some (s.goTo .central .linking)
        | some .scanStart => some (s.goTo .central .scanning)
      else none
  | .scan connect =>
      if s.pc .central = .scanning then
        some (s.goTo .central (if connect then .linking else .head))
      else none
  | .connect ok =>
      if s.pc .central = .linking then
        if ok then some (s.linkBegins .central (if usesL2cap b cfg then .waiting else .off))
        else some (s.goTo .central .pausing)
      else none
  | .pause => if s.pc .central = .pausing then some (s.goTo .central .head) else none
  | .connTask e =>
      if (s.pc .central).linkUp ∧ s.mayEnd e then some (s.linkEnds .central .head) else none
  -- `l2cap_central` returns behind its channel or without one, and the link with it
  | .create ok =>
      if s.pc .central = .linked .waiting then
        if ok then some (s.channelOpens .central) else some (s.linkEnds .central .head)
      else none
  | .l2capServe e =>
      if s.pc .central = .linked .serving ∧ s.mayEnd e then
        some ((s.channelCloses .central).linkEnds .central .head)
      else none

/-- One of the futures under `block_on` goes on. -/
def pollStep (s : Links) : LinksLabel → Option Links
  | .serve m => serveStep b cfg s m
  | .central m => centralStep b cfg s m
  | .runner => some { s with runnerDone := true }
  | .bondAdmin => if s.unloadReq then some { s with bondAdminDone := true } else none
  | .waitUnload =>
      if !runsCentral b cfg && s.unloadReq then some { s with waitUnloadDone := true } else none
  | .unload | .unloadReturns => none

/-- The nesting of `select`s and `join`s under `block_on`: is the whole of
it ready? -/
def mainReady (s : Links) : Bool :=
  if runsCentral b cfg then s.runnerDone || s.pc .central == .returned || s.bondAdminDone
  else
    let work := s.runnerDone && s.pc .serve == .returned
    if runsDual b cfg then
      work || s.pc .central == .returned || (s.bondAdminDone || s.waitUnloadDone)
    else work || s.bondAdminDone || s.waitUnloadDone

/-- The thread that unloads, beside the thread that polls. -/
def linksStep (s : Links) (i : LinksLabel) : Option Links :=
  match i with
  | .unload => some { s with unloadReq := true }
  -- the join of the BLE thread
  | .unloadReturns => if s.finished ∧ s.unloadReq then some { s with unloaded := true } else none
  | i =>
      if s.finished then none
      else (pollStep b cfg s i).map fun t => { t with finished := mainReady b cfg t }

/-- The loops before their first poll. -/
def linksStart (unloadReq : Bool) : Links where
  pc
    | .serve =>
        if runsCentral b cfg then .absent else if cfg.nonconnectable ≠ 0 then .head else .linking
    | .central => if runsCentral b cfg || runsDual b cfg then .head else .absent
  auto := cfg.peerAddress.isSome
  unloadReq := unloadReq

/-- `serve_session` returns at once when there is no `Gatt`. -/
def links : Machine Links LinksLabel where
  init s :=
    ∃ unloadReq, s = linksStart b cfg unloadReq ∨
      runsCentral b cfg = false ∧ s = { linksStart b cfg unloadReq with finished := true }
  step := linksStep b cfg

/-! ## What goes wrong -/

/-- Neither loop is inside a link. -/
def Links.noLink (s : Links) : Bool := !(s.pc .serve).linkUp && !(s.pc .central).linkUp

/-- The step does not end a link with its channel open, and if it ends the
session, there is no link. -/
def orderly (s : Links) : LinksLabel → Bool
  | .serve (.connectionTask _) => !(s.pc .serve).channelUp
  | .central (.connTask _) => !(s.pc .central).channelUp
  | .bondAdmin | .waitUnload | .central (.idleCmd none) => s.noLink
  | .central .look => !s.unloadReq || s.noLink
  | .runner => !(runsCentral b cfg || s.pc .serve == .returned) || s.noLink
  -- a `serve` that does not connect returns, and the runner has returned before
  | .serve .look => !(s.unloadReq && s.runnerDone) || s.noLink
  | .serve (.advertise ok) => !(ok && cfg.nonconnectable != 0 && s.runnerDone) || s.noLink
  | _ => true

end Session

theorem Links.pc_goTo_self {s : Links} {l : LinkLoop} {pc : LoopPc} : (s.goTo l pc).pc l = pc :=
  Function.update_self ..

/-! ## What a step does -/

/-- What a step of `l` does to its link: that is all the brackets depend on.
`ok` stands for an orderly step. -/
inductive LoopMove (ok : Prop) (s : Links) (l : LinkLoop) : Links → Prop
  | goesOn {pc : LoopPc} {auto : Bool} (hlink : (s.pc l).linkUp = pc.linkUp)
      (hchannel : (s.pc l).channelUp = pc.channelUp) (hpc : pc ≠ .returned) :
      LoopMove ok s l { s.goTo l pc with auto }
  -- `serve` ends the session only if the runner has ended
  | returns (hdown : (s.pc l).linkUp = false)
      (hclear : ok → (l = .serve → s.runnerDone = true) → s.noLink = true) :
      LoopMove ok s l (s.goTo l .returned)
  | linkBegins {channel : ChannelPc} (hdown : (s.pc l).linkUp = false)
      (hchannel : channel ≠ .serving) : LoopMove ok s l (s.linkBegins l channel)
  | linkEnds {pc : LoopPc} (hup : (s.pc l).linkUp = true)
      (hchannel : ok → (s.pc l).channelUp = false) (hdown : pc.linkUp = false)
      (hpc : pc ≠ .returned) : LoopMove ok s l (s.linkEnds l pc)
  | channelOpens (hpc : s.pc l = .linked .waiting) : LoopMove ok s l (s.channelOpens l)
  | channelCloses (hpc : s.pc l = .linked .serving) : LoopMove ok s l (s.channelCloses l)
  | channelClosesLast {pc : LoopPc} (hserving : s.pc l = .linked .serving)
      (hdown : pc.linkUp = false) (hpc : pc ≠ .returned) :
      LoopMove ok s l ((s.channelCloses l).linkEnds l pc)

section Moves

variable {b : Build} {cfg : RuntimeCfg} {s t : Links} {l : LinkLoop} {ok : Prop}

/-- A loop goes on outside its link. -/
theorem LoopMove.between {pc : LoopPc} (hup : (s.pc l).linkUp = false)
    (hdown : pc.linkUp = false) (hpc : pc ≠ .returned) : LoopMove ok s l (s.goTo l pc) :=
  .goesOn (hup.trans hdown.symm)
    ((LoopPc.channelUp_of_linkUp hup).trans (LoopPc.channelUp_of_linkUp hdown).symm) hpc

theorem usesL2cap_channel_ne :
    (if usesL2cap b cfg then ChannelPc.waiting else .off) ≠ .serving := by
  split <;> nofun

theorem moves_of_serveStep {m : ServeMove} (hs : serveStep b cfg s m = some t) :
    LoopMove (orderly b cfg s (.serve m) = true) s .serve t := by
  cases m with
  | look =>
      simp only [serveStep, Option.ite_none_right_eq_some, Option.some.injEq] at hs
      obtain ⟨⟨-, hpc⟩, rfl⟩ := hs
      have hdown : (s.pc .serve).linkUp = false := by rw [hpc]; rfl
      split
      · rename_i hunload
        -- the loop returns between two links
        refine .returns hdown fun hok hdone => ?_
        simpa [orderly, hunload, hdone rfl] using hok
      · exact .between hdown rfl nofun
  | advertise ok =>
      simp only [serveStep, Option.ite_none_right_eq_some] at hs
      obtain ⟨hpc, hs⟩ := hs
      have hdown : (s.pc .serve).linkUp = false := by rw [hpc]; rfl
      split at hs
      · cases hs
        exact .between hdown rfl nofun
      · rename_i hsome
        split at hs
        · rename_i hnc
          simp only [Option.ite_none_right_eq_some, Option.some.injEq] at hs
          obtain ⟨-, rfl⟩ := hs
          refine .returns hdown fun hok hdone => ?_
          have hok' : ok = true := by simpa using hsome
          simpa [orderly, hok', hnc, hdone rfl] using hok
        · cases hs
          exact .linkBegins hdown usesL2cap_channel_ne
  | pause =>
      simp only [serveStep, Option.ite_none_right_eq_some, Option.some.injEq] at hs
      obtain ⟨hpc, rfl⟩ := hs
      have hdown : (s.pc .serve).linkUp = false := by rw [hpc]; rfl
      split
      · exact .between hdown rfl nofun
      · exact .between hdown rfl nofun
  | connectionTask e =>
      simp only [serveStep, Option.ite_none_right_eq_some, Option.some.injEq] at hs
      obtain ⟨⟨hup, -⟩, rfl⟩ := hs
      exact .linkEnds hup (fun hok => by simpa [orderly] using hok) rfl nofun
  | accept ok =>
      simp only [serveStep, Option.ite_none_right_eq_some] at hs
      obtain ⟨hpc, hs⟩ := hs
      split at hs
      · cases hs
        exact .channelOpens hpc
      · cases hs
        exact .goesOn (by rw [hpc]; rfl) (by rw [hpc]; rfl) nofun
  | acceptPause =>
      simp only [serveStep, Option.ite_none_right_eq_some, Option.some.injEq] at hs
      obtain ⟨hpc, rfl⟩ := hs
      rw [acceptAgain]
      split
      · exact .linkEnds (by rw [hpc]; rfl) (fun _ => by rw [hpc]; rfl) rfl nofun
      · exact .goesOn (by rw [hpc]; rfl) (by rw [hpc]; rfl) nofun
  | l2capServe e =>
      simp only [serveStep, Option.ite_none_right_eq_some, Option.some.injEq] at hs
      obtain ⟨⟨hpc, -⟩, rfl⟩ := hs
      rw [acceptAgain]
      split
      · exact .channelClosesLast hpc rfl nofun
      · -- `l2cap_peripheral` waits for the next channel
        have hagain : (s.channelCloses .serve).goTo .serve (.linked .waiting)
            = s.channelCloses .serve := by
          simp only [Links.channelCloses, Links.goTo, Function.update_idem]
        rw [hagain]
        exact .channelCloses hpc

theorem moves_of_centralStep {m : CentralMove} (hs : centralStep b cfg s m = some t) :
    LoopMove (orderly b cfg s (.central m) = true) s .central t := by
  cases m with
  | look =>
      simp only [centralStep, Option.ite_none_right_eq_some] at hs
      obtain ⟨hpc, hs⟩ := hs
      have hdown : (s.pc .central).linkUp = false := by rw [hpc]; rfl
      split at hs
      · rename_i hunload
        cases hs
        refine .returns hdown fun hok _ => ?_
        simpa [orderly, hunload] using hok
      · split at hs
        · cases hs
          exact .goesOn (by rw [hpc]; rfl) (by rw [hpc]; rfl) nofun
        · cases hs
          exact .between hdown rfl nofun
  | idleCmd cmd =>
      simp only [centralStep, Option.ite_none_right_eq_some] at hs
      obtain ⟨hpc, hs⟩ := hs
      have hdown : (s.pc .central).linkUp = false := by rw [hpc]; rfl
      split at hs
      · split at hs
        · cases hs
          exact .returns hdown fun hok _ => hok
        · cases hs
      · cases hs
        exact .between hdown rfl nofun
      · cases hs
        exact .between hdown rfl nofun
  | scan connect =>
      simp only [centralStep, Option.ite_none_right_eq_some, Option.some.injEq] at hs
      obtain ⟨hpc, rfl⟩ := hs
      have hdown : (s.pc .central).linkUp = false := by rw [hpc]; rfl
      split
      · exact .between hdown rfl nofun
      · exact .between hdown rfl nofun
  | connect ok =>
      simp only [centralStep, Option.ite_none_right_eq_some] at hs
      obtain ⟨hpc, hs⟩ := hs
      have hdown : (s.pc .central).linkUp = false := by rw [hpc]; rfl
      split at hs
      · cases hs
        exact .linkBegins hdown usesL2cap_channel_ne
      · cases hs
        exact .between hdown rfl nofun
  | pause =>
      simp only [centralStep, Option.ite_none_right_eq_some, Option.some.injEq] at hs
      obtain ⟨hpc, rfl⟩ := hs
      exact .between (by rw [hpc]; rfl) rfl nofun
  | connTask e =>
      simp only [centralStep, Option.ite_none_right_eq_some, Option.some.injEq] at hs
      obtain ⟨⟨hup, -⟩, rfl⟩ := hs
      exact .linkEnds hup (fun hok => by simpa [orderly] using hok) rfl nofun
  | create ok =>
      simp only [centralStep, Option.ite_none_right_eq_some] at hs
      obtain ⟨hpc, hs⟩ := hs
      split at hs
      · cases hs
        exact .channelOpens hpc
      · cases hs
        exact .linkEnds (by rw [hpc]; rfl) (fun _ => by rw [hpc]; rfl) rfl nofun
  | l2capServe e =>
      simp only [centralStep, Option.ite_none_right_eq_some, Option.some.injEq] at hs
      obtain ⟨⟨hpc, -⟩, rfl⟩ := hs
      exact .channelClosesLast hpc rfl nofun

/-- A step of the session is one of a link loop, or leaves both of them and
the log alone. -/
theorem moves_of_linksStep {i : LinksLabel} (hs : linksStep b cfg s i = some t) :
    t.log = s.log ∧ t.pc = s.pc ∨
      ∃ l u, LoopMove (orderly b cfg s i = true) s l u ∧ t.log = u.log ∧ t.pc = u.pc := by
  have hpoll : ∀ u, pollStep b cfg s i = some u →
      u.log = s.log ∧ u.pc = s.pc ∨ ∃ l, LoopMove (orderly b cfg s i = true) s l u := by
    intro u hu
    cases i with
    | serve m => exact .inr ⟨.serve, moves_of_serveStep hu⟩
    | central m => exact .inr ⟨.central, moves_of_centralStep hu⟩
    | runner =>
        cases hu
        exact .inl ⟨rfl, rfl⟩
    | bondAdmin | waitUnload =>
        simp only [pollStep, Option.ite_none_right_eq_some, Option.some.injEq] at hu
        obtain ⟨-, rfl⟩ := hu
        exact .inl ⟨rfl, rfl⟩
    | unload | unloadReturns => cases hu
  unfold linksStep at hs
  split at hs
  · cases hs
    exact .inl ⟨rfl, rfl⟩
  · simp only [Option.ite_none_right_eq_some, Option.some.injEq] at hs
    obtain ⟨-, rfl⟩ := hs
    exact .inl ⟨rfl, rfl⟩
  · split at hs
    · cases hs
    · obtain ⟨u, hu, rfl⟩ := Option.map_eq_some_iff.mp hs
      rcases hpoll u hu with hquiet | ⟨l, hmove⟩
      · exact .inl hquiet
      · exact .inr ⟨l, u, hmove, rfl, rfl⟩

end Moves

/-! ## Brackets over a step -/

/-- Is it open as the futures stand? -/
def Links.up (s : Links) : Bracket → Bool
  | .link l => (s.pc l).linkUp
  | .channel l => (s.pc l).channelUp

/-- The callbacks of `k` alternate, and the log and the futures agree on
whether it is open. -/
def Links.Tracks (s : Links) (k : Bracket) : Prop :=
  Alternating k.mark s.log ∧ isOpen k.mark s.log = s.up k

section Tracks

variable {s t : Links} {k : Bracket} {l : LinkLoop} {e : LinkCallback}

theorem up_goTo (pc : LoopPc) : (s.goTo l pc).up k =
    if .link l = k then pc.linkUp else if .channel l = k then pc.channelUp else s.up k := by
  cases k with
  | link l' => by_cases h : l = l' <;> simp [Links.up, Links.goTo, h, eq_comm]
  | channel l' => by_cases h : l = l' <;> simp [Links.up, Links.goTo, h, eq_comm]

theorem Links.Tracks.quiet (h : s.Tracks k) (hlog : t.log = s.log) (hup : t.up k = s.up k) :
    t.Tracks k := by
  rw [Links.Tracks, hlog, hup]
  exact h

/-- The other futures have no part in it. -/
theorem Links.Tracks.samePc (h : s.Tracks k) (hlog : t.log = s.log) (hpc : t.pc = s.pc) :
    t.Tracks k := by
  apply h.quiet hlog
  cases k with
  | link l => exact congrArg (fun pc => (pc l).linkUp) hpc
  | channel l => exact congrArg (fun pc => (pc l).channelUp) hpc

/-- A callback opens what is closed, or closes what is open. -/
theorem Links.Tracks.called (h : s.Tracks k) (hlog : t.log = e :: s.log)
    (hturn : e.bracket = k → s.up k = !e.opens)
    (hup : t.up k = if e.bracket = k then e.opens else s.up k) : t.Tracks k := by
  rw [Links.Tracks, hlog, hup]
  by_cases hk : e.bracket = k
  · have hmark : k.mark e = some e.opens := if_pos hk
    rw [if_pos hk]
    exact ⟨h.1.cons_of_mark hmark (h.2.trans (hturn hk)), isOpen_cons_of_mark hmark⟩
  · have hmark : k.mark e = none := if_neg hk
    rw [if_neg hk]
    exact ⟨h.1.cons_of_unmarked hmark, (isOpen_cons_of_unmarked hmark).trans h.2⟩

theorem up_of_noLink (h : s.noLink = true) (k : Bracket) : s.up k = false := by
  simp only [Links.noLink, Bool.and_eq_true, Bool.not_eq_true'] at h
  have hdown : ∀ l, (s.pc l).linkUp = false := by
    rintro (_ | _)
    · exact h.1
    · exact h.2
  cases k with
  | link l => exact hdown l
  | channel l => exact LoopPc.channelUp_of_linkUp (hdown l)

/-- A loop goes on outside its link, or within it outside `l2cap_serve`. -/
theorem Links.Tracks.goTo {pc : LoopPc} (h : s.Tracks k) (hlink : (s.pc l).linkUp = pc.linkUp)
    (hchannel : (s.pc l).channelUp = pc.channelUp) : (s.goTo l pc).Tracks k := by
  refine h.quiet rfl ?_
  rw [up_goTo]
  split
  · rename_i hk
    exact hk ▸ hlink.symm
  · split
    · rename_i hk
      exact hk ▸ hchannel.symm
    · rfl

/-- A loop goes on with a callback about its link. -/
theorem Links.Tracks.linkCall {pc : LoopPc} (h : s.Tracks k) (he : e.bracket = .link l)
    (hturn : (s.pc l).linkUp = !e.opens) (hlink : pc.linkUp = e.opens)
    (hchannel : k = .channel l → (s.pc l).channelUp = pc.channelUp) :
    ((s.call e).goTo l pc).Tracks k := by
  refine h.called rfl ?_ ?_
  · rintro rfl
    rw [he]
    exact hturn
  · rw [up_goTo, he]
    split
    · exact hlink
    · split
      · rename_i hk
        exact (hchannel hk.symm).symm.trans (hk ▸ rfl)
      · rfl

/-- A link goes on with a callback about its channel. -/
theorem Links.Tracks.channelCall {pc : LoopPc} (h : s.Tracks k) (he : e.bracket = .channel l)
    (hturn : (s.pc l).channelUp = !e.opens) (hchannel : pc.channelUp = e.opens)
    (hlink : (s.pc l).linkUp = pc.linkUp) : ((s.call e).goTo l pc).Tracks k := by
  refine h.called rfl ?_ ?_
  · rintro rfl
    rw [he]
    exact hturn
  · rw [up_goTo, he]
    by_cases hk : Bracket.link l = k
    · subst hk
      rw [if_pos rfl, if_neg nofun]
      exact hlink.symm
    · rw [if_neg hk, hchannel]
      rfl

/-- What the end of a link does to the bracket of its channel. -/
theorem Links.Tracks.linkEnds {pc : LoopPc} (h : s.Tracks k) (hup : (s.pc l).linkUp = true)
    (hdown : pc.linkUp = false) (hchannel : k = .channel l → (s.pc l).channelUp = false) :
    (s.linkEnds l pc).Tracks k := by
  exact h.linkCall rfl hup hdown fun hk =>
    (hchannel hk).trans (LoopPc.channelUp_of_linkUp hdown).symm

end Tracks

section Steps

variable {b : Build} {cfg : RuntimeCfg} {s t : Links} {k : Bracket}

theorem LoopMove.tracks {ok : Prop} {l : LinkLoop} (hm : LoopMove ok s l t) (h : s.Tracks k)
    (hok : ∀ l, k = .channel l → ok) : t.Tracks k := by
  cases hm with
  | goesOn hlink hchannel _ =>
      have hgone := h.goTo hlink hchannel
      exact hgone.samePc rfl rfl
  | returns hdown _ => exact h.goTo hdown (LoopPc.channelUp_of_linkUp hdown)
  | @linkBegins channel hdown hchannel =>
      refine h.linkCall rfl hdown rfl fun _ => (LoopPc.channelUp_of_linkUp hdown).trans ?_
      cases channel <;> first | rfl | exact absurd rfl hchannel
  | linkEnds hup hchannel hdown _ => exact h.linkEnds hup hdown fun hk => hchannel (hok _ hk)
  | channelOpens hpc => exact h.channelCall rfl (by rw [hpc]; rfl) rfl (by rw [hpc]; rfl)
  | channelCloses hpc => exact h.channelCall rfl (by rw [hpc]; rfl) rfl (by rw [hpc]; rfl)
  | channelClosesLast hpc hdown _ =>
      have hclosed : (s.channelCloses l).Tracks k :=
        h.channelCall rfl (by rw [hpc]; rfl) rfl (by rw [hpc]; rfl)
      have hwaiting : (s.channelCloses l).pc l = .linked .waiting := Function.update_self ..
      exact hclosed.linkEnds (by rw [hwaiting]; rfl) hdown fun _ => by rw [hwaiting]; rfl

/-- The brackets of the links are kept by every step, those of the channels
by orderly ones. -/
theorem tracks_linksStep {i : LinksLabel} (h : s.Tracks k)
    (hok : ∀ l, k = .channel l → orderly b cfg s i = true)
    (hs : linksStep b cfg s i = some t) : t.Tracks k := by
  rcases moves_of_linksStep hs with ⟨hlog, hpc⟩ | ⟨l, u, hmove, hlog, hpc⟩
  · exact h.samePc hlog hpc
  · exact (hmove.tracks h hok).samePc hlog hpc

/-! ## The end of the session -/

theorem noLink_goTo {l : LinkLoop} {pc : LoopPc} (h : s.noLink = true) (hpc : pc.linkUp = false) :
    (s.goTo l pc).noLink = true := by
  simp only [Links.noLink, Bool.and_eq_true, Bool.not_eq_true'] at h ⊢
  cases l with
  | serve => exact ⟨hpc, h.2⟩
  | central => exact ⟨h.1, hpc⟩

theorem mainReady_goTo {l : LinkLoop} {pc : LoopPc} (h : mainReady b cfg s = false)
    (hpc : pc ≠ .returned) : mainReady b cfg (s.goTo l pc) = false := by
  have hpc : (pc == .returned) = false := by simpa using hpc
  cases l with
  | serve =>
      revert h
      simp only [mainReady, Links.goTo, Function.update_self, hpc]
      split
      · exact id
      · split <;> simp +contextual
  | central =>
      revert h
      simp only [mainReady, Links.goTo, Function.update_self, hpc]
      split
      · simp +contextual
      · split
        · simp +contextual
        · exact id

theorem mainReady_goTo_serve {pc : LoopPc} (h : mainReady b cfg s = false)
    (hrunner : s.runnerDone = false) : mainReady b cfg (s.goTo .serve pc) = false := by
  revert h
  simp only [mainReady, Links.goTo, hrunner, Bool.false_and, Bool.false_or]
  exact id

/-- A loop that goes on ends the session by returning only. -/
theorem returned_of_ready {l : LinkLoop} {pc : LoopPc} (h : mainReady b cfg s = false)
    (ht : mainReady b cfg (s.goTo l pc) = true) : pc = .returned := by
  by_cases hpc : pc = .returned
  · exact hpc
  · rw [mainReady_goTo h hpc] at ht
    cases ht

theorem returned_of_ready_call {l : LinkLoop} {pc : LoopPc} {e : LinkCallback}
    (h : mainReady b cfg s = false) (ht : mainReady b cfg ((s.call e).goTo l pc) = true) :
    pc = .returned := by
  have hcall : mainReady b cfg (s.call e) = false := h
  exact returned_of_ready hcall ht

theorem LoopMove.noLink {ok : Prop} {l : LinkLoop} (hm : LoopMove ok s l t) (hok : ok)
    (h : mainReady b cfg s = false) (ht : mainReady b cfg t = true) : t.noLink = true := by
  cases hm with
  | @goesOn pc auto hlink hchannel hpc =>
      have hgone : mainReady b cfg (s.goTo l pc) = true := ht
      exact absurd (returned_of_ready h hgone) hpc
  | returns hdown hclear =>
      refine noLink_goTo (hclear hok ?_) rfl
      rintro rfl
      cases hdone : s.runnerDone with
      | true => rfl
      | false =>
          rw [mainReady_goTo_serve h hdone] at ht
          cases ht
  | linkEnds hup hchannel hdown hpc => exact absurd (returned_of_ready_call h ht) hpc
  | channelClosesLast hserving hdown hpc =>
      have hclosed : mainReady b cfg (s.channelCloses l) = false := by
        cases hready : mainReady b cfg (s.channelCloses l) with
        | false => rfl
        | true => cases returned_of_ready_call h hready
      exact absurd (returned_of_ready_call hclosed ht) hpc
  | _ => cases returned_of_ready_call h ht

theorem LoopMove.unloaded {ok : Prop} {l : LinkLoop} (hm : LoopMove ok s l t) :
    t.unloaded = s.unloaded := by
  cases hm <;> rfl

/-- Orderly steps end the session without a link. -/
theorem noLink_of_pollStep {i : LinksLabel} (hok : orderly b cfg s i = true)
    (h : mainReady b cfg s = false) (hs : pollStep b cfg s i = some t)
    (ht : mainReady b cfg t = true) : t.noLink = true := by
  cases i with
  | serve m => exact (moves_of_serveStep hs).noLink hok h ht
  | central m => exact (moves_of_centralStep hs).noLink hok h ht
  | runner =>
      cases hs
      cases hfree : s.noLink with
      | true => exact hfree
      | false =>
          -- neither in `serve_central` nor behind `serve`, the runner ends nothing
          have hidle : runsCentral b cfg = false ∧ (s.pc .serve == .returned) = false := by
            simpa [orderly, hfree] using hok
          simp only [mainReady, hidle.1, hidle.2, Bool.and_false, Bool.false_or] at h ht
          rw [if_neg Bool.false_ne_true] at h ht
          rw [h] at ht
          cases ht
  | bondAdmin =>
      simp only [pollStep, Option.ite_none_right_eq_some, Option.some.injEq] at hs
      obtain ⟨-, rfl⟩ := hs
      exact hok
  | waitUnload =>
      simp only [pollStep, Option.ite_none_right_eq_some, Option.some.injEq] at hs
      obtain ⟨-, rfl⟩ := hs
      exact hok
  | unload => cases hs
  | unloadReturns => cases hs

theorem pollStep_unloaded {i : LinksLabel} (hs : pollStep b cfg s i = some t) :
    t.unloaded = s.unloaded := by
  cases i with
  | serve m => exact (moves_of_serveStep hs).unloaded
  | central m => exact (moves_of_centralStep hs).unloaded
  | runner =>
      cases hs
      rfl
  | bondAdmin | waitUnload =>
      simp only [pollStep, Option.ite_none_right_eq_some, Option.some.injEq] at hs
      obtain ⟨-, rfl⟩ := hs
      rfl
  | unload | unloadReturns => cases hs

/-- A session under way is not ready, and no link has outlived one that is
over. -/
structure Links.EndsClear (b : Build) (cfg : RuntimeCfg) (s : Links) : Prop where
  running : s.finished = false → mainReady b cfg s = false
  ended : s.finished = true → s.noLink = true
  unloaded : s.unloaded = true → s.finished = true

theorem endsClear_start (unloadReq : Bool) :
    (linksStart b cfg unloadReq).EndsClear b cfg ∧ (linksStart b cfg unloadReq).noLink = true := by
  refine ⟨⟨fun _ => ?_, nofun, nofun⟩, ?_⟩
  · cases hcentral : runsCentral b cfg <;> cases hdual : runsDual b cfg <;>
      simp [mainReady, linksStart, hcentral, hdual]
  · have hserve : ((linksStart b cfg unloadReq).pc .serve).linkUp = false := by
      simp only [linksStart]
      split
      · rfl
      · split <;> rfl
    have hcentral : ((linksStart b cfg unloadReq).pc .central).linkUp = false := by
      simp only [linksStart]
      split <;> rfl
    simp [Links.noLink, hserve, hcentral]

theorem Links.EndsClear.step {i : LinksLabel} (h : s.EndsClear b cfg)
    (hok : orderly b cfg s i = true) (hs : linksStep b cfg s i = some t) : t.EndsClear b cfg := by
  obtain ⟨hrunning, hended, hunloaded⟩ := h
  unfold linksStep at hs
  split at hs
  · cases hs
    exact ⟨hrunning, hended, hunloaded⟩
  · simp only [Option.ite_none_right_eq_some, Option.some.injEq] at hs
    obtain ⟨⟨hfinished, -⟩, rfl⟩ := hs
    exact ⟨hrunning, hended, fun _ => hfinished⟩
  · split at hs
    · cases hs
    · rename_i hfinished
      have hfinished : s.finished = false := by simpa using hfinished
      obtain ⟨u, hu, rfl⟩ := Option.map_eq_some_iff.mp hs
      refine ⟨id, noLink_of_pollStep hok (hrunning hfinished) hu, ?_⟩
      intro hun
      have hun : s.unloaded = true := (pollStep_unloaded hu).symm.trans hun
      rw [hunloaded hun] at hfinished
      cases hfinished

end Steps

/-! ## Whole sessions -/

/-- On each link loop the callbacks of the links alternate, and what was
opened is closed again: links when `runtime_ble_unload` has returned,
channels when the session is over. -/
structure Links.Bracketed (s : Links) : Prop where
  alternate : ∀ l, Alternating (Bracket.link l).mark s.log
  links : s.unloaded = true → ∀ l, EachClosed (Bracket.link l).mark s.log
  channels : s.finished = true → ∀ l, EachClosed (Bracket.channel l).mark s.log

section Sessions

variable {b : Build} {cfg : RuntimeCfg} {s : Links}

theorem init_linksStart (unloadReq : Bool) : (links b cfg).init (linksStart b cfg unloadReq) :=
  ⟨unloadReq, .inl rfl⟩

theorem tracks_init (h : (links b cfg).init s) (k : Bracket) : s.Tracks k := by
  obtain ⟨unloadReq, h⟩ := h
  have hstart : (linksStart b cfg unloadReq).Tracks k :=
    ⟨alternating_nil, (up_of_noLink (endsClear_start unloadReq).2 k).symm⟩
  rcases h with rfl | ⟨-, rfl⟩
  · exact hstart
  · exact hstart.samePc rfl rfl

/-- On each link loop `on_connected` and `on_disconnected` alternate in
every run, however the session ends. -/
theorem links_alternate (h : (links b cfg).Reachable s) (l : LinkLoop) :
    Alternating (Bracket.link l).mark s.log := by
  have htracks : s.Tracks (.link l) := by
    refine h.invariant (fun s hs => tracks_init hs (.link l)) ?_
    intro s i t hs _ hstep
    exact tracks_linksStep hs (fun l' hk => nomatch hk) hstep
  exact htracks.1

/-- **Callbacks are bracketed** in every run whose steps are orderly. -/
theorem callbacks_bracketed
    (h : (links b cfg).Reach (fun s i => orderly b cfg s i = true) s) : s.Bracketed := by
  have htracks : ∀ k, s.Tracks k :=
    h.invariant (fun s hs => tracks_init hs)
      fun s i t hs hok hstep k => tracks_linksStep (hs k) (fun _ _ => hok) hstep
  have hclear : s.EndsClear b cfg := by
    refine h.invariant ?_ fun s i t hs hok hstep => hs.step hok hstep
    rintro s ⟨unloadReq, rfl | ⟨-, rfl⟩⟩
    · exact (endsClear_start unloadReq).1
    · exact ⟨nofun, fun _ => (endsClear_start unloadReq).2, nofun⟩
  have hclosed : s.finished = true → ∀ k : Bracket, EachClosed k.mark s.log := by
    intro hfinished k
    have hdown := up_of_noLink (hclear.ended hfinished) k
    exact (htracks k).1.eachClosed ((htracks k).2.trans hdown)
  exact ⟨fun l => (htracks _).1, fun hun l => hclosed (hclear.unloaded hun) _,
    fun hfinished l => hclosed hfinished _⟩

end Sessions

/-- A channel comes and goes, its link with it, and a second link before
the unload. -/
theorem callbacks_bracketed_twoLinks :
    ∃ s : Links, s.unloaded = true ∧ s.log =
        [.onDisconnected .serve, .onConnected .serve, .onDisconnected .serve,
          .onL2capDisconnected .serve, .onL2capConnected .serve, .onConnected .serve]
      ∧ s.Bracketed := by
  have hexec : ((links { l2cap := true } { l2capPsm := 0x80 }).execWhile
        (fun s i => orderly { l2cap := true } { l2capPsm := 0x80 } s i)
        (linksStart { l2cap := true } { l2capPsm := 0x80 } false)
        [.serve (.advertise true), .serve (.accept true), .serve (.l2capServe .host),
          .serve (.connectionTask .host), .serve (.advertise true), .unload,
          .serve (.connectionTask .unload), .bondAdmin, .unloadReturns]).map
      (fun s => decide (s.unloaded = true ∧ s.log =
        [.onDisconnected .serve, .onConnected .serve, .onDisconnected .serve,
          .onL2capDisconnected .serve, .onL2capConnected .serve, .onConnected .serve]))
      = some true := by
    decide
  obtain ⟨s, hreach, hs⟩ := Machine.exists_reach_of_execWhile (fun _ _ h => h) _
    (init_linksStart false) hexec
  obtain ⟨hun, hlog⟩ := of_decide_eq_true hs
  exact ⟨s, hun, hlog, callbacks_bracketed hreach⟩

/-- A link is up when `bond_admin_loop` is the first to see the request;
and a link is lost with its channel open. -/
theorem callbacks_left_open :
    (∃ s, (links {} {}).Reachable s ∧ ¬ s.Bracketed)
    ∧ ∃ s, (links { l2cap := true } { l2capPsm := 0x80 }).Reachable s
        ∧ s.noLink = true ∧ ¬ s.Bracketed := by
  constructor
  · have hexec : ((links {} {}).exec (linksStart {} {} false)
          [.serve (.advertise true), .unload, .bondAdmin, .unloadReturns]).map
        (fun s => s.unloaded && isOpen (Bracket.link .serve).mark s.log) = some true := by
      decide
    obtain ⟨s, hreach, hs⟩ := Machine.exists_reachable_of_exec _ (init_linksStart false) hexec
    rw [Bool.and_eq_true] at hs
    refine ⟨s, hreach, fun hbracketed => ?_⟩
    have hclosed := (hbracketed.links hs.1 .serve).isOpen_eq_false
    rw [hs.2] at hclosed
    cases hclosed
  · have hexec : ((links { l2cap := true } { l2capPsm := 0x80 }).exec
          (linksStart { l2cap := true } { l2capPsm := 0x80 } false)
          [.serve (.advertise true), .serve (.accept true), .serve (.connectionTask .host),
            .unload, .waitUnload]).map
        (fun s => (s.finished && s.noLink) && isOpen (Bracket.channel .serve).mark s.log)
        = some true := by
      decide
    obtain ⟨s, hreach, hs⟩ := Machine.exists_reachable_of_exec _ (init_linksStart false) hexec
    simp only [Bool.and_eq_true] at hs
    refine ⟨s, hreach, hs.1.2, fun hbracketed => ?_⟩
    have hclosed := (hbracketed.channels hs.1.1 .serve).isOpen_eq_false
    rw [hs.2] at hclosed
    cases hclosed

end RuntimeBle.Session
