import RuntimeBle.Bond.Coherence
import RuntimeBle.Link.Channel
import RuntimeBle.Link.Events
import RuntimeBle.Session.Callbacks

/-!
# Link — Central

`run_central_conn`: the GATT client, the L2CAP channel and the event loop of
a central's link, in one `select3`. It returns with the first of them that
does, and `central_loop` calls `on_disconnected` and drops the connection.

Left out is what does not end any of the three: what the commands of
`client_session` do, its notifications, and the tick of the event loop.
-/

namespace RuntimeBle.Link

open RuntimeBle.Lib RuntimeBle.Request RuntimeBle.Bond RuntimeBle.Session

/-! ## States -/

/-- Where `client_session` is: in `ClientP::new`, in its `select3`, or
returned: there is no client, `client.task()` has ended, or its
`wait_unload`. Its commands and notifications never end. -/
inductive ClientPc where
  | creating
  | running
  | notCreated
  | taskEnded
  | unloaded
deriving DecidableEq

/-- The client's future is ready. -/
def ClientPc.isOver : ClientPc → Bool
  | .creating | .running => false
  | _ => true

/-- Where `l2cap_central` is: in its first 400 ms, in
`L2capChannel::create`, in `l2cap_serve`, or returned without a channel or
behind one. -/
inductive L2capCentralPc where
  | settling
  | creating
  | serving
  | notCreated
  | served
deriving DecidableEq

/-- The channel's future is ready. -/
def L2capCentralPc.isOver : L2capCentralPc → Bool
  | .notCreated | .served => true
  | _ => false

/-- `commands` are those that the client has taken, the newest first. -/
structure CentralConn (K : Type) where
  client : ClientPc
  commands : List Nat
  l2cap : L2capCentralPc
  channel : Channel
  events : EventState K
  eventsOver : Bool
  linkUp : Bool
  unloadReq : Bool
  waitOver : Bool
  returned : Bool

/-- `channel`: the calls of the application at any time, the pump and the
end of the channel in `l2cap_serve`. -/
inductive CentralConnStep (K : Type) where
  | clientNew (ok : Bool)
  | clientCommand (cmd : Nat)
  | clientTask
  | clientUnload
  | settle
  | create (ok : Bool)
  | channel (i : ChannelStep)
  | event (e : ConnectionEvent K)
  | waitUnload
  | linkLost
  | unload

/-- The link is told to be over. -/
def ConnectionEvent.isDisconnected {K : Type} : ConnectionEvent K → Bool
  | .disconnected _ => true
  | _ => false

namespace CentralConn

variable {K : Type}

/-- `run_central_conn` is entered. -/
def entered (mem : ReqMem) (disconnectReq : Bool) (events : EventState K) (unloadReq : Bool) :
    CentralConn K where
  client := .creating
  commands := []
  l2cap := .settling
  channel := .entered mem disconnectReq
  events
  eventsOver := false
  linkUp := true
  unloadReq
  waitOver := false
  returned := false

/-! ## Steps -/

section Steps

variable [DecidableEq K] [HostKeys K] (b : Build) (cfg : RuntimeCfg)
  (app : List LinkOutput → Option (OobData × OobData)) (s : CentralConn K)

/-- The steps of a channel that `l2cap_serve` makes. -/
def ofServe : ChannelStep → Bool
  | .run | .close => true
  | _ => false

/-- A step of the channel; the end of `l2cap_serve` ends `l2cap_central`. -/
def channelStep (i : ChannelStep) : CentralConn K :=
  if ofServe i ∧ s.l2cap ≠ .serving then s
  else
    match s.l2cap, (s.channel.step b i).pc with
    -- `l2cap_serve` returns, and `l2cap_central` with it
    | .serving, .closed => { s with channel := s.channel.step b i, l2cap := .served }
    | _, _ => { s with channel := s.channel.step b i }

/-- A turn of the event loop. -/
def eventStep (e : ConnectionEvent K) : CentralConn K :=
  match centralConnectionEvent cfg app s.events e with
  | .next events => { s with events }
  | .stop events => { s with events, eventsOver := true }

/-- A step of one of the futures. -/
def poll : CentralConnStep K → CentralConn K
  | .clientNew ok =>
      if s.client = .creating then { s with client := if ok then .running else .notCreated } else s
  | .clientCommand cmd =>
      if s.client = .running then { s with commands := cmd :: s.commands } else s
  | .clientTask => if s.client = .running then { s with client := .taskEnded } else s
  | .clientUnload =>
      if s.client = .running ∧ s.unloadReq = true then { s with client := .unloaded } else s
  | .settle =>
      if usesL2cap b cfg = true ∧ s.l2cap = .settling then { s with l2cap := .creating } else s
  | .create ok =>
      if s.l2cap = .creating then { s with l2cap := if ok then .serving else .notCreated } else s
  | .channel i => s.channelStep b i
  | .event e => { s.eventStep cfg app e with linkUp := s.linkUp && !e.isDisconnected }
  | .waitUnload =>
      if usesL2cap b cfg = false ∧ s.unloadReq = true then { s with waitOver := true } else s
  | .linkLost => { s with linkUp := false }
  | .unload => { s with unloadReq := true }

/-- One of the futures of the `select3` has returned. -/
def isOver : Bool := s.client.isOver || s.l2cap.isOver || s.eventsOver || s.waitOver

/-- A step, and then the look at which future is ready. -/
def step (i : CentralConnStep K) : CentralConn K :=
  if s.returned then s
  else { s.poll b cfg app i with returned := (s.poll b cfg app i).isOver }

end Steps

/-! ## Why it returns -/

variable (s : CentralConn K)

/-- The link is gone, there is no client or its task has ended, or the
session is to be unloaded. -/
def Cause : Prop :=
  s.linkUp = false ∨ s.client = .notCreated ∨ s.client = .taskEnded ∨ s.unloadReq = true

/-- `run_central_conn` returns for a cause: until there is one the GATT
client and the event loop go on, whatever becomes of the channel. -/
def ReturnsForCause : Prop := s.returned = true → s.Cause

/-- The step does not lose a channel: it fails to be created, or ends, only
when the link is gone or the session is to be unloaded. -/
def LosesNoChannel : CentralConnStep K → Prop
  | .create false =>
      s.returned = false → s.l2cap = .creating → s.linkUp = false ∨ s.unloadReq = true
  | .channel .close =>
      s.returned = false → s.l2cap = .serving → s.channel.pc.awaits = true →
        s.linkUp = false ∨ s.unloadReq = true
  | _ => True

/-- It returns when a future has and not before, and a channel is closed
only when it has been served. -/
structure Kept (s : CentralConn K) : Prop where
  polled : s.returned = s.isOver
  cause : s.ReturnsForCause
  channel : s.l2cap ≠ .served → s.channel.pc ≠ .closed

variable {s : CentralConn K}

theorem Kept.entered (mem : ReqMem) (disconnectReq : Bool) (events : EventState K)
    (unloadReq : Bool) : (entered mem disconnectReq events unloadReq).Kept where
  polled := rfl
  cause := nofun
  channel := nofun

/-- The channel goes on, or is served to its end. -/
theorem channelStep_cases {b : Build} (h : s.l2cap ≠ .served → s.channel.pc ≠ .closed)
    (i : ChannelStep) :
    (∃ channel : Channel, s.channelStep b i = { s with channel } ∧
      (s.l2cap ≠ .served → channel.pc ≠ .closed)) ∨
    ∃ channel : Channel, s.l2cap = .serving ∧ i = .close ∧ s.channel.pc.awaits = true ∧
      s.channelStep b i = { s with channel, l2cap := .served } := by
  unfold channelStep
  split
  · exact .inl ⟨s.channel, rfl, h⟩
  · rename_i hserve
    split
    · rename_i hserving hclosed
      have hclose : i = .close ∧ s.channel.pc.awaits = true := by
        by_contra hnot
        rw [not_and, Bool.not_eq_true] at hnot
        exact Channel.pc_ne_closed_of_step (h (by rw [hserving]; nofun)) hnot hclosed
      exact .inr ⟨_, hserving, hclose.1, hclose.2, rfl⟩
    · rename_i hopen
      refine .inl ⟨_, rfl, fun hserved hclosed => ?_⟩
      -- outside `l2cap_serve` only the application's calls are made
      have hnot : s.l2cap ≠ .serving := fun hserving => hopen hserving hclosed
      refine Channel.pc_ne_closed_of_step (h hserved) ?_ hclosed
      rintro rfl
      exact absurd ⟨rfl, hnot⟩ hserve

section Runs

variable [DecidableEq K] [HostKeys K] {b : Build} {cfg : RuntimeCfg}
  {app : List LinkOutput → Option (OobData × OobData)}

/-- The event loop ends with the link. -/
theorem isDisconnected_of_stop {events events' : EventState K} {e : ConnectionEvent K}
    (h : centralConnectionEvent cfg app events e = .stop events') : e.isDisconnected = true := by
  cases e with
  | disconnected reason => rfl
  | oobRequest =>
      simp only [centralConnectionEvent] at h
      split at h <;> cases h
  | _ => cases h

variable (cfg) (app) in
theorem eventStep_cases (s : CentralConn K) (e : ConnectionEvent K) :
    (∃ events, s.eventStep cfg app e = { s with events }) ∨
    e.isDisconnected = true ∧
      ∃ events, s.eventStep cfg app e = { s with events, eventsOver := true } := by
  unfold eventStep
  split
  · exact .inl ⟨_, rfl⟩
  · rename_i events hstop
    exact .inr ⟨isDisconnected_of_stop hstop, events, rfl⟩

theorem channel_poll (h : s.l2cap ≠ .served → s.channel.pc ≠ .closed) {i : CentralConnStep K} :
    (s.poll b cfg app i).l2cap ≠ .served → (s.poll b cfg app i).channel.pc ≠ .closed := by
  cases i with
  | channel i =>
      rcases channelStep_cases (b := b) h i with ⟨channel, heq, hopen⟩ | ⟨channel, -, -, -, heq⟩
      · rw [poll, heq]
        exact hopen
      · rw [poll, heq]
        exact absurd rfl
  | event e =>
      rcases eventStep_cases cfg app s e with ⟨events, heq⟩ | ⟨-, events, heq⟩
      · rw [poll, heq]
        exact h
      · rw [poll, heq]
        exact h
  | settle =>
      rw [poll]
      split
      · rename_i hsettling
        exact fun _ => h (by rw [hsettling.2]; nofun)
      · exact h
  | create ok =>
      rw [poll]
      split
      · rename_i hcreating
        exact fun _ => h (by rw [hcreating]; nofun)
      · exact h
  | linkLost | unload => exact h
  | _ =>
      rw [poll]
      split <;> exact h

/-- What is over that was not is over for a cause. -/
theorem cause_of_poll (hkept : s.Kept) (hrun : s.returned = false) {i : CentralConnStep K}
    (hok : s.LosesNoChannel i) (hover : (s.poll b cfg app i).isOver = true) :
    (s.poll b cfg app i).Cause := by
  -- no future was ready before, so this step made the one that is
  have hnot : s.isOver = false := hkept.polled.symm.trans hrun
  have hsame : s.isOver = true → (s.poll b cfg app i).Cause := by
    rw [hnot]
    exact nofun
  obtain ⟨⟨⟨hclient, hl2cap⟩, hevents⟩, hwait⟩ :
      ((s.client.isOver = false ∧ s.l2cap.isOver = false) ∧ s.eventsOver = false) ∧
        s.waitOver = false := by simpa [isOver] using hnot
  cases i with
  | clientNew ok =>
      simp only [poll] at hover hsame ⊢
      split at hover
      · cases ok with
        | false => exact .inr (.inl (by simp [*]))
        | true => simp [isOver, ClientPc.isOver, hl2cap, hevents, hwait] at hover
      · exact hsame hover
  | clientCommand cmd =>
      simp only [poll] at hover hsame ⊢
      split at hover <;> exact hsame hover
  | clientTask =>
      simp only [poll] at hover hsame ⊢
      split at hover
      · exact .inr (.inr (.inl (by simp [*])))
      · exact hsame hover
  | clientUnload =>
      simp only [poll] at hover hsame ⊢
      split at hover
      · rename_i hunload
        exact .inr (.inr (.inr (by simp [hunload])))
      · exact hsame hover
  | settle =>
      simp only [poll] at hover hsame ⊢
      split at hover
      · simp [isOver, L2capCentralPc.isOver, hclient, hevents, hwait] at hover
      · exact hsame hover
  | create ok =>
      simp only [poll] at hover hsame ⊢
      split at hover
      · rename_i hcreating
        rw [if_pos hcreating]
        cases ok with
        | false =>
            -- the peer does not refuse the channel, so there is another reason
            rcases hok hrun hcreating with hlink | hunload
            · exact .inl hlink
            · exact .inr (.inr (.inr hunload))
        | true => simp [isOver, L2capCentralPc.isOver, hclient, hevents, hwait] at hover
      · exact hsame hover
  | channel i =>
      simp only [poll] at hover hsame ⊢
      rcases channelStep_cases (b := b) hkept.channel i with
        ⟨channel, heq, -⟩ | ⟨channel, hserving, rfl, hawaits, heq⟩
      · -- the channel goes on
        rw [heq] at hover hsame ⊢
        exact hsame hover
      · rw [heq]
        rcases hok hrun hserving hawaits with hlink | hunload
        · exact .inl hlink
        · exact .inr (.inr (.inr hunload))
  | event e =>
      simp only [poll] at hover hsame ⊢
      rcases eventStep_cases cfg app s e with ⟨events, heq⟩ | ⟨hlost, events, heq⟩
      · rw [heq] at hover hsame ⊢
        exact hsame hover
      · rw [hlost]
        exact .inl (Bool.and_false _)
  | waitUnload =>
      simp only [poll] at hover hsame ⊢
      split at hover
      · rename_i hunload
        exact .inr (.inr (.inr (by simp [hunload])))
      · exact hsame hover
  | linkLost => exact hsame hover
  | unload => exact hsame hover

theorem Kept.step (h : s.Kept) {i : CentralConnStep K} (hok : s.LosesNoChannel i) :
    (s.step b cfg app i).Kept := by
  unfold CentralConn.step
  cases hrun : s.returned with
  | true => exact h
  | false =>
      refine ⟨rfl, fun hover => ?_, ?_⟩
      · exact cause_of_poll h hrun hok hover
      · exact channel_poll h.channel

/-- A channel that is lost takes the link down, and there may be no other
cause. -/
theorem Kept.losesNoChannel (h : s.Kept) {i : CentralConnStep K}
    (hreturns : (s.step b cfg app i).ReturnsForCause) : s.LosesNoChannel i := by
  have hcause : s.returned = false → (s.poll b cfg app i).isOver = true →
      (s.poll b cfg app i).Cause := by
    intro hrun hover
    unfold CentralConn.step at hreturns
    rw [hrun] at hreturns
    exact hreturns hover
  have hclient : s.returned = false → s.client ≠ .notCreated ∧ s.client ≠ .taskEnded := by
    intro hrun
    have hnot : s.isOver = false := h.polled.symm.trans hrun
    constructor <;> intro hpc <;> simp [isOver, hpc, ClientPc.isOver] at hnot
  unfold LosesNoChannel
  split
  · intro hrun hcreating
    have hpoll : s.poll b cfg app (.create false) = { s with l2cap := .notCreated } :=
      if_pos hcreating
    rw [hpoll] at hcause
    obtain hlink | hnew | htask | hunload := hcause hrun (by simp [isOver, L2capCentralPc.isOver])
    · exact .inl hlink
    · exact absurd hnew (hclient hrun).1
    · exact absurd htask (hclient hrun).2
    · exact .inr hunload
  · intro hrun hserving hawaits
    have hclosed : (s.channel.step b .close).pc = .closed := by
      rw [Channel.step, Channel.close, if_pos hawaits]
    have hpoll : s.poll b cfg app (.channel .close)
        = { s with channel := s.channel.step b .close, l2cap := .served } := by
      rw [poll, channelStep, if_neg (not_and_of_not_right _ (not_not_intro hserving)), hserving,
        hclosed]
    rw [hpoll] at hcause
    obtain hlink | hnew | htask | hunload := hcause hrun (by simp [isOver, L2capCentralPc.isOver])
    · exact .inl hlink
    · exact absurd hnew (hclient hrun).1
    · exact absurd htask (hclient hrun).2
    · exact .inr hunload
  · trivial

end Runs

/-! ## As a link of the session -/

section Seen

variable {b : Build} {cfg : RuntimeCfg}

variable (b cfg) in
/-- The channel, as the session has it. -/
def channelPc (s : CentralConn K) : ChannelPc :=
  if usesL2cap b cfg then
    match s.l2cap with
    | .serving => .serving
    | _ => .waiting
  else .off

variable (b cfg) in
/-- The session does not see the step from `s` to `s'`, or has a move of
`central_loop` for it. -/
def SeenBy (links : Links) (s s' : CentralConn K) : Prop :=
  s'.returned = false ∧ s'.channelPc b cfg = s.channelPc b cfg ∨
    ∃ m links', centralStep b cfg links m = some links' ∧
      links'.pc .central = if s'.returned then .head else .linked (s'.channelPc b cfg)

/-- The channel is where it was, and another future may have returned. -/
theorem seenBy_of_channelPc {links : Links} {s' : CentralConn K}
    (hpc : links.pc .central = .linked (s.channelPc b cfg))
    (hsame : s'.channelPc b cfg = s.channelPc b cfg) : SeenBy b cfg links s s' := by
  unfold SeenBy
  cases hover : s'.returned with
  | false => exact .inl ⟨rfl, hsame⟩
  | true =>
      have hup : (links.pc .central).linkUp = true := by
        rw [hpc]
        rfl
      exact .inr ⟨.connTask .host, links.linkEnds .central .head, if_pos ⟨hup, rfl⟩,
        Links.pc_goTo_self⟩

/-- `l2cap_central` is past its first pause only where it is there. -/
theorem usesL2cap_of_ne (hoff : usesL2cap b cfg = false → s.l2cap = .settling)
    (h : s.l2cap ≠ .settling) : usesL2cap b cfg = true := by
  by_contra hno
  rw [Bool.not_eq_true] at hno
  exact h (hoff hno)

/-- `L2capChannel::create` returns: there is a channel, or no link. -/
theorem seenBy_create {links : Links} (huses : usesL2cap b cfg = true) (hnot : s.isOver = false)
    (hcreating : s.l2cap = .creating) (hpc : links.pc .central = .linked (s.channelPc b cfg))
    (ok : Bool) :
    SeenBy b cfg links s
      { s with
        l2cap := if ok then .serving else .notCreated
        returned := isOver { s with l2cap := if ok then .serving else .notCreated } } := by
  have hwaiting : links.pc .central = .linked .waiting := by
    rw [hpc, channelPc, if_pos huses, hcreating]
  refine .inr ?_
  cases ok with
  | true =>
      have hopen : ({ s with l2cap := .serving } : CentralConn K).isOver = false := by
        simp only [isOver, hcreating, L2capCentralPc.isOver, Bool.or_false] at hnot ⊢
        exact hnot
      refine ⟨.create true, links.channelOpens .central, if_pos hwaiting, ?_⟩
      simp only [if_true, hopen, channelPc, if_pos huses]
      exact Links.pc_goTo_self
  | false =>
      have hover : ({ s with l2cap := .notCreated } : CentralConn K).isOver = true := by
        simp [isOver, L2capCentralPc.isOver]
      refine ⟨.create false, links.linkEnds .central .head, if_pos hwaiting, ?_⟩
      simp only [Bool.false_eq_true, if_false, hover, if_true]
      exact Links.pc_goTo_self

/-- `l2cap_serve` returns, and the link is gone with it. -/
theorem seenBy_served {links : Links} (huses : usesL2cap b cfg = true)
    (hserving : s.l2cap = .serving) (hpc : links.pc .central = .linked (s.channelPc b cfg))
    (channel : Channel) :
    SeenBy b cfg links s
      { s with
        channel
        l2cap := .served
        returned := isOver { s with channel, l2cap := .served } } := by
  have hlinked : links.pc .central = .linked .serving := by
    rw [hpc, channelPc, if_pos huses, hserving]
  have hover : ({ s with channel, l2cap := .served } : CentralConn K).isOver = true := by
    simp [isOver, L2capCentralPc.isOver]
  refine .inr ⟨.l2capServe .host, (links.channelCloses .central).linkEnds .central .head,
    if_pos ⟨hlinked, rfl⟩, ?_⟩
  simp only [hover, if_true]
  exact Links.pc_goTo_self

end Seen

section Refines

variable [DecidableEq K] [HostKeys K] {b : Build} {cfg : RuntimeCfg}
  {app : List LinkOutput → Option (OobData × OobData)}

/-- With no channel to open, `l2cap_central` is not there. -/
theorem settling_step (hoff : usesL2cap b cfg = false) (h : s.l2cap = .settling)
    (i : CentralConnStep K) : (s.step b cfg app i).l2cap = .settling := by
  have hpoll : (s.poll b cfg app i).l2cap = .settling := by
    cases i with
    | channel i =>
        rw [poll, channelStep]
        split
        · exact h
        · split
          · rename_i hserving _
            cases h.symm.trans hserving
          · exact h
    | event e =>
        rcases eventStep_cases cfg app s e with ⟨events, heq⟩ | ⟨-, events, heq⟩
        · rw [poll, heq]
          exact h
        · rw [poll, heq]
          exact h
    | create ok =>
        rw [poll, if_neg (by rw [h]; nofun)]
        exact h
    | settle =>
        rw [poll, if_neg (by simp [hoff])]
        exact h
    | linkLost | unload => exact h
    | _ =>
        rw [poll]
        split <;> exact h
  unfold CentralConn.step
  split
  · exact h
  · exact hpoll

/-- What ends the link or moves its channel is a move of `central_loop`, and
the rest is not seen there. -/
theorem Kept.step_refines (h : s.Kept) (hoff : usesL2cap b cfg = false → s.l2cap = .settling)
    (hrun : s.returned = false) (i : CentralConnStep K) {links : Links}
    (hpc : links.pc .central = .linked (s.channelPc b cfg)) :
    SeenBy b cfg links s (s.step b cfg app i) := by
  have hnot : s.isOver = false := h.polled.symm.trans hrun
  have hstep : s.step b cfg app i
      = { s.poll b cfg app i with returned := (s.poll b cfg app i).isOver } := by
    rw [CentralConn.step, hrun]
    rfl
  rw [hstep]
  -- a step that leaves the channel where it is, is not seen
  have hother : (s.poll b cfg app i).channelPc b cfg = s.channelPc b cfg →
      SeenBy b cfg links s
        { s.poll b cfg app i with returned := (s.poll b cfg app i).isOver } :=
    fun hsame => seenBy_of_channelPc hpc hsame
  cases i with
  | settle =>
      apply hother
      rw [poll]
      split
      · rename_i hsettling
        simp only [channelPc, hsettling.2]
      · rfl
  | create ok =>
      by_cases hcreating : s.l2cap = .creating
      · have huses : usesL2cap b cfg = true := usesL2cap_of_ne hoff (by rw [hcreating]; nofun)
        rw [poll, if_pos hcreating]
        exact seenBy_create huses hnot hcreating hpc ok
      · exact hother (by rw [poll, if_neg hcreating])
  | channel i =>
      rcases channelStep_cases (b := b) h.channel i with
        ⟨channel, heq, -⟩ | ⟨channel, hserving, -, -, heq⟩
      · exact hother (by rw [poll, heq]; rfl)
      · have huses : usesL2cap b cfg = true := usesL2cap_of_ne hoff (by rw [hserving]; nofun)
        rw [poll, heq]
        exact seenBy_served huses hserving hpc channel
  | event e =>
      apply hother
      rcases eventStep_cases cfg app s e with ⟨events, heq⟩ | ⟨-, events, heq⟩
      · rw [poll, heq]
        rfl
      · rw [poll, heq]
        rfl
  | linkLost | unload => exact hother rfl
  | _ =>
      apply hother
      rw [poll]
      split <;> rfl

/-- A step that leaves the connection running has lost no channel. -/
theorem Kept.step_of_running (h : s.Kept) {i : CentralConnStep K}
    (hrun : (s.step b cfg app i).returned = false) : (s.step b cfg app i).Kept := by
  have hreturns : (s.step b cfg app i).ReturnsForCause := by
    intro hreturned
    cases hrun.symm.trans hreturned
  exact h.step (h.losesNoChannel hreturns)

/-- **The link is one of the session's**: as long as `run_central_conn` has
not returned, each of its steps is one that `central_loop` has or does not
see. -/
theorem run_refines (mem : ReqMem) (disconnectReq : Bool) (events : EventState K)
    (unloadReq : Bool) (is : List (CentralConnStep K)) (i : CentralConnStep K) {links : Links}
    (hs : is.foldl (step b cfg app) (entered mem disconnectReq events unloadReq) = s)
    (hrun : s.returned = false) (hpc : links.pc .central = .linked (s.channelPc b cfg)) :
    SeenBy b cfg links s (s.step b cfg app i) := by
  have hkeep : ∀ (s : CentralConn K) (i : CentralConnStep K),
      (s.returned = false → s.Kept ∧ (usesL2cap b cfg = false → s.l2cap = .settling)) →
      (s.step b cfg app i).returned = false →
        (s.step b cfg app i).Kept
          ∧ (usesL2cap b cfg = false → (s.step b cfg app i).l2cap = .settling) := by
    intro s i ih hrun'
    have hbefore : s.returned = false := by
      by_contra hreturned
      rw [Bool.not_eq_false] at hreturned
      rw [step, if_pos hreturned, hreturned] at hrun'
      cases hrun'
    obtain ⟨h, hoff⟩ := ih hbefore
    exact ⟨h.step_of_running hrun', fun huses => settling_step huses (hoff huses) i⟩
  obtain ⟨h, hoff⟩ := foldl_keeps (fun s i _ => hkeep s i)
    (fun _ => ⟨.entered mem disconnectReq events unloadReq, fun _ => rfl⟩) (by rw [hs]; exact hrun)
  rw [hs] at h hoff
  exact h.step_refines hoff hrun i hpc

end Refines

/-- The moves of `l2cap_peripheral`. -/
def ofL2capPeripheral : ServeMove → Bool
  | .accept _ | .acceptPause | .l2capServe _ => true
  | _ => false

/-- A peripheral's link outlives its channels: `l2cap_peripheral` accepts
again, until the session is to be unloaded. -/
theorem peripheral_link_goes_on {b : Build} {cfg : RuntimeCfg} {links links' : Links}
    {m : ServeMove} (hm : ofL2capPeripheral m = true) (hreq : links.unloadReq = false)
    (hs : serveStep b cfg links m = some links') : (links'.pc .serve).linkUp = true := by
  have hagain : ∀ links : Links, links.unloadReq = false →
      ((acceptAgain links).pc .serve).linkUp = true := by
    intro links hreq
    rw [acceptAgain, hreq, if_neg Bool.false_ne_true, Links.pc_goTo_self]
    rfl
  cases m with
  | accept ok =>
      simp only [serveStep, Option.ite_none_right_eq_some] at hs
      obtain ⟨-, hs⟩ := hs
      split at hs
      · cases hs
        rw [Links.channelOpens, Links.pc_goTo_self]
        rfl
      · cases hs
        rw [Links.pc_goTo_self]
        rfl
  | acceptPause =>
      simp only [serveStep, Option.ite_none_right_eq_some, Option.some.injEq] at hs
      obtain ⟨-, rfl⟩ := hs
      exact hagain links hreq
  | l2capServe e =>
      simp only [serveStep, Option.ite_none_right_eq_some, Option.some.injEq] at hs
      obtain ⟨-, rfl⟩ := hs
      exact hagain _ hreq
  | _ => cases hm

/-- **The link of a central goes on** for a cause to end it, in exactly the
runs in which no channel fails to be created, and none ends, while the link
is up and nothing is to be unloaded. -/
theorem central_link_goes_on_iff [DecidableEq K] [HostKeys K] (b : Build) (cfg : RuntimeCfg)
    (app : List LinkOutput → Option (OobData × OobData)) (mem : ReqMem) (disconnectReq : Bool)
    (events : EventState K) (unloadReq : Bool) (is : List (CentralConnStep K)) :
    Always (step b cfg app) ReturnsForCause (entered mem disconnectReq events unloadReq) is
      ↔ EachStep (step b cfg app) LosesNoChannel (entered mem disconnectReq events unloadReq) is :=
  always_iff_eachStep (P := Kept) (fun _ h => h.cause) (fun _ _ h hok => h.step hok)
    (fun _ _ h hreturns => h.losesNoChannel hreturns) is _
    (.entered mem disconnectReq events unloadReq)

/-- No event has been heard. -/
def noEvents : EventState IdentityKey where
  bonds := .boot fun _ => []
  log := []

/-- A build with the central role and with channels. -/
def centralBuild : Build := { central := true, l2cap := true }

/-- A central that opens a channel. -/
def centralCfg : RuntimeCfg := { role := 1, l2capPsm := 0x80 }

/-- The connection behind `is`, from the statics of the image. -/
def centralRun (is : List (CentralConnStep IdentityKey)) : CentralConn IdentityKey :=
  is.foldl (step centralBuild centralCfg fun _ => none) (entered bootMem false noEvents false)

/-- The peer has no such PSM. -/
def createFails : List (CentralConnStep IdentityKey) := [.clientNew true, .settle, .create false]

/-- The application closes the channel, and the host ends it. -/
def channelDisconnected : List (CentralConnStep IdentityKey) :=
  [.clientNew true, .settle, .create true, .channel .run, .channel .run, .channel .run,
    .channel .disconnect, .channel .run, .channel .run, .channel .run, .channel .close]

/-- With the link up and the client running, a channel that fails to be
created, or that the application disconnects, ends it all. -/
theorem link_lost_with_channel :
    (¬ Always (step centralBuild centralCfg fun _ => none) ReturnsForCause
        (entered bootMem false noEvents false) createFails
      ∧ (centralRun createFails).returned = true
      ∧ (centralRun createFails).client = .running ∧ (centralRun createFails).linkUp = true)
    ∧ ¬ Always (step centralBuild centralCfg fun _ => none) ReturnsForCause
        (entered bootMem false noEvents false) channelDisconnected
      ∧ (centralRun channelDisconnected).channel.log = [.disconnected, .disconnectAccepted]
      ∧ (centralRun channelDisconnected).returned = true
      ∧ (centralRun channelDisconnected).client = .running
      ∧ (centralRun channelDisconnected).linkUp = true := by
  have hno : ∀ is, (centralRun is).returned = true → (centralRun is).client = .running →
      (centralRun is).linkUp = true → (centralRun is).unloadReq = false →
      ¬ Always (step centralBuild centralCfg fun _ => none) ReturnsForCause
        (entered bootMem false noEvents false) is := by
    intro is hreturned hclient hlink hunload h
    obtain hc | hc | hc | hc := h.foldl hreturned
    · exact absurd (hlink.symm.trans hc) nofun
    · exact absurd (hclient.symm.trans hc) nofun
    · exact absurd (hclient.symm.trans hc) nofun
    · exact absurd (hunload.symm.trans hc) nofun
  exact ⟨⟨hno createFails rfl rfl rfl rfl, rfl, rfl, rfl⟩,
    hno channelDisconnected rfl rfl rfl rfl, rfl, rfl, rfl, rfl⟩

end CentralConn

end RuntimeBle.Link
