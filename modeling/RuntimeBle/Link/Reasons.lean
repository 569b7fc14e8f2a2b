import RuntimeBle.Bond.Coherence
import RuntimeBle.Link.Events
import RuntimeBle.Session.Callbacks

/-!
# Link — Reasons

The session with the event loops of its links, and what the application is
told when a link ends.

`hostReason` is beside the code: the reason of the `Disconnected` event of
the link that is up. Of the code there is what it passes on, which `serve`
and `central_loop` do behind a `select` that returns nothing.
-/

namespace RuntimeBle.Link

open RuntimeBle.Lib RuntimeBle.Bond RuntimeBle.Session

/-! ## States -/

/-- A call of `on_disconnected`, and why the host had ended the link. -/
structure DisconnectCall where
  reason : UInt8
  hostReason : Option UInt8
deriving DecidableEq

/-- The calls of each link loop are the newest first. The link loops share
the bonds. -/
structure Disconnects (K : Type) where
  links : Links
  events : EventState K
  hostReason : LinkLoop → Option UInt8
  calls : LinkLoop → List DisconnectCall

/-- `disconnected`: the host puts the event into the queue of the link.
`serveEvent`, `centralEvent`: the event loop takes its next one. -/
inductive DisconnectsStep (K G : Type) where
  | links (i : LinksLabel)
  | disconnected (l : LinkLoop) (reason : UInt8)
  | serveEvent (e : GattConnectionEvent K G)
  | centralEvent (e : ConnectionEvent K)

/-- The reason, if the link is over. -/
def ConnectionEvent.reason {K : Type} : ConnectionEvent K → Option UInt8
  | .disconnected reason => some reason
  | _ => none

/-- Likewise. -/
def GattConnectionEvent.reason {K G : Type} : GattConnectionEvent K G → Option UInt8
  | .disconnected reason => some reason
  | _ => none

/-- What `serve` and `central_loop` call `on_disconnected` with. -/
def disconnectedReason : LinkLoop → UInt8
  | .serve => 0
  | .central => 0

namespace Disconnects

variable {K G : Type}

/-- A session that begins at `links`. -/
def entered (links : Links) (events : EventState K) : Disconnects K where
  links
  events
  hostReason _ := none
  calls _ := []

/-! ## Steps -/

/-- The link of `l` is there in `s` and not in `t`. -/
def endsLink (s t : Links) (l : LinkLoop) : Bool := (s.pc l).linkUp && !(t.pc l).linkUp

section Steps

variable (b : Build) (cfg : RuntimeCfg)

/-- The session goes on to `t`: behind a link that has ended comes its
`on_disconnected`. -/
def follow (s : Disconnects K) (t : Links) : Disconnects K where
  links := t
  events := s.events
  hostReason l := if endsLink s.links t l then none else s.hostReason l
  calls l :=
    if endsLink s.links t l && cfg.callbacks.onDisconnected then
      { reason := disconnectedReason l, hostReason := s.hostReason l } :: s.calls l
    else s.calls l

/-- A step of the loops, if they can take it. -/
def linksMove (s : Disconnects K) (i : LinksLabel) : Disconnects K :=
  match linksStep b cfg s.links i with
  | some t => s.follow cfg t
  | none => s

/-- The event loop goes on, or ends and its link with it. -/
def afterEvent (s : Disconnects K) (i : LinksLabel) : Flow (EventState K) → Disconnects K
  | .next events => { s with events }
  | .stop events => ({ s with events }).linksMove b cfg i

/-- The futures of the link are polled. -/
def linkPolled (s : Disconnects K) (l : LinkLoop) : Bool :=
  (s.links.pc l).linkUp && !s.links.finished

variable [DecidableEq K] [HostKeys K] (app : List LinkOutput → Option (OobData × OobData))
  (gattEvent : EventState K → G → EventState K)

/-- A step of the loops, the host ending a link, or an event. -/
def step (s : Disconnects K) : DisconnectsStep K G → Disconnects K
  | .links i => s.linksMove b cfg i
  | .disconnected l reason =>
      if s.linkPolled l ∧ s.hostReason l = none then
        { s with hostReason := Function.update s.hostReason l (some reason) }
      else s
  -- an event that tells of the end is there once the host has ended the link
  | .serveEvent e =>
      if s.linkPolled .serve ∧ (e.reason = none ∨ e.reason = s.hostReason .serve) then
        s.afterEvent b cfg (.serve (.connectionTask .host))
          (connectionTaskEvent cfg app gattEvent s.events e)
      else s
  | .centralEvent e =>
      if s.linkPolled .central ∧ (e.reason = none ∨ e.reason = s.hostReason .central) then
        s.afterEvent b cfg (.central (.connTask .host)) (centralConnectionEvent cfg app s.events e)
      else s

end Steps

/-! ## Is the reason told? -/

/-- Of every link that the host has ended, the application is told why. -/
def ReasonsTold (s : Disconnects K) : Prop :=
  ∀ l, ∀ c ∈ s.calls l, ∀ reason, c.hostReason = some reason → c.reason = reason

section Condition

variable [DecidableEq K] [HostKeys K] (b : Build) (cfg : RuntimeCfg)
  (app : List LinkOutput → Option (OobData × OobData))
  (gattEvent : EventState K → G → EventState K)

/-- The step takes no link down that the host has ended with a reason other
than 0, or nobody is told. -/
def EndsNoneWithReason (s : Disconnects K) (i : DisconnectsStep K G) : Prop :=
  cfg.callbacks.onDisconnected = true →
    ∀ l reason, s.hostReason l = some reason →
      endsLink s.links (s.step b cfg app gattEvent i).links l = true → reason = 0

end Condition

/-! ## The log of the session -/

section Log

variable {u t : Links} {l l' : LinkLoop}

theorem endsLink_of_pc {pc : LoopPc} (h : t.pc = Function.update u.pc l pc) :
    endsLink u t l' = (decide (l' = l) && ((u.pc l).linkUp && !pc.linkUp)) := by
  rw [endsLink, h]
  by_cases hl : l' = l
  · rw [hl, Function.update_self, decide_eq_true rfl, Bool.true_and]
  · rw [Function.update_of_ne hl, Bool.and_not_self, decide_eq_false hl, Bool.false_and]

theorem count_onDisconnected (log : List LinkCallback) :
    (LinkCallback.onDisconnected l :: log).count (.onDisconnected l')
      = log.count (.onDisconnected l') + if l' = l then 1 else 0 := by
  by_cases hl : l' = l
  · rw [hl, List.count_cons_self, if_pos rfl]
  · have hne : LinkCallback.onDisconnected l ≠ .onDisconnected l' := by
      rintro ⟨⟩
      exact hl rfl
    rw [List.count_cons_of_ne hne, if_neg hl]
    rfl

theorem count_of_quiet {e : LinkCallback} (he : ∀ l', e ≠ .onDisconnected l')
    (log : List LinkCallback) :
    (e :: log).count (.onDisconnected l') = log.count (.onDisconnected l') :=
  List.count_cons_of_ne (he l')

/-- A link loop logs `on_disconnected` where it ends its link, and nowhere
else. -/
theorem count_loopMove {ok : Prop} (h : LoopMove ok u l t) (l' : LinkLoop) :
    t.log.count (.onDisconnected l')
      = u.log.count (.onDisconnected l') + if endsLink u t l' then 1 else 0 := by
  have hquiet : endsLink u t l' = false →
      t.log.count (.onDisconnected l') = u.log.count (.onDisconnected l') →
      t.log.count (.onDisconnected l')
        = u.log.count (.onDisconnected l') + if endsLink u t l' then 1 else 0 := by
    intro hends hcount
    rw [hends, hcount]
    rfl
  cases h with
  | goesOn hlink _ _ =>
      refine hquiet (Eq.trans (endsLink_of_pc rfl) ?_) rfl
      rw [hlink, Bool.and_not_self, Bool.and_false]
  | returns hdown _ =>
      refine hquiet (Eq.trans (endsLink_of_pc rfl) ?_) rfl
      rw [hdown, Bool.false_and, Bool.and_false]
  | linkBegins hdown _ =>
      refine hquiet (Eq.trans (endsLink_of_pc rfl) ?_) (count_of_quiet (by simp) u.log)
      rw [hdown, Bool.false_and, Bool.and_false]
  | @linkEnds pc hup _ hdown _ =>
      have hends : endsLink u (u.linkEnds l pc) l' = decide (l' = l) := by
        apply Eq.trans (endsLink_of_pc rfl)
        rw [hup, hdown, Bool.not_false, Bool.and_true, Bool.and_true]
      apply (count_onDisconnected u.log).trans
      simp only [hends, decide_eq_true_eq]
  | channelOpens hpc =>
      refine hquiet (Eq.trans (endsLink_of_pc rfl) ?_) (count_of_quiet (by simp) u.log)
      simp only [LoopPc.linkUp, Bool.not_true, Bool.and_false]
  | channelCloses hpc =>
      refine hquiet (Eq.trans (endsLink_of_pc rfl) ?_) (count_of_quiet (by simp) u.log)
      simp only [LoopPc.linkUp, Bool.not_true, Bool.and_false]
  | @channelClosesLast pc hserving hdown _ =>
      have hends : endsLink u ((u.channelCloses l).linkEnds l pc) l' = decide (l' = l) := by
        apply Eq.trans (endsLink_of_pc (Function.update_idem ..))
        rw [hserving, hdown, LoopPc.linkUp, Bool.not_false, Bool.and_true, Bool.and_true]
      have hclosed : (u.channelCloses l).log.count (.onDisconnected l')
          = u.log.count (.onDisconnected l') := count_of_quiet (by simp) u.log
      apply (count_onDisconnected (u.channelCloses l).log).trans
      simp only [hends, hclosed, decide_eq_true_eq]

theorem count_linksStep {b : Build} {cfg : RuntimeCfg} {i : LinksLabel}
    (hs : linksStep b cfg u i = some t) (l' : LinkLoop) :
    t.log.count (.onDisconnected l')
      = u.log.count (.onDisconnected l') + if endsLink u t l' then 1 else 0 := by
  rcases moves_of_linksStep hs with ⟨hlog, hpc⟩ | ⟨l, v, hmove, hlog, hpc⟩
  · rw [hlog, endsLink, hpc, Bool.and_not_self]
    rfl
  · rw [hlog, endsLink, hpc]
    exact count_loopMove hmove l'

end Log

/-! ## What a step does -/

section Moves

variable {b : Build} {cfg : RuntimeCfg} {s : Disconnects K}

theorem endsLink_self (links : Links) (l : LinkLoop) : endsLink links links l = false := by
  rw [endsLink, Bool.and_not_self]

/-- The session makes a step, or none. -/
inductive Moves (b : Build) (cfg : RuntimeCfg) (s : Disconnects K) : Disconnects K → Prop
  | stays {events : EventState K} {hostReason : LinkLoop → Option UInt8}
      (hreason : ∀ l, s.hostReason l ≠ hostReason l → s.linkPolled l = true) :
      Moves b cfg s { s with events, hostReason }
  | follows {events : EventState K} {i : LinksLabel} {t : Links}
      (hs : linksStep b cfg s.links i = some t) :
      Moves b cfg s { s.follow cfg t with events }

theorem moves_linksMove (events : EventState K) (i : LinksLabel) :
    Moves b cfg s (({ s with events } : Disconnects K).linksMove b cfg i) := by
  unfold linksMove
  split
  · rename_i t hs
    exact .follows hs
  · exact .stays fun l hne => absurd rfl hne

theorem moves_afterEvent (i : LinksLabel) (flow : Flow (EventState K)) :
    Moves b cfg s (s.afterEvent b cfg i flow) := by
  cases flow with
  | next events => exact .stays fun l hne => absurd rfl hne
  | stop events => exact moves_linksMove events i

theorem disconnectedReason_eq (l : LinkLoop) : disconnectedReason l = 0 := by
  cases l with
  | serve => rfl
  | central => rfl

theorem reasonsTold_entered (links : Links) (events : EventState K) :
    (entered links events).ReasonsTold := by
  intro l c hc
  cases hc

end Moves

section Runs

variable [DecidableEq K] [HostKeys K] {b : Build} {cfg : RuntimeCfg}
  {app : List LinkOutput → Option (OobData × OobData)}
  {gattEvent : EventState K → G → EventState K} {s : Disconnects K}

theorem moves_step (i : DisconnectsStep K G) :
    Moves b cfg s (s.step b cfg app gattEvent i) := by
  have hidle : Moves b cfg s s := .stays fun l hne => absurd rfl hne
  cases i with
  | links i => exact moves_linksMove s.events i
  | disconnected l reason =>
      rw [step]
      split
      · rename_i hpolled
        refine .stays fun l' hne => ?_
        by_cases hl : l' = l
        · exact hl ▸ hpolled.1
        · rw [Function.update_of_ne hl] at hne
          exact absurd rfl hne
      · exact hidle
  | serveEvent e =>
      rw [step]
      split
      · exact moves_afterEvent _ _
      · exact hidle
  | centralEvent e =>
      rw [step]
      split
      · exact moves_afterEvent _ _
      · exact hidle

/-- A call of `on_disconnected` is made where a link ends, with what the
code has for it. -/
theorem calls_step (i : DisconnectsStep K G) (l : LinkLoop) :
    (s.step b cfg app gattEvent i).calls l
      = if endsLink s.links (s.step b cfg app gattEvent i).links l
            && cfg.callbacks.onDisconnected then
          { reason := disconnectedReason l, hostReason := s.hostReason l } :: s.calls l
        else s.calls l := by
  generalize hstep : s.step b cfg app gattEvent i = t
  have hmoves : Moves b cfg s t := hstep ▸ moves_step i
  cases hmoves with
  | stays hreason =>
      rw [endsLink_self, Bool.false_and]
      rfl
  | follows hs => rfl

/-! ## Runs -/

theorem ReasonsTold.step (h : s.ReasonsTold) {i : DisconnectsStep K G}
    (hok : s.EndsNoneWithReason b cfg app gattEvent i) :
    (s.step b cfg app gattEvent i).ReasonsTold := by
  intro l c hc reason hreason
  rw [calls_step] at hc
  split at hc
  · rename_i hends
    rw [Bool.and_eq_true] at hends
    rcases List.mem_cons.mp hc with rfl | hc
    · have hzero : reason = 0 := hok hends.2 l reason hreason hends.1
      exact (disconnectedReason_eq l).trans hzero.symm
    · exact h l c hc reason hreason
  · exact h l c hc reason hreason

theorem endsNoneWithReason_of_step {i : DisconnectsStep K G}
    (h : (s.step b cfg app gattEvent i).ReasonsTold) :
    s.EndsNoneWithReason b cfg app gattEvent i := by
  intro hset l reason hreason hends
  have hcall : { reason := disconnectedReason l, hostReason := s.hostReason l }
      ∈ (s.step b cfg app gattEvent i).calls l := by
    rw [calls_step, hends, hset]
    exact List.mem_cons_self
  have htold : disconnectedReason l = reason := h l _ hcall reason hreason
  exact htold.symm.trans (disconnectedReason_eq l)

/-- The session goes its way, and what `calls` has of a link is what the
session has logged. -/
structure Kept (b : Build) (cfg : RuntimeCfg) (s : Disconnects K) : Prop where
  reachable : (Session.links b cfg).Reachable s.links
  linked : ∀ l, s.hostReason l ≠ none → (s.links.pc l).linkUp = true
  logged : cfg.callbacks.onDisconnected = true →
    ∀ l, (s.calls l).length = s.links.log.count (.onDisconnected l)

theorem Kept.step (h : s.Kept b cfg) (i : DisconnectsStep K G) :
    (s.step b cfg app gattEvent i).Kept b cfg := by
  generalize hstep : s.step b cfg app gattEvent i = t
  have hmoves : Moves b cfg s t := hstep ▸ moves_step i
  cases hmoves with
  | @stays events hostReason hreason =>
      refine ⟨h.reachable, fun l hne => ?_, h.logged⟩
      by_cases hsame : s.hostReason l = hostReason l
      · exact h.linked l (by rw [hsame]; exact hne)
      · have hpolled := hreason l hsame
        rw [linkPolled, Bool.and_eq_true] at hpolled
        exact hpolled.1
  | @follows events i t hs =>
      refine ⟨.next h.reachable trivial hs, fun l hne => ?_, fun hset l => ?_⟩
      · have hstays : endsLink s.links t l = false := by
          by_contra hends
          rw [Bool.not_eq_false] at hends
          exact hne (if_pos hends)
        have hreason : s.hostReason l ≠ none := by
          simp only [follow, hstays] at hne
          exact hne
        have hup := h.linked l hreason
        rw [endsLink, hup, Bool.true_and, Bool.not_eq_false'] at hstays
        exact hstays
      · have hcount := count_linksStep hs l
        rw [← h.logged hset l] at hcount
        refine Eq.trans ?_ hcount.symm
        simp only [follow, hset, Bool.and_true]
        split
        · rfl
        · rfl

theorem Kept.run {links : Links} (h : (Session.links b cfg).init links) (events : EventState K)
    (is : List (DisconnectsStep K G)) :
    (is.foldl (Disconnects.step b cfg app gattEvent) (entered links events)).Kept b cfg := by
  have hstart : links.log = [] := by
    obtain ⟨unloadReq, rfl | ⟨-, rfl⟩⟩ := h
    · rfl
    · rfl
  refine foldl_keeps (P := Kept b cfg) (fun s i _ hs => hs.step i) ?_
  refine ⟨.start h, fun l hne => absurd rfl hne, fun _ l => ?_⟩
  rw [entered, hstart, List.count_nil]
  rfl

end Runs

/-- **The application is told the reason** for which the host has ended a
link, in exactly the runs in which no link ends that the host has ended with
a reason other than 0. -/
theorem reason_told_iff [DecidableEq K] [HostKeys K] (b : Build) (cfg : RuntimeCfg)
    (app : List LinkOutput → Option (OobData × OobData))
    (gattEvent : EventState K → G → EventState K) (links : Links) (events : EventState K)
    (is : List (DisconnectsStep K G)) :
    Always (step b cfg app gattEvent) ReasonsTold (entered links events) is
      ↔ EachStep (step b cfg app gattEvent) (EndsNoneWithReason b cfg app gattEvent)
          (entered links events) is :=
  always_iff_eachStep (P := ReasonsTold) (fun _ h => h) (fun _ _ h hok => h.step hok)
    (fun _ _ _ h => endsNoneWithReason_of_step h) is _ (reasonsTold_entered links events)

/-- The callbacks that tell of the end of a link. -/
def tellingCfg (role : UInt8) : RuntimeCfg where
  role
  callbacks := { onDisconnected := true, onLog := true }

/-- The session behind `is`, for a central or a peripheral. -/
def tellingRun (role : UInt8) (is : List (DisconnectsStep IdentityKey Unit)) :
    Disconnects IdentityKey :=
  is.foldl (step { central := true } (tellingCfg role) (fun _ => none) fun s _ => s)
    (entered (linksStart { central := true } (tellingCfg role) false)
      { bonds := .boot fun _ => [], log := [] })

/-- The peer ends the link, and the event loop of the peripheral with it. -/
def peerTerminates : List (DisconnectsStep IdentityKey Unit) :=
  [.links (.serve (.advertise true)), .disconnected .serve 0x13, .serveEvent (.disconnected 0x13)]

/-- The link of the central is lost, and `client_session` returns first. -/
def supervisionTimeout : List (DisconnectsStep IdentityKey Unit) :=
  [.links (.central .look), .links (.central (.idleCmd (some .connect))),
    .links (.central (.connect true)), .disconnected .central 0x08,
    .links (.central (.connTask .host))]

/-- The reason is in the log, and the application is told 0. -/
theorem reason_not_told :
    (¬ (tellingRun 0 peerTerminates).ReasonsTold
      ∧ (tellingRun 0 peerTerminates).calls .serve = [{ reason := 0, hostReason := some 0x13 }]
      ∧ (tellingRun 0 peerTerminates).events.log = [.onLog (disconnectedLine 0x13)])
    ∧ ¬ (tellingRun 1 supervisionTimeout).ReasonsTold
      ∧ (tellingRun 1 supervisionTimeout).calls .central
          = [{ reason := 0, hostReason := some 0x08 }] := by
  have hno : ∀ (s : Disconnects IdentityKey) (l : LinkLoop) (reason : UInt8),
      s.calls l = [{ reason := 0, hostReason := some reason }] → reason ≠ 0 →
      ¬ s.ReasonsTold := by
    intro s l reason hcalls hne htold
    refine hne (htold l { reason := 0, hostReason := some reason } ?_ reason rfl).symm
    rw [hcalls]
    exact List.mem_singleton_self _
  exact ⟨⟨hno _ .serve 0x13 rfl (by decide), rfl, rfl⟩, hno _ .central 0x08 rfl (by decide), rfl⟩

end Disconnects

end RuntimeBle.Link
