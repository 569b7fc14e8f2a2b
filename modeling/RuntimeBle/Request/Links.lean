import RuntimeBle.Lib.Desk
import RuntimeBle.Request.Handover

/-!
# Request — Links

One connection after another, on the peripheral link or on the central
link. The slots are statics: they outlive the futures of a connection, and
`link_control` and the tx loop of the next one find them as they were left.

A request carries the number of the connection that was active when it was
accepted, a consumer that of the connection it works for. What a consumer
has read before its first await goes to its own connection or nowhere, so a
turn takes effect at once.
-/

namespace RuntimeBle.Request

open RuntimeBle.Lib Mailbox

/-- The two loops that serve a link. -/
inductive LinkRole where
  | peripheral
  | central

/-- The consumers that poll while a link is up: `connection_task` runs the
tx loop and `link_control`, `central_connection_events` the latter only. -/
def LinkRole.polls : LinkRole → Consumer → Bool
  | .peripheral, .txLoop | .peripheral, .linkControl | .central, .linkControl => true
  | _, _ => false

/-- The statics, with calls tagged by the connection they were accepted in. -/
abbrev LinkDesk := Desk Slot Word Buf (ApiCall × Option Nat) (Consumer × Nat) Outcome

/-- The statics and the connection. -/
structure LinkState where
  desk : LinkDesk
  link : Option Nat
  /-- The number of the next connection. -/
  count : Nat

namespace LinkState

/-- Before the first connection. -/
def start (p : ReqParams) : LinkState := { desk := Desk.start p, link := none, count := 0 }

/-- The connection a queued request was made on. -/
def madeOn (s : LinkState) (slot : Slot) : Option Nat := (s.desk.slot slot).bind (·.req.2)

end LinkState

/-- Connections come and go, calls are made, and loops poll. -/
inductive LinkLabel where
  | connect
  | disconnect
  | call (a : ApiCall)
  | poll (k : Consumer)
  | run

/-- One step; what is not possible in a state changes nothing. -/
def linkStep (b : Build) (isValid : RequestedConnParams → Bool) (role : LinkRole)
    (s : LinkState) : LinkLabel → LinkState
  | .connect =>
      if s.link.isNone then { s with link := some s.count, count := s.count + 1 } else s
  | .disconnect => { s with link := none }
  | .call a =>
      match a.entry b with
      | .error _ => s
      | .ok c => { s with desk := (s.desk.call (a, s.link) c).2 }
  | .poll k =>
      match s.link with
      | none => s
      | some n =>
          if role.polls k then { s with desk := s.desk.serve (mailbox b isValid).tagged (k, n) }
          else s
  -- `runtime_ble_run`, at the start of a session
  | .run =>
      if s.link.isNone then
        { s with desk := { s.desk with slot := Function.update s.desk.slot .sendReq none } }
      else s

/-! ## The two halves of the property -/

/-- Every request made on a connection was carried out on that connection. -/
def InPlace (s : LinkState) : Prop :=
  ∀ r k o, (r, k, o) ∈ s.desk.served → ∀ n, r.2 = some n → k.2 = n

/-- A request is queued no longer than its connection lasts. -/
def Discarded (role : LinkRole) (s : LinkState) : Prop :=
  ∀ k, role.polls k = true → ∀ n, s.madeOn k.slotOf = some n → s.link = some n

/-- No connection ends while a request of its own still waits. -/
def Drained (role : LinkRole) (s : LinkState) : LinkLabel → Prop
  | .disconnect => ∀ k, role.polls k = true → s.madeOn k.slotOf = none
  | _ => True

/-! ## Steps -/

variable {b : Build} {isValid : RequestedConnParams → Bool} {role : LinkRole} {s : LinkState}

theorem madeOn_update {slot slot' : Slot} {v : Option (Queued (ApiCall × Option Nat))}
    {d : LinkDesk} (h : d.slot = Function.update s.desk.slot slot' v) :
    ({ s with desk := d } : LinkState).madeOn slot
      = if slot = slot' then v.bind (·.req.2) else s.madeOn slot := by
  by_cases hs : slot = slot'
  · subst hs
    simp [LinkState.madeOn, h]
  · simp [LinkState.madeOn, h, hs]

/-- What is emptied is not queued any longer. -/
theorem Discarded.emptied {slot : Slot} {d : LinkDesk} (hs : Discarded role s)
    (h : d.slot = Function.update s.desk.slot slot none) :
    Discarded role { s with desk := d } := by
  intro k hk n hn
  rw [madeOn_update h] at hn
  split at hn
  · cases hn
  · exact hs k hk n hn

theorem Discarded.called {a : ApiCall} {c : ReqCall} (hs : Discarded role s) :
    Discarded role { s with desk := (s.desk.call (a, s.link) c).2 } := by
  intro k hk n hn
  cases hfree : s.desk.slot c.slot with
  | some q =>
      simp only [Desk.call, hfree] at hn
      exact hs k hk n hn
  | none =>
      simp only [Desk.call, hfree] at hn
      rw [madeOn_update rfl] at hn
      split at hn
      · exact hn
      · exact hs k hk n hn

/-- A turn of a consumer that polls serves the link that is up. -/
theorem InPlace.served {k : Consumer} {n : Nat} (hs : InPlace s) (hd : Discarded role s)
    (hk : role.polls k = true) (hn : s.link = some n) :
    InPlace { s with desk := s.desk.serve (mailbox b isValid).tagged (k, n) } := by
  unfold Desk.serve
  split
  · exact hs
  · rename_i q hq
    intro r k' o hmem m hm
    rcases List.mem_append.mp hmem with hold | hnew
    · exact hs r k' o hold m hm
    · simp only [List.mem_singleton, Prod.mk.injEq] at hnew
      obtain ⟨rfl, rfl, -⟩ := hnew
      have hmade : s.madeOn k.slotOf = some m := by
        rw [LinkState.madeOn, show s.desk.slot k.slotOf = some q from hq]
        exact hm
      have hup := hd k hk m hmade
      rw [hn] at hup
      exact Option.some.inj hup

theorem Discarded.served {k : Consumer} {n : Nat} (hd : Discarded role s) :
    Discarded role { s with desk := s.desk.serve (mailbox b isValid).tagged (k, n) } := by
  unfold Desk.serve
  split
  · exact hd
  · exact hd.emptied rfl

theorem link_step {l : LinkLabel} (hs : InPlace s ∧ Discarded role s) (hl : Drained role s l) :
    InPlace (linkStep b isValid role s l) ∧ Discarded role (linkStep b isValid role s l) := by
  obtain ⟨hplace, hdiscarded⟩ := hs
  cases l with
  | connect =>
      simp only [linkStep]
      split
      · rename_i hdown
        -- nothing made on a connection is queued while there is none
        refine ⟨hplace, fun k hk n hn => ?_⟩
        have hup := hdiscarded k hk n hn
        simp [hup] at hdown
      · exact ⟨hplace, hdiscarded⟩
  | disconnect =>
      refine ⟨hplace, fun k hk n hn => ?_⟩
      have hnone := hl k hk
      rw [show s.madeOn k.slotOf = some n from hn] at hnone
      cases hnone
  | call a =>
      simp only [linkStep]
      split
      · exact ⟨hplace, hdiscarded⟩
      · rename_i c _
        refine ⟨?_, hdiscarded.called⟩
        intro r k o hmem
        apply hplace r k o
        simp only [Desk.call] at hmem
        split at hmem <;> exact hmem
  | poll k =>
      simp only [linkStep]
      split
      · exact ⟨hplace, hdiscarded⟩
      · rename_i n hn
        split
        · rename_i hk
          exact ⟨hplace.served hdiscarded hk hn, hdiscarded.served⟩
        · exact ⟨hplace, hdiscarded⟩
  | run =>
      simp only [linkStep]
      split
      · exact ⟨hplace, hdiscarded.emptied rfl⟩
      · exact ⟨hplace, hdiscarded⟩

/-! ## Runs -/

/-- **Requests keep to their connection exactly in the runs** in which no
connection ends with a request of its own still queued. -/
theorem requests_keep_link_iff (b : Build) (isValid : RequestedConnParams → Bool)
    (role : LinkRole) (p : ReqParams) (ops : List LinkLabel) :
    Always (linkStep b isValid role) (fun s => InPlace s ∧ Discarded role s) (.start p) ops
      ↔ EachStep (linkStep b isValid role) (Drained role) (.start p) ops := by
  refine always_iff_eachStep (fun _ h => h) (fun _ _ => link_step) ?_ ops _ ?_
  · intro s l hs hnext
    cases l with
    | disconnect =>
        intro k hk
        by_contra hne
        obtain ⟨n, hn⟩ := Option.ne_none_iff_exists'.mp hne
        cases hnext.2 k hk n hn
    | _ => trivial
  · constructor
    · intro r k o h
      cases h
    · intro k hk n h
      cases h

/-- A notification queued between the last poll and the disconnect goes to
the next peer. -/
theorem send_reaches_next_peer :
    ¬ Always (linkStep {} (fun _ => true) .peripheral) InPlace (.start bootMem.params)
      [.connect, .call (.send (some [1])), .disconnect, .connect, .poll .txLoop] := by
  intro h
  have hlast := h.2.2.2.2.2 (.send (some [1]), some 0) (.txLoop, 1)
    (.tx { chr := nusTxChr, kind := sendKindAuto, bytes := [1] }) (by decide) 0 rfl
  cases hlast

end RuntimeBle.Request
