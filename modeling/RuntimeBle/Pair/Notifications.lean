import RuntimeBle.Pair.Exchange
import RuntimeBle.Server.Transmissions

/-!
# Pair — Notifications

The way of a value from a server to its client, both of them this runtime:
a request that the server's application makes, on one thread and in the
peripheral role, the transmission that the tx loop makes of it, and the
notification pump of `client_session`.

What is transmitted is received in order, and some of it may be lost where
the connection is.
-/

namespace RuntimeBle.Pair

open RuntimeBle.Lib RuntimeBle.Request RuntimeBle.Server RuntimeBle.Client

/-! ## The notification pump -/

/-- What `notifs` awaits beside the notifications. -/
inductive NotifyQuery where
  | confirmIndication
deriving DecidableEq

/-- A call of `on_notification`. -/
structure Notified where
  handle : UInt16
  bytes : List UInt8
deriving DecidableEq

/-- The result of `confirm_indication` is dropped. -/
abbrev NotifyDialogue := Dialogue NotifyQuery (fun _ => Bool) Notified Unit

/-- A line of its transcript. -/
abbrev NotifyLine := Dialogue.Line NotifyQuery (fun _ => Bool) Notified

/-- A round of `notifs`; `onNotification` tells that the callback is set. -/
def notifsRound (onNotification : Bool) (n : Transmission) : NotifyDialogue :=
  .emits (if onNotification then [{ handle := n.handle, bytes := n.bytes }] else [])
    (if n.indication then .ask .confirmIndication fun _ => .ret () else .ret ())

/-- `notifs` over what has been received. -/
def notifs (onNotification : Bool) (received : List Transmission) : NotifyDialogue :=
  .forEach received () fun n _ => notifsRound onNotification n

/-- What is said and asked for one notification. -/
def notifsScript (onNotification : Bool) (n : Transmission) : List (Notified ⊕ NotifyQuery) :=
  (if onNotification then [.inl { handle := n.handle, bytes := n.bytes }] else [])
    ++ if n.indication then [.inr .confirmIndication] else []

/-- What a line tells the application, if it does. -/
def notifiedOf : NotifyLine → Option Notified
  | .said e => some e
  | .answered _ _ => none

theorem follows_notifs (onNotification : Bool) (received : List Transmission) :
    Dialogue.Follows (received.flatMap (notifsScript onNotification))
      (notifs onNotification received) := by
  apply Dialogue.Follows.forEach
  intro n _
  have hconfirm : Dialogue.Follows (if n.indication then [.inr .confirmIndication] else [])
      (if n.indication then .ask .confirmIndication fun _ => .ret () else .ret () :
        NotifyDialogue) := by
    split
    · exact .ask fun _ => .ret
    · exact .ret
  unfold notifsRound notifsScript
  cases onNotification with
  | false => exact hconfirm
  | true => exact .emit hconfirm

/-- The callbacks of a part of a run are the first of what was received. -/
theorem notified_of_plays {onNotification : Bool} {received : List Transmission}
    {ls : List NotifyLine} {d : NotifyDialogue}
    (h : (notifs onNotification received).Plays ls d) :
    ls.filterMap notifiedOf
      <+: if onNotification then received.map fun n => { handle := n.handle, bytes := n.bytes }
        else [] := by
  obtain ⟨rest, hscript⟩ := (follows_notifs onNotification received).of_plays h
  have hsaid : ∀ ls : List NotifyLine, (ls.map Dialogue.Line.shape).filterMap Sum.getLeft?
      = ls.filterMap notifiedOf := by
    intro ls
    rw [List.filterMap_map]
    apply List.filterMap_congr
    intro l _
    cases l <;> rfl
  have hall : (received.flatMap (notifsScript onNotification)).filterMap Sum.getLeft?
      = if onNotification then received.map fun n => { handle := n.handle, bytes := n.bytes }
        else [] := by
    have hround : ∀ n ∈ received, (notifsScript onNotification n).filterMap Sum.getLeft?
        = if onNotification then [{ handle := n.handle, bytes := n.bytes }] else [] := by
      intro n _
      unfold notifsScript
      cases onNotification <;> cases n.indication <;> rfl
    rw [List.filterMap_flatMap, List.flatMap_congr hround]
    cases onNotification with
    | false => exact List.flatMap_eq_nil_iff.mpr fun _ _ => rfl
    | true => exact List.map_eq_flatMap.symm
  refine ⟨rest.filterMap Sum.getLeft?, ?_⟩
  rw [← hall, ← hscript, List.filterMap_append, hsaid]

/-! ## From the request to the callback -/

/-- What the application of the client is to be told of a request, from the
request and the declarations alone. -/
def toTell (T : Trouble) (b : Build) (nus : Bool) (placed : List Placed) (r : TxRequest) :
    Option Notified :=
  (wanted T b nus placed r).map fun t => { handle := t.handle, bytes := t.bytes }

/-- The characteristic can be notified or indicated. -/
def Notifies (e : Placed) : Prop := e.1.props &&& (cPropNotify ||| cPropIndicate) ≠ 0

theorem notifies_of_allowed {e : Placed} {indication : Bool}
    (h : e.1.props &&& (if indication then cPropIndicate else cPropNotify) ≠ 0) :
    Notifies e := by
  intro hnone
  apply h
  have hmask : (cPropNotify ||| cPropIndicate) &&& (if indication then cPropIndicate
      else cPropNotify) = if indication then cPropIndicate else cPropNotify := by
    cases indication <;> decide
  rw [← hmask, ← UInt16.and_assoc, hnone, UInt16.zero_and]

/-- **Notifications come from requests.** Over any run of the server's one
calling thread, connections and sessions in the peripheral role, and wherever
the client's session ends: `on_notification` is called, in the order of the
accepted requests and for some of those that were taken, with the bytes of the
request, cut to `VALUE_LEN`, and the handle of the characteristic it is for,
which discovery has announced and which can be notified or indicated. The pump
confirms indications, each of them behind its callback, and nothing else. -/
theorem notifications_come_from_requests (T : Trouble) (b : Build) (cfg : RuntimeCfg)
    (name : List UInt8) (g : Gatt) (hbuild : buildGatt T b cfg name = .ok g) {s : TxState}
    (hs : (txMachine b).Reachable s) {received : List Transmission}
    (hreceived : received.Sublist (transmitted g s)) (onNotification : Bool)
    {ls : List NotifyLine} {d : NotifyDialogue}
    (hplays : (notifs onNotification received).Plays ls d) :
    ∃ placed, Listed T g placed ∧ placed.map (·.1) = declared (effectiveServices cfg.services)
      ∧ (ls.filterMap notifiedOf).Sublist
          ((consumed s).filterMap (toTell T b (cfg.services.getD [] = []) placed))
      ∧ ls.map Dialogue.Line.shape <+: received.flatMap (notifsScript onNotification)
      ∧ ∀ n ∈ ls.filterMap notifiedOf, n.bytes.length ≤ b.valueLen ∧ ∃ e ∈ placed, Notifies e
          ∧ announced T e
            = .onDiscovered n.handle (uuidFrom e.1.uuid) (e.1.props &&& cPropMask) := by
  obtain ⟨placed, hlisted, hmap⟩ := listed_of_buildGatt hbuild
  have heq := transmitted_eq hbuild hlisted hs
  have hfirst := notified_of_plays hplays
  have hsublist : (ls.filterMap notifiedOf).Sublist ((transmitted g s).map fun t =>
      ({ handle := t.handle, bytes := t.bytes } : Notified)) := by
    cases onNotification with
    | false =>
        rw [List.prefix_nil.mp hfirst]
        exact List.nil_sublist _
    | true => exact hfirst.sublist.trans (hreceived.map _)
  refine ⟨placed, hlisted, hmap, ?_, (follows_notifs onNotification received).of_plays hplays, ?_⟩
  · rw [heq, List.map_filterMap] at hsublist
    exact hsublist
  · intro n hn
    obtain ⟨t, ht, rfl⟩ := List.mem_map.mp (hsublist.subset hn)
    rw [heq] at ht
    obtain ⟨r, -, hr⟩ := List.mem_filterMap.mp ht
    obtain ⟨i, e, he, -, hhandle, hallowed, hbytes⟩ := wanted_eq_some hr
    refine ⟨?_, e, List.mem_of_getElem? he, notifies_of_allowed hallowed, ?_⟩
    · rw [hbytes, payload, List.length_take]
      exact Nat.min_le_left ..
    · rw [hhandle]
      rfl

/-- The send on the built-in service. -/
theorem notifications_come_from_requests_nus : ∃ ls : List NotifyLine,
    ls.filterMap notifiedOf = [{ handle := 10, bytes := [7, 8] }]
    ∧ ∀ n ∈ ls.filterMap notifiedOf, n.bytes.length ≤ 128 := by
  obtain ⟨g, s, hbuild, hs, -, hsent⟩ := sent_nus
  have hplays : (notifs true [{ handle := 10, indication := false, bytes := [7, 8] }]).Plays
      [.said { handle := 10, bytes := [7, 8] }] (.ret ()) := .emit .refl
  obtain ⟨placed, -, -, -, -, htold⟩ := notifications_come_from_requests countingHost {} {} [] g
    hbuild hs (hsent ▸ List.Sublist.refl _) true hplays
  exact ⟨_, rfl, fun n hn => (htold n hn).1⟩

end RuntimeBle.Pair
