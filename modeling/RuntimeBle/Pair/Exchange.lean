import RuntimeBle.Client.Subscriptions
import RuntimeBle.Pair.Discovery

/-!
# Pair — Exchange

What the operations of a client come to at a server, both of them this
runtime: the ATT requests of a run, and the callbacks that the server's loop
makes for them.

A request may fail: it is refused by the server's host, or gets lost with the
link on its way there or back. `Served` has the callbacks of those that have
succeeded, and may have those of the others.

Between an operation and its request there is the store of the client, which
knows the CCCD of a characteristic if it has been discovered and had room,
and has the next handle otherwise. In the table of a server the one is the
other, so it does not matter.
-/

namespace RuntimeBle.Pair

open RuntimeBle.Lib RuntimeBle.Server RuntimeBle.Client
open RuntimeBle.Request (ClientOp)

/-! ## Requests -/

/-- The event that a request is for the server's loop; the other requests
are answered by its host. -/
def event : ClientQuery → Option GattEvent
  | .writeHandle h bytes | .writeHandleWithoutResponse h bytes => some (.write h 0 bytes)
  | .readHandle h => some (.read h)
  | _ => none

/-- The event of a request that has been asked, whatever its answer. -/
def eventOf : ClientLine → Option GattEvent
  | .answered q _ => event q
  | .said _ => none

/-- The request of an operation that has one for the server's loop. -/
def request (store : ClientCharStore) : ClientOp → Option GattEvent
  | .read h => some (.read h)
  | .write h bytes | .writeNoRsp h bytes => some (.write h 0 bytes)
  | .subscribe h => some (.write (cccdFor store h) 0 [1, 0])
  | .subscribeIndicate h => some (.write (cccdFor store h) 0 [2, 0])
  | .unsubscribe h => some (.write (cccdFor store h) 0 [0, 0])
  | _ => none

/-- There is a response to the request. -/
def confirms : ClientQuery → Bool
  | .writeHandleWithoutResponse _ _ => false
  | _ => true

section Served

variable (b : Build) (callbacks : RuntimeBleCallbacks) (g : Gatt)
  (answer : ServerCallback → Bytes b.valueLen × Nat)

/-- The callbacks of the server's application for a request that its loop
has handled. -/
def handled (q : ClientQuery) : List ServerCallback :=
  (event q).toList.flatMap (gattEvent b callbacks g answer)

/-- The callbacks of the server's application for the requests of a run, as
long as its loop is not dropped behind the response to a write: the loop has
handled what a response has confirmed, and it may have what has failed, or
has no response. -/
inductive Served : List ClientLine → List ServerCallback → Prop
  | nil : Served [] []
  | said {e : ClientCallback} {ls : List ClientLine} {calls : List ServerCallback}
      (h : Served ls calls) : Served (.said e :: ls) calls
  | handled {q : ClientQuery} {a : q.Answer} {ls : List ClientLine} {calls : List ServerCallback}
      (h : Served ls calls) :
      Served (.answered q a :: ls) (handled b callbacks g answer q ++ calls)
  | lost {q : ClientQuery} {a : q.Answer} {ls : List ClientLine} {calls : List ServerCallback}
      (hq : ¬ (confirms q = true ∧ q.endedWell a = true)) (h : Served ls calls) :
      Served (.answered q a :: ls) calls

/-- The callbacks for a line of a run in which nothing is lost. -/
def handledOf : ClientLine → List ServerCallback
  | .answered q _ => handled b callbacks g answer q
  | .said _ => []

variable {b callbacks g answer}

/-- Nothing may be lost. -/
theorem served_handledOf (ls : List ClientLine) :
    Served b callbacks g answer ls (ls.flatMap (handledOf b callbacks g answer)) := by
  induction ls with
  | nil => exact .nil
  | cons l ls ih =>
      cases l with
      | said e => exact .said ih
      | answered q a => exact .handled ih

/-- The callbacks for the parts of a run, one behind the other. -/
theorem Served.append {ls ls' : List ClientLine} {calls : List ServerCallback}
    (h : Served b callbacks g answer (ls ++ ls') calls) :
    ∃ first rest, calls = first ++ rest ∧ Served b callbacks g answer ls first
      ∧ Served b callbacks g answer ls' rest := by
  induction ls generalizing calls with
  | nil => exact ⟨[], calls, rfl, .nil, h⟩
  | cons l ls ih =>
      cases h with
      | said h =>
          obtain ⟨first, rest, rfl, hfirst, hrest⟩ := ih h
          exact ⟨first, rest, rfl, .said hfirst, hrest⟩
      | handled h =>
          obtain ⟨first, rest, rfl, hfirst, hrest⟩ := ih h
          exact ⟨_, rest, (List.append_assoc ..).symm, .handled hfirst, hrest⟩
      | lost hlost h =>
          obtain ⟨first, rest, rfl, hfirst, hrest⟩ := ih h
          exact ⟨first, rest, rfl, .lost hlost hfirst, hrest⟩

theorem Served.flatten {runs : List (List ClientLine)} {calls : List ServerCallback}
    (h : Served b callbacks g answer runs.flatten calls) :
    ∃ parts, calls = parts.flatten ∧ List.Forall₂ (Served b callbacks g answer) runs parts := by
  induction runs generalizing calls with
  | nil =>
      cases h
      exact ⟨[], rfl, .nil⟩
  | cons ls runs ih =>
      obtain ⟨first, rest, rfl, hfirst, hrest⟩ := h.append
      obtain ⟨parts, rfl, hparts⟩ := ih hrest
      exact ⟨first :: parts, rfl, .cons hfirst hparts⟩

end Served

/-! ## What an operation is for -/

/-- The handle of an operation on one attribute. -/
def aim : ClientOp → Option UInt16
  | .read h | .write h _ | .writeNoRsp h _ => some h
  | .subscribe h | .subscribeIndicate h | .unsubscribe h => some h
  | _ => none

/-- The callback of the server's application for an operation on the
attribute; for a subscription, the attribute is the value it is for. -/
def asked (b : Build) (callbacks : RuntimeBleCallbacks) (nus : Bool) (h : UInt16) (t : Target) :
    ClientOp → Option ServerCallback
  | .read _ => readCallback b callbacks h t
  | .write _ bytes | .writeNoRsp _ bytes => writeCallback b callbacks nus h 0 bytes t
  | .subscribe _ => writeCallback b callbacks nus h 0 [1, 0] (.cccd t.index)
  | .subscribeIndicate _ => writeCallback b callbacks nus h 0 [2, 0] (.cccd t.index)
  | .unsubscribe _ => writeCallback b callbacks nus h 0 [0, 0] (.cccd t.index)
  | _ => none

/-- Subscriptions are for values that have a CCCD. -/
def Subscribes (placed : List Placed) (o : ClientOp) (t : Target) : Prop :=
  ∀ h, subscribed o = some h →
    ∃ i e, t = .value i ∧ placed[i]? = some e ∧ hasCccd (mapProps e.1.props) = true

/-- The operations that discover. -/
def discovers : ClientOp → Bool
  | .discoverServices | .discover _ | .discoverAll | .discoverDescriptors _ _ => true
  | _ => false

/-- The client's application is told that the operation has succeeded, which
of a write without a response does not mean that it has come through. -/
def Confirmed (o : ClientOp) (ls : List ClientLine) : Prop :=
  (∀ h bytes, o ≠ .writeNoRsp h bytes)
    ∧ ∃ x ∈ ls.filterMap statusOf, x.status = clientStatusOk

/-- What the run of an operation makes at the server: discovery makes no
callback, and an operation on an attribute that of the attribute, or none
where it is not confirmed. -/
structure Reaches (T : Trouble) (b : Build) (cfg : RuntimeCfg) (g : Gatt) (placed : List Placed)
    (answer : ServerCallback → Bytes b.valueLen × Nat) (o : ClientOp) (ls : List ClientLine) :
    Prop where
  discovery : discovers o = true → ∀ calls, Served b cfg.callbacks g answer ls calls → calls = []
  aimed : ∀ h t, aim o = some h → Names T placed h t → Subscribes placed o t →
    ∀ calls, Served b cfg.callbacks g answer ls calls →
      calls = (asked b cfg.callbacks (cfg.services.getD [] = []) h t o).toList
      ∨ calls = [] ∧ ¬ Confirmed o ls

/-! ## Handles and the store -/

/-- The host numbers attributes one after another. -/
def Consecutive (T : Trouble) (n : Nat) : Prop :=
  ∀ p, p + 1 < n → T.handleOf (p + 1) = T.handleOf p + 1

/-- The characteristics of the GAP configuration are among its attributes. -/
def InGap (T : Trouble) (gap : List PeerService) : Prop :=
  ∀ s ∈ gap, ∀ c ∈ s.chars, ∃ q < T.gapAttributes, c.handle = T.handleOf q

/-- The characteristics of the table and of the GAP configuration. -/
def database (T : Trouble) (g : Gatt) (gap : List PeerService) : List Client.Characteristic :=
  (gap ++ servicesFrom T 0 g.table).flatMap (·.chars)

/-- The store has nothing but what is in the database. -/
def Known (T : Trouble) (g : Gatt) (gap : List PeerService) (store : ClientCharStore) : Prop :=
  ∀ c ∈ store, ∃ d ∈ database T g gap, c = (d.handle, d.cccdHandle)

/-- What discovery has returned is in the database. -/
def AnsweredFrom (T : Trouble) (g : Gatt) (gap : List PeerService) (ls : List ClientLine) : Prop :=
  ∀ s chars, .answered (.characteristics s) (some chars) ∈ ls →
    ∀ c ∈ chars, c ∈ database T g gap

section Handles

variable {T : Trouble} {n : Nat}

theorem Consecutive.handleOf_eq (h : Consecutive T n) {p : Nat} (hp : p < n) :
    T.handleOf p = T.handleOf 0 + UInt16.ofNat p := by
  induction p with
  | zero => exact (UInt16.add_zero _).symm
  | succ p ih =>
      rw [h p hp, ih (Nat.lt_of_succ_lt hp), UInt16.add_assoc, UInt16.ofNat_add]
      rfl

theorem Consecutive.distinct (h : Consecutive T n) (hn : n ≤ 65536) : DistinctHandles T n := by
  intro i hi j hj heq
  rw [h.handleOf_eq hi, h.handleOf_eq hj] at heq
  have hnat := congrArg UInt16.toNat ((UInt16.add_right_inj _).mp heq)
  rw [UInt16.toNat_ofNat', UInt16.toNat_ofNat'] at hnat
  omega

theorem AnsweredFrom.append_left {g : Gatt} {gap : List PeerService} {ls ls' : List ClientLine}
    (h : AnsweredFrom T g gap (ls ++ ls')) : AnsweredFrom T g gap ls :=
  fun s chars hmem => h s chars (List.mem_append_left _ hmem)

end Handles

section Store

variable {T : Trouble} {b : Build} {cfg : RuntimeCfg} {name : List UInt8} {g : Gatt}
  {placed : List Placed} {gap : List PeerService}

theorem AnsweredFrom.known {ls : List ClientLine} (h : AnsweredFrom T g gap ls) :
    Known T g gap (discoveredIn ls) := by
  intro c hc
  obtain ⟨l, hl, hc⟩ := List.mem_flatMap.mp hc
  cases l with
  | said e => cases hc
  | answered q a =>
      cases q with
      | characteristics s =>
          cases a with
          | none => cases hc
          | some chars =>
              obtain ⟨d, hd, rfl⟩ := List.mem_map.mp hc
              exact ⟨d, h s chars hl d hd, rfl⟩
      | _ => cases hc

/-- An attribute of the GAP configuration is none of a characteristic's. -/
theorem gap_ne_value (hbuild : buildGatt T b cfg name = .ok g) (hlisted : Listed T g placed)
    {e : Placed} (he : e ∈ placed) : T.gapAttributes ≤ e.2 + 1 := by
  by_contra hlt
  obtain ⟨read, write, store, hvalue⟩ := (hlisted.inTable e he).value
  obtain ⟨blocks, -, htable⟩ := table_of_buildGatt hbuild
  have hplace : e.2 + 1 < (List.replicate T.gapAttributes Attribute.gap).length := by
    rw [List.length_replicate]
    omega
  rw [htable, List.getElem?_append_left hplace, List.getElem?_replicate_of_lt (by omega)] at hvalue
  cases hvalue

/-- **The CCCD of a characteristic** is the one that a client finds or
guesses, whatever it has discovered. -/
theorem cccdFor_value (hbuild : buildGatt T b cfg name = .ok g) (hlisted : Listed T g placed)
    (hmap : placed.map (·.1) = declared (effectiveServices cfg.services))
    (hconsecutive : Consecutive T b.attMax) (hgap : InGap T gap) {store : ClientCharStore}
    (hstore : Known T g gap store) {i : Nat} {e : Placed} (he : placed[i]? = some e)
    (hcccd : hasCccd (mapProps e.1.props) = true) :
    cccdFor store (T.handleOf (e.2 + 1)) = T.handleOf (e.2 + 2) := by
  have hle := length_table_le hbuild
  have hattMax : b.attMax ≤ 64 := by
    unfold Build.attMax
    split <;> omega
  have hdistinct := hconsecutive.distinct (Nat.le_trans hattMax (by decide))
  have hplace : e.2 + 2 < b.attMax := by
    have hwithin := hlisted.within e (List.mem_of_getElem? he)
    simp only [charAttributes, hcccd, if_true] at hwithin
    omega
  unfold cccdFor
  cases hfind : store.find? fun c => c.1 == T.handleOf (e.2 + 1) with
  | none => exact (hconsecutive _ hplace).symm
  | some c =>
      have hmatch := List.find?_some hfind
      have hhandle : c.1 = T.handleOf (e.2 + 1) := eq_of_beq hmatch
      obtain ⟨d, hdb, rfl⟩ := hstore c (List.mem_of_find?_eq_some hfind)
      rw [database, List.flatMap_append, found_of_listed hbuild hlisted hmap] at hdb
      rcases List.mem_append.mp hdb with hfromGap | hfound
      · -- a handle of the GAP configuration is not that of a value
        obtain ⟨s', hs', hd'⟩ := List.mem_flatMap.mp hfromGap
        obtain ⟨q, hq, heq⟩ := hgap s' hs' d hd'
        have hbelow := gap_ne_value hbuild hlisted (List.mem_of_getElem? he)
        have hsame := hdistinct q (by omega) (e.2 + 1) (by omega) (heq.symm.trans hhandle)
        omega
      · obtain ⟨e', he', rfl⟩ := List.mem_map.mp hfound
        obtain ⟨i', hi'⟩ := List.getElem?_of_mem he'
        have hsame : Target.value i' = Target.value i :=
          names_unique hlisted
            (fun p hp p' hp' => hdistinct p (by omega) p' (by omega))
            ⟨e', e'.2 + 1, hi', rfl, hhandle.symm⟩ ⟨e, e.2 + 1, he, rfl, rfl⟩
        cases hsame
        cases hi'.symm.trans he
        show (if hasCccd (mapProps e.1.props) then some (T.handleOf (e.2 + 2)) else none).getD _ = _
        rw [if_pos hcccd]
        rfl

end Store

/-! ## One operation -/

section Operation

variable {b b' : Build} {store : ClientCharStore}

/-- Nothing is asked that reaches the server's loop. -/
abbrev Unasked (d : ClientDialogue) : Prop := d.Asks fun q => event q = none

/-- The callbacks that the loop makes for what reaches it. -/
theorem served_of_unasked {callbacks : RuntimeBleCallbacks} {g : Gatt}
    {answer : ServerCallback → Bytes b.valueLen × Nat} {ls : List ClientLine}
    {calls : List ServerCallback} (hs : Served b callbacks g answer ls calls)
    (h : ∀ l ∈ ls, eventOf l = none) : calls = [] := by
  induction hs with
  | nil => rfl
  | said _ ih => exact ih fun l hl => h l (List.mem_cons_of_mem _ hl)
  | @handled q a ls calls _ ih =>
      have hq : event q = none := h (.answered q a) List.mem_cons_self
      rw [ih fun l hl => h l (List.mem_cons_of_mem _ hl), handled, hq]
      rfl
  | lost _ _ ih => exact ih fun l hl => h l (List.mem_cons_of_mem _ hl)

theorem events_of_unasked {d : ClientDialogue} (h : Unasked d) :
    d.Ensures fun ls _ => ∀ l ∈ ls, eventOf l = none := by
  intro ls store' hplays l hl
  cases l with
  | said e => rfl
  | answered q a => exact h.of_plays hplays q a hl

theorem unasked_emitClientStatus (op : UInt8) (ok : Bool) (h : UInt16) (store : ClientCharStore) :
    Unasked (emitClientStatus op ok h store) := .emit .ret

theorem unasked_reportServiceChars (s : ServiceHandle) (store : ClientCharStore) :
    Unasked (reportServiceChars s store) := by
  refine .ask rfl fun r => ?_
  cases r with
  | none => exact .ret
  | some chars => exact .forEach (fun _ _ => .emit .ret) chars store

theorem unasked_clientReadDone (op : UInt8) (h : UInt16) (r : Option (List UInt8)) :
    Unasked (clientReadDone b op h store r) := by
  cases r with
  | none => exact .emit (.emit .ret)
  | some value => exact .emit (.emit .ret)

/-- An operation without an aim asks the server's host only. -/
theorem unasked_clientOperation {o : ClientOp} (ho : aim o = none) :
    Unasked (clientOperation b store o) := by
  cases o with
  | disconnect | ignored => exact .ret
  | readBlob h offset => exact .ask rfl (unasked_clientReadDone clientOpReadBlob h)
  | readByUuid first last uuid => exact .ask rfl fun r => .emits (unasked_emitClientStatus ..)
  | discoverDescriptors first last =>
      rw [clientOperation, clientDiscoverDescriptors]
      split
      · exact .emit .ret
      · exact .ask rfl fun r => .emits (unasked_emitClientStatus ..)
  | discoverServices =>
      refine .ask rfl fun r => ?_
      cases r with
      | none => exact .emit (.emit .ret)
      | some svcs => exact .emits (unasked_emitClientStatus ..)
  | discover uuid =>
      refine .ask rfl fun r => ?_
      cases r with
      | none => exact .emit (.emit .ret)
      | some svcs =>
          exact (Dialogue.Asks.forEach unasked_reportServiceChars svcs store).bind
            fun _ => unasked_emitClientStatus ..
  | discoverAll =>
      refine .ask rfl fun r => ?_
      cases r with
      | none => exact .emit (.emit .ret)
      | some svcs =>
          have hround : ∀ (s : ServiceHandle) (store : ClientCharStore),
              Unasked (.emit (reportService s) (reportServiceChars s store)) :=
            fun s store => .emit (unasked_reportServiceChars s store)
          exact (Dialogue.Asks.forEach hround svcs store).bind fun _ => unasked_emitClientStatus ..
  | read _ | write _ _ | writeNoRsp _ _ | subscribe _ | subscribeIndicate _ | unsubscribe _ =>
      cases ho

/-- A run with one request, `q`, that is answered with `a`; the status that
is told of it says what the answer is. -/
structure AsksOnce (store : ClientCharStore) (o : ClientOp) (q : ClientQuery) (a : q.Answer)
    (ls : List ClientLine) : Prop where
  lines : ∃ es : List ClientCallback, ls = .answered q a :: es.map .said
  request : event q = request store o
  confirms : (∀ h bytes, o ≠ .writeNoRsp h bytes) → confirms q = true
  status : (∃ x ∈ ls.filterMap statusOf, x.status = clientStatusOk) → q.endedWell a = true

/-- A write is asked for once, and told of. -/
theorem asksOnce_write {q : ClientQuery} {o : ClientOp} {op : UInt8} {h : UInt16}
    (hevent : event q = request store o)
    (hconfirms : (∀ h bytes, o ≠ .writeNoRsp h bytes) → confirms q = true) :
    (Dialogue.ask q fun a => emitClientStatus op (q.endedWell a) h store : ClientDialogue).Ensures
      fun ls _ => ∃ q a, AsksOnce store o q a ls := by
  refine .ask fun a => .emit (.ret ⟨q, a, ⟨[_], rfl⟩, hevent, hconfirms, ?_⟩)
  rintro ⟨x, hx, hok⟩
  cases List.mem_singleton.mp hx
  by_contra hfailed
  rw [Bool.not_eq_true] at hfailed
  rw [hfailed] at hok
  cases hok

/-- Each operation on an attribute asks the server's loop once. -/
theorem asksOnce_clientOperation {o : ClientOp} {h : UInt16} (haim : aim o = some h) :
    (clientOperation b store o).Ensures fun ls _ => ∃ q a, AsksOnce store o q a ls := by
  cases o with
  | read h =>
      refine .ask fun r => ?_
      cases r with
      | none =>
          refine .emit (.emit (.ret ⟨_, _, ⟨[_, _], rfl⟩, rfl, fun _ => rfl, ?_⟩))
          rintro ⟨x, hx, hok⟩
          cases List.mem_singleton.mp hx
          cases hok
      | some value =>
          exact .emit (.emit (.ret ⟨_, _, ⟨[_, _], rfl⟩, rfl, fun _ => rfl, fun _ => rfl⟩))
  | write h bytes | subscribe h | subscribeIndicate h | unsubscribe h =>
      exact asksOnce_write rfl fun _ => rfl
  | writeNoRsp h bytes =>
      apply asksOnce_write rfl
      intro hne
      exact absurd rfl (hne h bytes)
  | _ => cases haim

end Operation

/-! ## Every run -/

section Runs

variable {T : Trouble} {b b' : Build} {cfg : RuntimeCfg} {name : List UInt8} {g : Gatt}
  {placed : List Placed} {gap : List PeerService} {store : ClientCharStore}
  {answer : ServerCallback → Bytes b.valueLen × Nat}

/-- One request, which is handled unless it is lost. -/
theorem served_of_asksOnce {o : ClientOp} {q : ClientQuery} {a : q.Answer} {ls : List ClientLine}
    {calls : List ServerCallback} (h : AsksOnce store o q a ls)
    (hs : Served b cfg.callbacks g answer ls calls) :
    calls = (request store o).toList.flatMap (gattEvent b cfg.callbacks g answer)
      ∨ calls = [] ∧ ¬ Confirmed o ls := by
  have hrest : ∀ {es : List ClientCallback} {calls : List ServerCallback},
      Served b cfg.callbacks g answer (es.map Dialogue.Line.said) calls → calls = [] := by
    intro es calls hs
    apply served_of_unasked hs
    intro l hl
    obtain ⟨e, -, rfl⟩ := List.mem_map.mp hl
    rfl
  obtain ⟨es, rfl⟩ := h.lines
  cases hs with
  | handled hs =>
      rw [hrest hs, List.append_nil, handled, h.request]
      exact .inl rfl
  | lost hlost hs =>
      refine .inr ⟨hrest hs, ?_⟩
      rintro ⟨hne, hok⟩
      exact hlost ⟨h.confirms hne, h.status hok⟩

/-- What an operation asks reaches the attribute it is for, as long as the
store has the right CCCDs or none. -/
theorem reaches_of_store (hbuild : buildGatt T b cfg name = .ok g) (hlisted : Listed T g placed)
    (hdistinct : DistinctHandles T g.table.length) (hsize : g.table.length ≤ 255)
    (hstore : ∀ (i : Nat) (e : Placed), placed[i]? = some e →
      hasCccd (mapProps e.1.props) = true → cccdFor store (T.handleOf (e.2 + 1))
        = T.handleOf (e.2 + 2)) (o : ClientOp) {ls : List ClientLine} {store' : ClientCharStore}
    (hplays : (clientOperation b' store o).Plays ls (.ret store')) :
    Reaches T b cfg g placed answer o ls := by
  have hwrite : ∀ {h : UInt16} {bytes : List UInt8} {t : Target},
      request store o = some (.write h 0 bytes) → Names T placed h t →
      (request store o).toList.flatMap (gattEvent b cfg.callbacks g answer)
        = (writeCallback b cfg.callbacks (cfg.services.getD [] = []) h 0 bytes t).toList := by
    intro h bytes t hev hname
    rw [hev]
    exact (List.append_nil _).trans (gattWrite_of_names hbuild hlisted hdistinct hsize hname)
  -- a subscription to the value is a write to the CCCD behind it
  have hcccd : ∀ {h : UInt16} {t : Target}, Names T placed h t → subscribed o = some h →
      Subscribes placed o t → Names T placed (cccdFor store h) (.cccd t.index) := by
    rintro h t ⟨e, p, he, hp, rfl⟩ hsubscribed hsubscribes
    obtain ⟨i, e', rfl, he', hhas⟩ := hsubscribes _ hsubscribed
    cases he.symm.trans he'
    cases hp
    rw [hstore i e he' hhas]
    exact ⟨e, e.2 + 2, he, if_pos hhas, rfl⟩
  constructor
  · intro hdiscovers calls hs
    have haim : aim o = none := by
      cases o <;> first | rfl | cases hdiscovers
    exact served_of_unasked hs (events_of_unasked (unasked_clientOperation haim) ls store' hplays)
  · intro h t haim hname hsubscribes calls hs
    obtain ⟨q, a, honce⟩ := asksOnce_clientOperation haim ls store' hplays
    have hasked : (request store o).toList.flatMap (gattEvent b cfg.callbacks g answer)
        = (asked b cfg.callbacks (cfg.services.getD [] = []) h t o).toList := by
      cases o with
      | read h' =>
          cases haim
          exact (List.append_nil _).trans (gattRead_of_names hlisted hdistinct hsize hname)
      | write h' bytes | writeNoRsp h' bytes =>
          cases haim
          exact hwrite rfl hname
      | subscribe h' | subscribeIndicate h' | unsubscribe h' =>
          cases haim
          exact hwrite rfl (hcccd hname rfl hsubscribes)
      | _ => cases haim
    rw [← hasked]
    exact served_of_asksOnce honce hs

/-- **Operations reach the server.** Whatever a client has discovered before,
and whether there was room for it: each read, write, write without response
and subscription of a connection that is for an attribute of a declared
characteristic (a subscription for a value with a CCCD) makes the callback of
that attribute at the server, with the flat index and the bytes of the
operation, and no other; a subscription makes that of its CCCD. It makes none
at all only where the client is not told of success, or it is a write without
response. The operations that discover make none. The callbacks of the
connection are those of its operations, one behind the other. -/
theorem operations_reach_the_server (T : Trouble) (b b' : Build) (cfg : RuntimeCfg)
    (name : List UInt8) (g : Gatt) (hbuild : buildGatt T b cfg name = .ok g)
    (hconsecutive : Consecutive T b.attMax) (gap : List PeerService) (hgap : InGap T gap)
    (answer : ServerCallback → Bytes b.valueLen × Nat) (os : List ClientOp)
    {ls : List ClientLine} {store : ClientCharStore}
    (h : (clientCommands b' os).Plays ls (.ret store)) (hanswered : AnsweredFrom T g gap ls) :
    ∃ placed runs, Listed T g placed
      ∧ placed.map (·.1) = declared (effectiveServices cfg.services) ∧ ls = runs.flatten
      ∧ List.Forall₂ (Reaches T b cfg g placed answer) os runs
      ∧ ∀ calls, Served b cfg.callbacks g answer ls calls →
        ∃ parts, calls = parts.flatten
          ∧ List.Forall₂ (Served b cfg.callbacks g answer) runs parts := by
  obtain ⟨placed, hlisted, hmap⟩ := listed_of_buildGatt hbuild
  have hle := length_table_le hbuild
  have hattMax : b.attMax ≤ 64 := by
    unfold Build.attMax
    split <;> omega
  have hsize : g.table.length ≤ 255 := by omega
  have hdistinct : DistinctHandles T g.table.length := by
    intro i hi j hj
    exact hconsecutive.distinct (by omega) i (by omega) j (by omega)
  -- behind each round, the store is what has been discovered until then
  have hruns : (clientCommands b' os).Ensures fun ls store => AnsweredFrom T g gap ls →
      store = (discoveredIn ls).foldl (pushBounded clientCharCap) [] ∧
        ∃ runs, ls = runs.flatten ∧ List.Forall₂ (Reaches T b cfg g placed answer) os runs := by
    apply Dialogue.Ensures.forEach
      (fun done ls store => AnsweredFrom T g gap ls →
        store = (discoveredIn ls).foldl (pushBounded clientCharCap) [] ∧
          ∃ runs, ls = runs.flatten ∧ List.Forall₂ (Reaches T b cfg g placed answer) done runs)
    · exact fun _ => ⟨rfl, [], rfl, .nil⟩
    · intro done o left ls store _ hdone ls' store' hplays hanswered
      obtain ⟨hstore, runs, hflat, hreaches⟩ := hdone hanswered.append_left
      have hgathers : Gathers store ls' store' := gathers_clientOperation o store ls' store' hplays
      have htake : store = (discoveredIn ls).take clientCharCap := by
        rw [hstore, foldl_pushBounded _ (Nat.zero_le _), List.nil_append]
      have hreach : Reaches T b cfg g placed answer o ls' := by
        apply reaches_of_store hbuild hlisted hdistinct hsize _ o hplays
        intro i e he hcccd
        apply cccdFor_value hbuild hlisted hmap hconsecutive hgap _ he hcccd
        intro c hc
        rw [htake] at hc
        exact hanswered.append_left.known c (List.mem_of_mem_take hc)
      constructor
      · rw [discoveredIn_append, List.foldl_append, ← hstore]
        exact hgathers
      · refine ⟨runs ++ [ls'], ?_, List.rel_append hreaches (.cons hreach .nil)⟩
        rw [List.flatten_append, ← hflat, List.flatten_singleton]
  obtain ⟨-, runs, hflat, hreaches⟩ := hruns ls store h hanswered
  refine ⟨placed, runs, hlisted, hmap, hflat, hreaches, fun calls hs => ?_⟩
  rw [hflat] at hs
  exact hs.flatten

/-- Callbacks for data and for subscriptions. -/
def exchangeCfg : RuntimeCfg where
  callbacks := { onData := true, onSubscription := true }

theorem consecutive_countingHost (n : Nat) : Consecutive countingHost n := by
  intro p _
  exact UInt16.ofNat_add (p + 1) 1

theorem answeredFrom_nusHost (d : ClientDialogue) :
    AnsweredFrom countingHost nusGatt [] (d.run nusHost).1 := by
  intro s chars hl c hc
  have hanswer : some chars = (nusServices.find? (·.handle = s)).map (·.chars) :=
    Dialogue.answered_run nusHost hl
  obtain ⟨s', hs', rfl⟩ := Option.map_eq_some_iff.mp hanswer.symm
  exact List.mem_flatMap.mpr ⟨s', List.mem_of_find?_eq_some hs', hc⟩

/-- A subscription that is not known yet, the discovery, the same once more,
and a write. -/
def exchangeOps : List ClientOp := [.subscribe 10, .discoverAll, .subscribe 10, .write 8 [1, 2]]

/-- Subscriptions to the TX before and behind its discovery, and a write to
the RX; all of them succeed. -/
theorem operations_reach_the_server_nus :
    let lines := ((clientCommands {} exchangeOps).run nusHost).1
    let answer : ServerCallback → Bytes 128 × Nat := fun _ => (Vector.replicate _ 0, 0)
    Served {} exchangeCfg.callbacks nusGatt answer lines
        [.onSubscription 1 1 0, .onSubscription 1 1 0, .onData [1, 2]]
    ∧ ∃ placed runs, Listed countingHost nusGatt placed ∧ lines = runs.flatten
      ∧ List.Forall₂ (Reaches countingHost {} exchangeCfg nusGatt placed answer) exchangeOps runs
      := by
  intro lines answer
  constructor
  · have hcalls : lines.flatMap (handledOf {} exchangeCfg.callbacks nusGatt answer)
        = [.onSubscription 1 1 0, .onSubscription 1 1 0, .onData [1, 2]] := by decide
    rw [← hcalls]
    exact served_handledOf lines
  · obtain ⟨placed, runs, hlisted, -, hflat, hreaches, -⟩ :=
      operations_reach_the_server countingHost {} {} exchangeCfg [] nusGatt rfl
        (consecutive_countingHost _) [] (by intro s hs; cases hs) answer exchangeOps
        (Dialogue.plays_run nusHost _) (answeredFrom_nusHost _)
    exact ⟨placed, runs, hlisted, hflat, hreaches⟩

end Runs

end RuntimeBle.Pair
