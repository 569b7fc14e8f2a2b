import RuntimeBle.Request.TxSlot
import RuntimeBle.Server.Events

/-!
# Server — Transmissions

What the tx loop of `connection_task` makes of the snapshots it takes from
the TX slot: a notification or an indication of the characteristic with the
flat index, as its properties and the kind of the request have it, or
nothing.

`wanted` says the same of a request and the declarations alone.
`transmissions_exact` puts the two together over every run of one calling
thread, connections and sessions in the peripheral role.
-/

namespace RuntimeBle.Server

open RuntimeBle.Lib RuntimeBle.Request

/-! ## The tx loop behind its snapshot -/

/-- A call of `notify_raw` or `indicate_raw`. -/
structure Transmission where
  handle : UInt16
  indication : Bool
  bytes : List UInt8
deriving DecidableEq

/-- The branches over `props`; `none` transmits nothing. -/
def indicates (props : UInt16) (kind : Nat) : Option Bool :=
  if kind = sendKindIndicate then
    if props &&& cPropIndicate ≠ 0 then some true else none
  else if props &&& cPropNotify ≠ 0 then some false
  else if props &&& cPropIndicate ≠ 0 then some true
  else none

/-- The characteristic is looked up by its flat index. -/
def transmit (g : Gatt) (snapshot : TxSnapshot) : Option Transmission :=
  let target := if snapshot.chr = nusTxChr then g.nusTx else snapshot.chr
  g.chars[target]?.bind fun c =>
    (indicates (g.props[target]?.getD 0) snapshot.kind).map fun indication =>
      { handle := c.handle, indication, bytes := snapshot.bytes }

/-- The transmissions of a run so far. -/
def transmitted (g : Gatt) (s : TxState) : List Transmission :=
  (s.box.settled .sendReq).filterMap fun e => e.2.bind fun taken => transmit g taken.2

/-! ## What a request is to transmit -/

/-- The flat index that a request is for; the built-in service has its TX
behind its RX. -/
def requestIndex (nus : Bool) (r : TxRequest) : Option Nat :=
  if r.chr = nusTxChr then if nus then some 1 else none else some r.chr

/-- What is to be sent of a characteristic. -/
def Placed.transmission (T : Trouble) (kind : Nat) (bytes : List UInt8) (e : Placed) :
    Option Transmission :=
  (indicates e.1.props kind).map fun indication =>
    { handle := T.handleOf (e.2 + 1), indication, bytes }

/-- `placed` are the declared characteristics with their places. -/
def wanted (T : Trouble) (b : Build) (nus : Bool) (placed : List Placed) (r : TxRequest) :
    Option Transmission :=
  (requestIndex nus r).bind fun i =>
    placed[i]?.bind (Placed.transmission T r.kind (payload b r.data))

/-- The requests that the tx loop has taken, in the order they were accepted. -/
def consumed (s : TxState) : List TxRequest :=
  (s.box.settled .sendReq).filterMap fun e => e.2.map fun _ => e.1

/-! ## The index of the NUS TX -/

section NusTx

variable {T : Trouble} {b : Build} {g g' : Gatt} {α : Type} {p : Gatt → α}

/-- `p` does not look at what the steps of `build_gatt` fill. -/
def Untouched (p : Gatt → α) : Prop :=
  ∀ (g : Gatt) table chars props descriptors stores,
    p { g with table, chars, props, descriptors, stores } = p g

theorem Untouched.push (hp : Untouched p) {a : Attribute} (h : g.push b a = .ok g') :
    p g' = p g := by
  unfold Gatt.push at h
  split at h
  · cases h
    exact hp g _ g.chars g.props g.descriptors g.stores
  · cases h

theorem Untouched.pushStored (hp : Untouched p) {a : Attribute} {stores : Nat}
    (h : ({ g with stores } : Gatt).push b a = .ok g') : p g' = p g :=
  (hp.push h).trans (hp g g.table g.chars g.props g.descriptors stores)

theorem foldlM_same {β : Type} {f : Gatt → β → Except Fault Gatt}
    (hf : ∀ {g g' : Gatt} {x : β}, f g x = .ok g' → p g' = p g) {xs : List β}
    (h : xs.foldlM f g = .ok g') : p g' = p g := by
  induction xs generalizing g with
  | nil =>
      cases h
      rfl
  | cons x xs ih =>
      obtain ⟨g₁, hx, hxs⟩ := bind_eq_ok h
      exact (ih hxs).trans (hf hx)

theorem Untouched.addDescriptor (hp : Untouched p) {chr : Nat} {d : RuntimeBleDescDef × Nat}
    (h : addDescriptor T b chr g d = .ok g') : p g' = p g := by
  obtain ⟨g₁, hpush, hset⟩ := bind_eq_ok h
  have hpushed : p g₁ = p g := by
    unfold pushDescriptor at hpush
    dsimp only at hpush
    split at hpush
    · exact hp.pushStored hpush
    · exact hp.push hpush
  cases hset
  exact (hp g₁ g₁.table g₁.chars g₁.props _ g₁.stores).trans hpushed

theorem Untouched.addCharacteristic (hp : Untouched p) {c : RuntimeBleCharDef}
    (h : addCharacteristic T b g c = .ok g') : p g' = p g := by
  obtain ⟨g₁, hdecl, h⟩ := bind_eq_ok h
  obtain ⟨g₂, hvalue, h⟩ := bind_eq_ok h
  obtain ⟨g₃, hcccd, h⟩ := bind_eq_ok h
  obtain ⟨g₄, hdescs, h⟩ := bind_eq_ok h
  cases h
  have h₃ : p g₃ = p g₂ := by
    unfold pushCccd at hcccd
    split at hcccd
    · exact hp.push hcccd
    · cases hcccd
      rfl
  have h₄ : p g₄ = p g₃ := foldlM_same hp.addDescriptor hdescs
  calc p { g₄ with chars := _, props := _ }
      = p g₄ := hp g₄ g₄.table _ _ g₄.descriptors g₄.stores
    _ = p g₂ := h₄.trans h₃
    _ = p g := (hp.pushStored hvalue).trans (hp.push hdecl)

theorem Untouched.addUserService (hp : Untouched p) {s : RuntimeBleServiceDef}
    (h : addUserService T b g s = .ok g') : p g' = p g := by
  obtain ⟨g₁, hservice, hchars⟩ := bind_eq_ok h
  exact (foldlM_same hp.addCharacteristic hchars).trans (hp.push hservice)

theorem untouched_nusTx : Untouched Gatt.nusTx := fun _ _ _ _ _ _ => rfl

/-- The index of the TX is that of the second characteristic with the
built-in service, and none otherwise. -/
theorem nusTx_of_buildGatt {cfg : RuntimeCfg} {name : List UInt8}
    (h : buildGatt T b cfg name = .ok g) :
    g.nusTx = if cfg.services.getD [] = [] then 1 else noIndex := by
  obtain ⟨g₁, hgap, hservices⟩ := bind_eq_ok h
  have hstart : g₁.nusTx = noIndex ∧ g₁.chars = [] := by
    simp only [gapBuild] at hgap
    split at hgap
    · cases hgap
    · exact ⟨foldlM_same untouched_nusTx.push hgap, (gap_eq_ok hgap).1.chars⟩
  have hnus : addNus T b g₁ = .ok g → g.nusTx = 1 := by
    intro hadd
    obtain ⟨g₂, hservice, hadd⟩ := bind_eq_ok hadd
    obtain ⟨g₃, hrx, htx⟩ := bind_eq_ok hadd
    have hchars : g₃.chars.length = 1 := by
      rw [(addCharacteristic_eq_ok hrx).2.2.1, List.length_append,
        show g₂.chars = [] from (push_eq_ok hservice).chars.trans hstart.2]
      rfl
    exact (untouched_nusTx.addCharacteristic htx).trans hchars
  unfold addServices at hservices
  cases hcfg : cfg.services with
  | none =>
      rw [hcfg] at hservices
      exact hnus hservices
  | some services =>
      rw [hcfg] at hservices
      cases services with
      | nil => exact hnus hservices
      | cons s rest =>
          rw [foldlM_same untouched_nusTx.addUserService hservices, hstart.1]
          rfl

end NusTx

/-! ## Every run -/

section Runs

variable {T : Trouble} {b : Build} {cfg : RuntimeCfg} {name : List UInt8} {g : Gatt}
  {placed : List Placed} {s : TxState}

theorem indicates_allowed {props : UInt16} {kind : Nat} {indication : Bool}
    (h : indicates props kind = some indication) :
    props &&& (if indication then cPropIndicate else cPropNotify) ≠ 0 := by
  unfold indicates at h
  split_ifs at h with _ hset hset hset
  all_goals
    cases h
    exact hset

/-- The tx loop does with a request's snapshot what the declarations have of
the request. -/
theorem transmit_snapshot (hbuild : buildGatt T b cfg name = .ok g) (hlisted : Listed T g placed)
    (r : TxRequest) :
    transmit g (r.snapshot b) = wanted T b (cfg.services.getD [] = []) placed r := by
  have hat : ∀ i : Nat, (g.chars[i]?.bind fun (c : Characteristic) =>
      (indicates (g.props[i]?.getD 0) r.kind).map fun indication =>
        ({ handle := c.handle, indication, bytes := payload b r.data } : Transmission))
      = placed[i]?.bind (Placed.transmission T r.kind (payload b r.data)) := by
    intro i
    rw [hlisted.chars, hlisted.props, List.getElem?_map, List.getElem?_map]
    cases placed[i]? <;> rfl
  have hnone : placed[noIndex]? = none := by
    by_contra hsome
    obtain ⟨e, he⟩ := Option.ne_none_iff_exists'.mp hsome
    have hindex := hlisted.index_le he
    have hwithin := hlisted.within e (List.mem_of_getElem? he)
    have htable := length_table_le hbuild
    have hattMax : b.attMax ≤ 64 := by
      unfold Build.attMax
      split <;> omega
    unfold noIndex at hindex
    unfold charAttributes at hwithin
    omega
  unfold transmit wanted requestIndex
  simp only [TxRequest.snapshot, nusTx_of_buildGatt hbuild, hat]
  by_cases hnus : r.chr = nusTxChr
  · rw [if_pos hnus, if_pos hnus]
    by_cases hservices : cfg.services.getD [] = []
    · simp only [hservices, if_true, decide_true, Option.bind_some]
    · simp only [hservices, if_false, decide_false, hnone, Option.bind_none]
      rfl
  · rw [if_neg hnus, if_neg hnus]
    rfl

/-- What is transmitted is a value of the characteristic, as its properties
allow it. -/
theorem wanted_eq_some {nus : Bool} {r : TxRequest} {t : Transmission}
    (h : wanted T b nus placed r = some t) :
    ∃ i e, placed[i]? = some e ∧ requestIndex nus r = some i ∧ t.handle = T.handleOf (e.2 + 1)
      ∧ e.1.props &&& (if t.indication then cPropIndicate else cPropNotify) ≠ 0
      ∧ t.bytes = payload b r.data := by
  obtain ⟨i, hi, h⟩ := Option.bind_eq_some_iff.mp h
  obtain ⟨e, he, h⟩ := Option.bind_eq_some_iff.mp h
  obtain ⟨indication, hind, rfl⟩ := Option.map_eq_some_iff.mp h
  exact ⟨i, e, he, hi, rfl, indicates_allowed hind, rfl⟩

theorem transmitted_eq (hbuild : buildGatt T b cfg name = .ok g) (hlisted : Listed T g placed)
    (hs : (txMachine b).Reachable s) :
    transmitted g s
      = (consumed s).filterMap (wanted T b (cfg.services.getD [] = []) placed) := by
  have hexact := (txMailbox_freesLast.sound txMailbox_lawful (box_reachable hs)).1
  unfold transmitted consumed
  rw [List.filterMap_filterMap]
  apply List.filterMap_congr
  rintro ⟨r, out⟩ hmem
  cases out with
  | none => rfl
  | some taken =>
      obtain ⟨k, snapshot⟩ := taken
      show transmit g snapshot = wanted T b _ placed r
      rw [hexact.exact _ r k snapshot trivial hmem]
      exact transmit_snapshot hbuild hlisted r

theorem consumed_sublist (hs : (txMachine b).Reachable s) :
    (consumed s).Sublist (s.box.accepted .sendReq) := by
  have hsub : ∀ l : List (TxRequest × Option (Unit × TxSnapshot)),
      (l.filterMap fun e => e.2.map fun _ => e.1).Sublist (l.map (·.1)) := by
    intro l
    induction l with
    | nil => exact .slnil
    | cons e l ih =>
        rw [List.filterMap_cons, List.map_cons]
        cases e.2 with
        | none => exact ih.cons _
        | some taken => exact ih.cons_cons _
  rw [(tx_slot_exact hs).2.1]
  exact (hsub _).trans (List.sublist_append_left ..)

/-- The index of a UUID is that of a characteristic with the UUID. -/
theorem placed_of_charIndex (hwell : WellFormed (cfg.services.getD []))
    (hmap : placed.map (·.1) = declared (effectiveServices cfg.services)) {want : List UInt8}
    {i : Nat} (hwant : want.length = 2 ∨ want.length = 16)
    (hindex : runtimeBleCharIndex (some cfg) (some want) = (i : Int)) :
    ∃ e, placed[i]? = some e ∧ e.1.uuid = some want := by
  rw [runtimeBleCharIndex_eq hwell hwant] at hindex
  cases hfind : (declared (cfg.services.getD [])).findIdx? fun c => c.uuid = some want with
  | none =>
      rw [hfind] at hindex
      simp only [runtimeBleErrInvalid] at hindex
      omega
  | some j =>
      rw [hfind] at hindex
      have hj : j = i := Int.ofNat_inj.mp hindex
      subst hj
      obtain ⟨hlt, hmatch, -⟩ := List.findIdx?_eq_some_iff_getElem.mp hfind
      -- a list of services in which something is found is not empty
      have hsame : effectiveServices cfg.services = cfg.services.getD [] := by
        cases hservices : cfg.services with
        | none => simp [hservices, declared] at hlt
        | some services =>
            cases services with
            | nil => simp [hservices, declared] at hlt
            | cons s rest => rfl
      have hget : (placed.map (·.1))[j]? = some (declared (cfg.services.getD []))[j] := by
        rw [hmap, hsame]
        exact List.getElem?_eq_getElem hlt
      rw [List.getElem?_map] at hget
      obtain ⟨e, he, heq⟩ := Option.map_eq_some_iff.mp hget
      exact ⟨e, he, heq ▸ of_decide_eq_true hmatch⟩

/-- **Transmissions are what was asked.** Over any run of one calling thread,
connections and sessions in the peripheral role, the tx loop transmits for the
requests that it takes, in the order they were accepted, what their arguments,
cut to `VALUE_LEN`, and the declarations have; each is on the value of a
declared characteristic, and allowed by its properties. The index that
`runtime_ble_char_index` gives for a UUID is that of a characteristic whose
value has the UUID. -/
theorem transmissions_exact (T : Trouble) (b : Build) (cfg : RuntimeCfg) (name : List UInt8)
    (g : Gatt) (hwell : WellFormed (cfg.services.getD []))
    (hbuild : buildGatt T b cfg name = .ok g) {s : TxState} (hs : (txMachine b).Reachable s) :
    ∃ placed, Listed T g placed ∧ placed.map (·.1) = declared (effectiveServices cfg.services)
      ∧ (consumed s).Sublist (s.box.accepted .sendReq)
      ∧ transmitted g s
        = (consumed s).filterMap (wanted T b (cfg.services.getD [] = []) placed)
      ∧ (∀ t ∈ transmitted g s, ∃ i e, placed[i]? = some e ∧ Names T placed t.handle (.value i)
          ∧ e.1.props &&& (if t.indication then cPropIndicate else cPropNotify) ≠ 0
          ∧ t.bytes.length ≤ b.valueLen)
      ∧ ∀ (want : List UInt8) (i : Nat), want.length = 2 ∨ want.length = 16 →
          runtimeBleCharIndex (some cfg) (some want) = (i : Int) →
          ∃ e read write store, placed[i]? = some e
            ∧ g.table[e.2 + 1]? = some (.value want read write store) := by
  obtain ⟨placed, hlisted, hmap⟩ := listed_of_buildGatt hbuild
  have heq := transmitted_eq hbuild hlisted hs
  refine ⟨placed, hlisted, hmap, consumed_sublist hs, heq, ?_, ?_⟩
  · intro t ht
    rw [heq] at ht
    obtain ⟨r, -, hr⟩ := List.mem_filterMap.mp ht
    obtain ⟨i, e, he, -, hhandle, hprops, hbytes⟩ := wanted_eq_some hr
    refine ⟨i, e, he, ⟨e, e.2 + 1, he, rfl, hhandle⟩, hprops, ?_⟩
    rw [hbytes, payload, List.length_take]
    exact Nat.min_le_left ..
  · intro want i hwant hindex
    obtain ⟨e, he, huuid⟩ := placed_of_charIndex hwell hmap hwant hindex
    obtain ⟨read, write, store, hvalue⟩ :=
      (hlisted.inTable e (List.mem_of_getElem? he)).value
    rw [huuid, uuidFrom_some hwant] at hvalue
    exact ⟨e, read, write, store, he, hvalue⟩

/-- A send on the built-in service, and an indication of a characteristic
that does not exist. -/
theorem sent_nus : ∃ g s, buildGatt countingHost {} {} [] = .ok g
    ∧ (txMachine {}).Reachable s
    ∧ s.box.accepted .sendReq
      = [{ chr := nusTxChr, kind := sendKindAuto, data := some [7, 8] },
        { chr := 3, kind := sendKindIndicate, data := some [9] }]
    ∧ transmitted g s = [{ handle := 10, indication := false, bytes := [7, 8] }] := by
  obtain ⟨s, hs, htest⟩ := Machine.exists_reachable_of_exec (M := txMachine {})
    [.connect, .call { chr := nusTxChr, kind := sendKindAuto, data := some [7, 8] },
      .act, .act, .act, .act, .act, .act, .poll, .read, .read, .read, .read, .clear, .drop,
      .connect, .call { chr := 3, kind := sendKindIndicate, data := some [9] },
      .act, .act, .act, .act, .act, .act, .poll, .read, .read, .read, .read, .clear]
    (q := fun s => decide (s.box.accepted .sendReq
        = [{ chr := nusTxChr, kind := sendKindAuto, data := some [7, 8] },
          { chr := 3, kind := sendKindIndicate, data := some [9] }])
      && decide ((buildGatt countingHost {} {} []).toOption.map (fun g => transmitted g s)
        = some [{ handle := 10, indication := false, bytes := [7, 8] }]))
    (s := { box := Mailbox.State.start bootMem.params, loop := .absent })
    ⟨Mailbox.State.idle_start, rfl⟩
    (by decide)
  obtain ⟨haccepted, htransmitted⟩ := Bool.and_eq_true_iff.mp htest
  cases hbuild : buildGatt countingHost {} {} [] with
  | error e =>
      rw [hbuild] at htransmitted
      cases of_decide_eq_true htransmitted
  | ok g =>
      rw [hbuild] at htransmitted
      have hsent := Option.some_inj.mp (of_decide_eq_true htransmitted)
      exact ⟨g, s, rfl, hs, of_decide_eq_true haccepted, hsent⟩

theorem transmissions_exact_nus : ∃ g s, buildGatt countingHost {} {} [] = .ok g
    ∧ (txMachine {}).Reachable s
    ∧ s.box.accepted .sendReq
      = [{ chr := nusTxChr, kind := sendKindAuto, data := some [7, 8] },
        { chr := 3, kind := sendKindIndicate, data := some [9] }]
    ∧ transmitted g s = [{ handle := 10, indication := false, bytes := [7, 8] }]
    ∧ ∀ t ∈ transmitted g s, t.bytes.length ≤ 128 := by
  obtain ⟨g, s, hbuild, hs, haccepted, hsent⟩ := sent_nus
  obtain ⟨placed, -, -, -, -, hallowed, -⟩ := transmissions_exact countingHost {} {} [] g
    ⟨by decide, by decide, by decide, by decide, by decide⟩ hbuild hs
  refine ⟨g, s, hbuild, hs, haccepted, hsent, fun t ht => ?_⟩
  obtain ⟨i, e, -, -, -, hlength⟩ := hallowed t ht
  exact hlength

end Runs

end RuntimeBle.Server
