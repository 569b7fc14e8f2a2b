import Mathlib.Data.List.Sigma
import RuntimeBle.Server.Gatt

/-!
# Server — Numbering

The flat indices of the characteristics, as `build_gatt` assigns them and
as `runtime_ble_char_index` counts them.

`Listed` describes a GATT by a list of the declared characteristics with
the places of their attributes in the table. It is kept by everything
`build_gatt` does: attributes are only ever added at the end.
-/

namespace RuntimeBle.Server

open RuntimeBle.Lib

/-! ## The lookup -/

/-- The loop over the characteristics of a service; `.error` is the early
return. -/
def charIndexIn (want : List UInt8) (idx : UInt16) :
    List RuntimeBleCharDef → Except UInt16 UInt16
  | [] => .ok idx
  | c :: cs =>
      if c.uuid.any fun u => u.length = want.length ∧ u = want then .error idx
      else charIndexIn want (idx + 1) cs

/-- The loop over the services. -/
def charIndexOf (want : List UInt8) (idx : UInt16) :
    List RuntimeBleServiceDef → Except UInt16 UInt16
  | [] => .ok idx
  | s :: rest =>
      match s.chars with
      | none => charIndexOf want idx rest
      | some cdefs => do charIndexOf want (← charIndexIn want idx cdefs) rest

/-- `runtime_ble_char_index`; `none` is a null pointer, or no `CONFIG`. -/
def runtimeBleCharIndex (cfg : Option RuntimeCfg) (uuid : Option (List UInt8)) : Int :=
  match uuid with
  | none => runtimeBleErrInvalid
  | some want =>
      if want.length ≠ 2 ∧ want.length ≠ 16 then runtimeBleErrInvalid
      else
        match cfg.bind (·.services) with
        | none | some [] => runtimeBleErrInvalid
        | some services =>
            match charIndexOf want 0 services with
            | .error idx => idx.toNat
            | .ok _ => runtimeBleErrInvalid

/-! ## What is declared -/

/-- The characteristics in the order of their declaration. -/
def declared (services : List RuntimeBleServiceDef) : List RuntimeBleCharDef :=
  services.flatMap fun s => s.chars.getD []

/-- The built-in service, as a configuration would declare it. -/
def nusService : RuntimeBleServiceDef := { uuid := some nusSvc, chars := some [nusRxDef, nusTxDef] }

/-- The services `build_gatt` builds. -/
def effectiveServices : Option (List RuntimeBleServiceDef) → List RuntimeBleServiceDef
  | none | some [] => [nusService]
  | some services => services

/-- The counts are bytes, and the UUIDs have one of the two lengths. -/
structure WellFormed (services : List RuntimeBleServiceDef) : Prop where
  count : services.length ≤ 255
  chars : ∀ s ∈ services, (s.chars.getD []).length ≤ 255
  descriptors : ∀ c ∈ declared services, (c.descriptors.getD []).length ≤ 255
  uuids : ∀ c ∈ declared services, ∃ u, c.uuid = some u ∧ (u.length = 2 ∨ u.length = 16)
  descriptorUuids : ∀ c ∈ declared services, ∀ d ∈ c.descriptors.getD [],
    ∃ u, d.uuid = some u ∧ (u.length = 2 ∨ u.length = 16)

theorem length_declared_le {services : List RuntimeBleServiceDef} {n : Nat}
    (h : ∀ s ∈ services, (s.chars.getD []).length ≤ n) :
    (declared services).length ≤ services.length * n := by
  induction services with
  | nil => exact Nat.zero_le _
  | cons s rest ih =>
      have hs := h s List.mem_cons_self
      have hrest := ih fun s' hs' => h s' (List.mem_cons_of_mem _ hs')
      simp only [declared, List.flatMap_cons, List.length_append, List.length_cons,
        Nat.succ_mul] at hrest ⊢
      omega

theorem WellFormed.length_declared {services : List RuntimeBleServiceDef}
    (h : WellFormed services) : (declared services).length < 65536 := by
  have hle := length_declared_le h.chars
  have hmul := Nat.mul_le_mul_right 255 h.count
  omega

theorem uuidFrom_some {u : List UInt8} (h : u.length = 2 ∨ u.length = 16) :
    uuidFrom (some u) = u := if_pos h

/-! ## The lookup finds the first -/

theorem ofNat_add_one (n : Nat) : UInt16.ofNat n + 1 = UInt16.ofNat (n + 1) := by
  rw [UInt16.ofNat_add]
  rfl

theorem charIndexIn_eq (want : List UInt8) (cs : List RuntimeBleCharDef) (n : Nat) :
    charIndexIn want (UInt16.ofNat n) cs
      = match cs.findIdx? fun c => c.uuid = some want with
        | some i => .error (UInt16.ofNat (n + i))
        | none => .ok (UInt16.ofNat (n + cs.length)) := by
  induction cs generalizing n with
  | nil => rfl
  | cons c cs ih =>
      have hsame : (c.uuid.any fun u => u.length = want.length ∧ u = want)
          = decide (c.uuid = some want) := by
        cases c.uuid with
        | none => simp
        | some u =>
            by_cases hu : u = want
            · simp [hu]
            · simp [hu]
      rw [charIndexIn, hsame, List.findIdx?_cons]
      by_cases hc : c.uuid = some want
      · simp [hc]
      · simp only [hc, decide_false, Bool.false_eq_true, ↓reduceIte, ofNat_add_one, ih]
        cases cs.findIdx? fun c => c.uuid = some want with
        | none => simp [Nat.add_right_comm, Nat.add_assoc]
        | some i => simp [Nat.add_comm, Nat.add_left_comm]

theorem charIndexOf_eq (want : List UInt8) (services : List RuntimeBleServiceDef) (n : Nat) :
    charIndexOf want (UInt16.ofNat n) services
      = match (declared services).findIdx? fun c => c.uuid = some want with
        | some i => .error (UInt16.ofNat (n + i))
        | none => .ok (UInt16.ofNat (n + (declared services).length)) := by
  induction services generalizing n with
  | nil => rfl
  | cons s rest ih =>
      have hdeclared : declared (s :: rest) = s.chars.getD [] ++ declared rest := rfl
      rw [charIndexOf, hdeclared, List.findIdx?_append]
      cases s.chars with
      | none => simpa using ih n
      | some cdefs =>
          simp only [Option.getD_some, charIndexIn_eq]
          cases cdefs.findIdx? fun c => c.uuid = some want with
          | some i => rfl
          | none =>
              show charIndexOf want (UInt16.ofNat (n + cdefs.length)) rest = _
              rw [ih]
              cases (declared rest).findIdx? fun c => c.uuid = some want with
              | none => simp [Nat.add_assoc]
              | some i => simp [Nat.add_comm, Nat.add_left_comm]

/-- **`runtime_ble_char_index` returns the first characteristic with the
UUID**, and an error when there is none. -/
theorem runtimeBleCharIndex_eq {cfg : RuntimeCfg} {want : List UInt8}
    (hwell : WellFormed (cfg.services.getD [])) (hwant : want.length = 2 ∨ want.length = 16) :
    runtimeBleCharIndex (some cfg) (some want)
      = match (declared (cfg.services.getD [])).findIdx? fun c => c.uuid = some want with
        | some i => (i : Int)
        | none => runtimeBleErrInvalid := by
  have hlength : ¬ (want.length ≠ 2 ∧ want.length ≠ 16) := by omega
  have hbound := hwell.length_declared
  simp only [runtimeBleCharIndex, hlength, ↓reduceIte, Option.bind_some]
  cases hservices : cfg.services with
  | none => rfl
  | some services =>
      cases services with
      | nil => rfl
      | cons s rest =>
          rw [hservices] at hbound
          simp only [Option.getD_some] at hbound ⊢
          rw [show (0 : UInt16) = UInt16.ofNat 0 from rfl, charIndexOf_eq]
          cases hfind : (declared (s :: rest)).findIdx? fun c => c.uuid = some want with
          | none => rfl
          | some i =>
              have hi : i < (declared (s :: rest)).length :=
                (List.findIdx?_eq_some_iff_findIdx_eq.mp hfind).1
              simp only [Nat.zero_add, UInt16.toNat_ofNat']
              rw [Nat.mod_eq_of_lt (by omega)]

/-! ## The table only grows -/

variable {T : Trouble} {b : Build}

theorem getElem?_of_prefix {α : Type} {l l' : List α} {i : Nat} {a : α} (h : l <+: l')
    (hi : l[i]? = some a) : l'[i]? = some a := by
  obtain ⟨extra, rfl⟩ := h
  obtain ⟨hlt, -⟩ := List.getElem?_eq_some_iff.mp hi
  rw [List.getElem?_append_left hlt]
  exact hi

theorem getElem?_append_length {α : Type} (l xs : List α) (a : α) (ys : List α) :
    (l ++ (xs ++ a :: ys))[l.length + xs.length]? = some a := by
  rw [List.getElem?_append_right (Nat.le_add_right ..), Nat.add_sub_cancel_left,
    List.getElem?_append_right (Nat.le_refl _), Nat.sub_self]
  rfl

/-- `g'` is `g` with more in its table, and nothing else that the event
loop looks up. -/
structure Extends (g g' : Gatt) : Prop where
  table : g.table <+: g'.table
  chars : g'.chars = g.chars
  props : g'.props = g.props

/-- `g'` is `g` with these attributes at the end of its table. -/
structure Appends (attrs : List Attribute) (g g' : Gatt) : Prop where
  table : g'.table = g.table ++ attrs
  chars : g'.chars = g.chars
  props : g'.props = g.props
  descriptors : g'.descriptors = g.descriptors

theorem Appends.extends {attrs : List Attribute} {g g' : Gatt} (h : Appends attrs g g') :
    Extends g g' :=
  ⟨h.table ▸ List.prefix_append .., h.chars, h.props⟩

theorem Appends.trans {attrs attrs' : List Attribute} {g g' g'' : Gatt} (h : Appends attrs g g')
    (h' : Appends attrs' g' g'') : Appends (attrs ++ attrs') g g'' where
  table := by rw [h'.table, h.table, List.append_assoc]
  chars := h'.chars.trans h.chars
  props := h'.props.trans h.props
  descriptors := h'.descriptors.trans h.descriptors

theorem push_eq_ok {g g' : Gatt} {a : Attribute} (h : g.push b a = .ok g') :
    Appends [a] g g' := by
  unfold Gatt.push at h
  split at h
  · cases h
    exact ⟨rfl, rfl, rfl, rfl⟩
  · cases h

/-- The attribute is a descriptor with the UUID. -/
def Attribute.Describes (uuid : List UInt8) : Attribute → Prop
  | .descriptor u .. | .descriptorRo u .. => u = uuid
  | _ => False

theorem pushDescriptor_eq_ok {g g' : Gatt} {d : RuntimeBleDescDef}
    (h : pushDescriptor b g d = .ok g') :
    ∃ a, a.Describes (uuidFrom d.uuid) ∧ Appends [a] g g' := by
  simp only [pushDescriptor] at h
  split at h
  · have hpush := push_eq_ok h
    refine ⟨_, ?_, ⟨hpush.table, hpush.chars, hpush.props, hpush.descriptors⟩⟩
    rfl
  · refine ⟨_, ?_, push_eq_ok h⟩
    rfl

theorem pushCccd_eq_ok {g g' : Gatt} {c : RuntimeBleCharDef} (h : pushCccd b g c = .ok g') :
    ∃ write, Appends (if hasCccd (mapProps c.props) then [.cccd write] else []) g g' := by
  unfold pushCccd at h
  split at h
  · rename_i hc
    rw [hc]
    exact ⟨_, push_eq_ok h⟩
  · rename_i hc
    cases h
    refine ⟨none, ⟨?_, rfl, rfl, rfl⟩⟩
    rw [if_neg hc, List.append_nil]

/-- What `build_gatt` keeps of descriptor `e.2` of the characteristic with
index `chr`, the descriptors of which begin at `base`. -/
def descRecord (T : Trouble) (chr base : Nat) (e : RuntimeBleDescDef × Nat) : DescMeta where
  handle := T.handleOf (base + e.2)
  chr := UInt16.ofNat chr
  desc := UInt8.ofNat (min e.2 0xff)

/-- The loop over the descriptors, from the `k`-th on. -/
theorem descriptors_eq_ok {chr base : Nat} {ds : List RuntimeBleDescDef} :
    ∀ {k : Nat} {g g' : Gatt}, base + k = g.table.length →
      (ds.zipIdx k).foldlM (addDescriptor T b chr) g = .ok g' →
      Extends g g' ∧ g'.table.length = g.table.length + ds.length
        ∧ g'.descriptors = g.descriptors ++ (ds.zipIdx k).map (descRecord T chr base)
        ∧ ∀ e ∈ ds.zipIdx k,
            ∃ a, g'.table[base + e.2]? = some a ∧ a.Describes (uuidFrom e.1.uuid) := by
  induction ds with
  | nil =>
      intro k g g' _ h
      cases h
      exact ⟨⟨List.prefix_rfl, rfl, rfl⟩, rfl, by simp, by simp⟩
  | cons d ds ih =>
      intro k g g' hbase h
      rw [List.zipIdx_cons, List.foldlM_cons] at h
      obtain ⟨g₁, hadd, hrest⟩ := bind_eq_ok h
      obtain ⟨g₀, hpush, hset⟩ := bind_eq_ok hadd
      obtain ⟨a, hdescribes, happends⟩ := pushDescriptor_eq_ok hpush
      obtain ⟨htable, hchars, hprops, hdescs⟩ := happends
      cases hset
      obtain ⟨hext, hlength, hdescs', hdescribed⟩ :=
        ih (k := k + 1) (by simp only [htable, List.length_append, List.length_singleton]; omega)
          hrest
      have hpre : g.table <+: g₀.table := htable ▸ List.prefix_append ..
      refine ⟨⟨hpre.trans hext.table, hext.chars.trans hchars, hext.props.trans hprops⟩,
        ?_, ?_, ?_⟩
      · simp only [htable, List.length_append, List.length_singleton] at hlength
        simp only [hlength, List.length_cons]
        omega
      · rw [hdescs', hdescs, List.zipIdx_cons, List.map_cons, List.append_assoc,
          List.singleton_append]
        simp only [descRecord, hbase]
      · intro e he
        rcases List.mem_cons.mp (List.zipIdx_cons ▸ he) with rfl | he
        · refine ⟨a, getElem?_of_prefix hext.table ?_, hdescribes⟩
          show g₀.table[base + k]? = some a
          rw [htable, hbase]
          simp
        · exact hdescribed e he

/-! ## Characteristics and their places -/

/-- A declared characteristic with the place of its declaration in the
table. -/
abbrev Placed := RuntimeBleCharDef × Nat

/-- The place of its first descriptor. -/
def Placed.descBase (e : Placed) : Nat :=
  e.2 + 2 + if hasCccd (mapProps e.1.props) then 1 else 0

/-- What `build_gatt` keeps of it. -/
def Placed.record (T : Trouble) (e : Placed) : Characteristic where
  handle := T.handleOf (e.2 + 1)
  cccdHandle := if hasCccd (mapProps e.1.props) then some (T.handleOf (e.2 + 2)) else none

/-- The descriptor entries of the characteristic with index `e.2`. -/
def descRecords (T : Trouble) (e : Placed × Nat) : List DescMeta :=
  (e.1.1.descriptors.getD []).zipIdx.map (descRecord T e.2 e.1.descBase)

/-- The attributes of a characteristic are where it says. -/
structure InTable (table : List Attribute) (e : Placed) : Prop where
  declaration : table[e.2]? = some (.declaration (uuidFrom e.1.uuid) (mapProps e.1.props))
  value : ∃ read write store, table[e.2 + 1]? = some (.value (uuidFrom e.1.uuid) read write store)
  cccd : hasCccd (mapProps e.1.props) = true → ∃ write, table[e.2 + 2]? = some (.cccd write)
  descriptors : ∀ d ∈ (e.1.descriptors.getD []).zipIdx,
    ∃ a, table[e.descBase + d.2]? = some a ∧ a.Describes (uuidFrom d.1.uuid)

theorem InTable.mono {table table' : List Attribute} {e : Placed} (h : InTable table e)
    (hpre : table <+: table') : InTable table' e where
  declaration := getElem?_of_prefix hpre h.declaration
  value := by
    obtain ⟨read, write, store, hv⟩ := h.value
    exact ⟨read, write, store, getElem?_of_prefix hpre hv⟩
  cccd hc := by
    obtain ⟨write, hw⟩ := h.cccd hc
    exact ⟨write, getElem?_of_prefix hpre hw⟩
  descriptors d hd := by
    obtain ⟨a, ha, hdescribes⟩ := h.descriptors d hd
    exact ⟨a, getElem?_of_prefix hpre ha, hdescribes⟩

/-- `g` lists the placed characteristics. -/
structure Listed (T : Trouble) (g : Gatt) (placed : List Placed) : Prop where
  chars : g.chars = placed.map (Placed.record T)
  props : g.props = placed.map fun e => e.1.props
  descriptors : g.descriptors = placed.zipIdx.flatMap (descRecords T)
  inTable : ∀ e ∈ placed, InTable g.table e
  apart : placed.Pairwise fun e e' => e.2 + charAttributes e.1 ≤ e'.2
  within : ∀ e ∈ placed, e.2 + charAttributes e.1 ≤ g.table.length

namespace Listed

variable {g g' : Gatt} {placed : List Placed}

/-- Attributes may be added, and nothing else. -/
theorem extend (h : Listed T g placed) (hext : Extends g g')
    (hdescs : g'.descriptors = g.descriptors) : Listed T g' placed where
  chars := hext.chars.trans h.chars
  props := hext.props.trans h.props
  descriptors := hdescs.trans h.descriptors
  inTable e he := (h.inTable e he).mono hext.table
  apart := h.apart
  within e he := Nat.le_trans (h.within e he) hext.table.length_le

theorem addService (h : Listed T g placed) {uuid : List UInt8}
    (hok : addService b g uuid = .ok g') : Listed T g' placed := by
  have happends := push_eq_ok hok
  exact h.extend happends.extends happends.descriptors

end Listed

/-- `add_characteristic`, when the table has room. -/
theorem addCharacteristic_eq_ok {g g' : Gatt} {c : RuntimeBleCharDef}
    (h : addCharacteristic T b g c = .ok g') :
    let e : Placed := (c, g.table.length)
    g.table <+: g'.table ∧ g'.table.length = g.table.length + charAttributes c
      ∧ g'.chars = g.chars ++ [e.record T] ∧ g'.props = g.props ++ [c.props]
      ∧ g'.descriptors = g.descriptors ++ descRecords T (e, g.chars.length)
      ∧ InTable g'.table e := by
  intro e
  obtain ⟨g₁, hdecl, h⟩ := bind_eq_ok h
  obtain ⟨g₂, hvalue, h⟩ := bind_eq_ok h
  obtain ⟨g₃, hcccd, h⟩ := bind_eq_ok h
  obtain ⟨g₄, hdescs, h⟩ := bind_eq_ok h
  cases h
  obtain ⟨write, hcccd⟩ := pushCccd_eq_ok hcccd
  obtain ⟨read, write', store, hvalue⟩ : ∃ read write store,
      Appends [.value (uuidFrom c.uuid) read write store] g₁ g₂ := by
    have hpush := push_eq_ok hvalue
    exact ⟨_, _, _, hpush.table, hpush.chars, hpush.props, hpush.descriptors⟩
  -- what precedes the descriptors
  have hhead := ((push_eq_ok hdecl).trans hvalue).trans hcccd
  have hlength : g₃.table.length = e.descBase := by
    rw [hhead.table]
    simp only [List.length_append, List.length_singleton, Placed.descBase, e]
    split <;> simp
  obtain ⟨hext, hlength₄, hdescs₄, hdescribed⟩ := descriptors_eq_ok (k := 0) hlength.symm hdescs
  refine ⟨hhead.extends.table.trans hext.table, ?_, ?_, ?_, ?_, ?_, ?_, ?_, ?_⟩
  · simp only [hlength₄, hlength, Placed.descBase, charAttributes, e]
    omega
  · simp only [hext.chars, hhead.chars]
    rfl
  · simp only [hext.props, hhead.props]
  · simp only [hdescs₄, hhead.descriptors]
    rfl
  · refine getElem?_of_prefix hext.table ?_
    rw [hhead.table]
    exact getElem?_append_length g.table [] _ _
  · refine ⟨read, write', store, getElem?_of_prefix hext.table ?_⟩
    rw [hhead.table]
    exact getElem?_append_length g.table [_] _ _
  · intro hc
    refine ⟨write, getElem?_of_prefix hext.table ?_⟩
    rw [hhead.table, if_pos hc]
    exact getElem?_append_length g.table [_, _] _ _
  · exact hdescribed

namespace Listed

variable {g g' : Gatt} {placed : List Placed}

theorem addCharacteristic (h : Listed T g placed) {c : RuntimeBleCharDef}
    (hok : addCharacteristic T b g c = .ok g') :
    Listed T g' (placed ++ [(c, g.table.length)]) := by
  obtain ⟨hpre, hlength, hchars, hprops, hdescs, hin⟩ := addCharacteristic_eq_ok hok
  have hcount : g.chars.length = placed.length := by rw [h.chars, List.length_map]
  constructor
  · rw [hchars, h.chars, List.map_append]
    rfl
  · rw [hprops, h.props, List.map_append]
    rfl
  · rw [hdescs, h.descriptors, List.zipIdx_append, List.flatMap_append, hcount]
    simp
  · intro e he
    rcases List.mem_append.mp he with hold | hnew
    · exact (h.inTable e hold).mono hpre
    · rw [List.mem_singleton.mp hnew]
      exact hin
  · refine List.pairwise_append.mpr ⟨h.apart, List.pairwise_singleton .., ?_⟩
    intro e he e' he'
    rw [List.mem_singleton.mp he']
    exact h.within e he
  · intro e he
    rcases List.mem_append.mp he with hold | hnew
    · exact Nat.le_trans (h.within e hold) hpre.length_le
    · rw [List.mem_singleton.mp hnew]
      exact hlength.ge

theorem addCharacteristics {cs : List RuntimeBleCharDef} :
    ∀ {g : Gatt} {placed : List Placed}, Listed T g placed →
      cs.foldlM (Server.addCharacteristic T b) g = .ok g' →
      ∃ placed', Listed T g' placed' ∧ placed'.map (·.1) = placed.map (·.1) ++ cs := by
  induction cs with
  | nil =>
      intro g placed h hok
      cases hok
      exact ⟨placed, h, by simp⟩
  | cons c cs ih =>
      intro g placed h hok
      rw [List.foldlM_cons] at hok
      obtain ⟨g₁, hadd, hrest⟩ := bind_eq_ok hok
      obtain ⟨placed', hlisted, hmap⟩ := ih (h.addCharacteristic hadd) hrest
      exact ⟨placed', hlisted, by simpa using hmap⟩

theorem addUserServices {services : List RuntimeBleServiceDef} :
    ∀ {g : Gatt} {placed : List Placed}, Listed T g placed →
      services.foldlM (addUserService T b) g = .ok g' →
      ∃ placed', Listed T g' placed'
        ∧ placed'.map (·.1) = placed.map (·.1) ++ declared services := by
  induction services with
  | nil =>
      intro g placed h hok
      cases hok
      exact ⟨placed, h, by simp [declared]⟩
  | cons s rest ih =>
      intro g placed h hok
      rw [List.foldlM_cons] at hok
      obtain ⟨g₂, huser, hrest⟩ := bind_eq_ok hok
      obtain ⟨g₁, hservice, hcdefs⟩ := bind_eq_ok huser
      obtain ⟨placed₁, hlisted₁, hmap₁⟩ := (h.addService hservice).addCharacteristics hcdefs
      obtain ⟨placed₂, hlisted₂, hmap₂⟩ := ih hlisted₁ hrest
      refine ⟨placed₂, hlisted₂, ?_⟩
      rw [hmap₂, hmap₁, List.append_assoc]
      rfl

theorem withNus (h : Listed T g placed) (rx tx : Nat) :
    Listed T { g with nusRx := rx, nusTx := tx } placed :=
  ⟨h.chars, h.props, h.descriptors, h.inTable, h.apart, h.within⟩

/-- The built-in service is listed like a declared one. -/
theorem addNus (h : Listed T g placed) (hok : addNus T b g = .ok g') :
    ∃ placed', Listed T g' placed'
      ∧ placed'.map (·.1) = placed.map (·.1) ++ declared [nusService] := by
  obtain ⟨g₁, hservice, hok⟩ := bind_eq_ok hok
  obtain ⟨g₂, hrx, htx⟩ := bind_eq_ok hok
  have hlisted₂ := ((h.addService hservice).withNus g₁.chars.length g₁.nusTx).addCharacteristic hrx
  refine ⟨_, (hlisted₂.withNus g₂.nusRx g₂.chars.length).addCharacteristic htx, ?_⟩
  simp [declared, nusService]

theorem addServices (h : Listed T g placed) {services : Option (List RuntimeBleServiceDef)}
    (hok : addServices T b services g = .ok g') :
    ∃ placed', Listed T g' placed'
      ∧ placed'.map (·.1) = placed.map (·.1) ++ declared (effectiveServices services) := by
  cases services with
  | none => exact h.addNus hok
  | some services =>
      cases services with
      | nil => exact h.addNus hok
      | cons s rest => exact h.addUserServices hok

end Listed

theorem gap_eq_ok {n : Nat} : ∀ {g g' : Gatt},
    (List.replicate n Attribute.gap).foldlM (Gatt.push b) g = .ok g' →
      Extends g g' ∧ g'.descriptors = g.descriptors := by
  induction n with
  | zero =>
      intro g g' h
      cases h
      exact ⟨⟨List.prefix_rfl, rfl, rfl⟩, rfl⟩
  | succ n ih =>
      intro g g' h
      rw [List.replicate_succ, List.foldlM_cons] at h
      obtain ⟨g₁, hpush, hrest⟩ := bind_eq_ok h
      obtain ⟨hext, hdescs⟩ := ih hrest
      have happends := push_eq_ok hpush
      exact ⟨⟨happends.extends.table.trans hext.table, hext.chars.trans happends.chars,
        hext.props.trans happends.props⟩, hdescs.trans happends.descriptors⟩

/-- **A GATT that is built lists the declared characteristics.** -/
theorem listed_of_buildGatt {cfg : RuntimeCfg} {name : List UInt8} {g : Gatt}
    (h : buildGatt T b cfg name = .ok g) :
    ∃ placed, Listed T g placed
      ∧ placed.map (·.1) = declared (effectiveServices cfg.services) := by
  obtain ⟨g₁, hgap, hservices⟩ := bind_eq_ok h
  simp only [gapBuild] at hgap
  split at hgap
  · cases hgap
  · obtain ⟨hext, hdescs⟩ := gap_eq_ok hgap
    have hempty : Listed T { table := [], appearanceStore := cfg.appearance != 0 } [] :=
      ⟨rfl, rfl, rfl, by simp, List.Pairwise.nil, by simp⟩
    simpa using (hempty.extend hext hdescs).addServices hservices

theorem length_table_le {cfg : RuntimeCfg} {name : List UInt8} {g : Gatt}
    (h : buildGatt T b cfg name = .ok g) : g.table.length ≤ b.attMax := by
  obtain ⟨g₁, hgap, hservices⟩ := bind_eq_ok h
  simp only [gapBuild] at hgap
  split at hgap
  · cases hgap
  · have hlength : g₁.table.length ≤ b.attMax :=
      fills_gap.size_le (s := { table := [], appearanceStore := cfg.appearance != 0 })
        (Nat.zero_le b.attMax) hgap
    exact (fills_addServices cfg.services).size_le hlength hservices

/-! ## Handles -/

section Handles

/-- The places of the values of the characteristics. -/
def valuePlaces (placed : List Placed) : List Nat := placed.map fun e => e.2 + 1

/-- The places of the descriptors of a characteristic. -/
def Placed.descPlaces (e : Placed) : List Nat :=
  (e.1.descriptors.getD []).zipIdx.map fun d => e.descBase + d.2

theorem Placed.mem_descPlaces {e : Placed} {p : Nat} (h : p ∈ e.descPlaces) :
    e.2 + 2 ≤ p ∧ p < e.2 + charAttributes e.1 := by
  obtain ⟨⟨d, j⟩, hd, rfl⟩ := List.mem_map.mp h
  have hj : j < (e.1.descriptors.getD []).length := by
    simpa using (List.mem_zipIdx hd).2.1
  simp only [Placed.descBase, charAttributes]
  omega

theorem Placed.nodup_descPlaces (e : Placed) : e.descPlaces.Nodup := by
  have hplaces : e.descPlaces
      = ((e.1.descriptors.getD []).zipIdx.map Prod.snd).map fun j => e.descBase + j := by
    rw [List.map_map]
    rfl
  rw [hplaces]
  exact (List.nodup_zipIdx_map_snd _).map fun _ _ => Nat.add_left_cancel

variable {g : Gatt} {placed : List Placed}

/-- The attributes of two characteristics do not overlap. -/
theorem Listed.disjoint (h : Listed T g placed) {e e' : Placed} (he : e ∈ placed)
    (he' : e' ∈ placed) (hne : e ≠ e') :
    e.2 + charAttributes e.1 ≤ e'.2 ∨ e'.2 + charAttributes e'.1 ≤ e.2 := by
  have hpair : placed.Pairwise fun e e' =>
      e.2 + charAttributes e.1 ≤ e'.2 ∨ e'.2 + charAttributes e'.1 ≤ e.2 := h.apart.imp .inl
  have : Std.Symm fun e e' : Placed =>
      e.2 + charAttributes e.1 ≤ e'.2 ∨ e'.2 + charAttributes e'.1 ≤ e.2 := ⟨fun _ _ => Or.symm⟩
  exact hpair.forall he he' hne

theorem Listed.nodup_places (h : Listed T g placed) :
    (valuePlaces placed ++ placed.flatMap Placed.descPlaces).Nodup := by
  refine List.nodup_append.mpr ⟨?_, ?_, ?_⟩
  · refine List.pairwise_map.mpr (h.apart.imp fun hle => ?_)
    simp only [charAttributes] at hle
    omega
  · refine List.nodup_flatMap.mpr ⟨fun e _ => e.nodup_descPlaces, h.apart.imp ?_⟩
    intro e e' hle p hp hp'
    have := e.mem_descPlaces hp
    have := e'.mem_descPlaces hp'
    omega
  · intro p hp q hq heq
    obtain ⟨e, he, rfl⟩ := List.mem_map.mp hp
    obtain ⟨e', he', hq⟩ := List.mem_flatMap.mp hq
    obtain ⟨hlo, hhi⟩ := e'.mem_descPlaces hq
    by_cases hsame : e = e'
    · subst hsame
      omega
    · rcases h.disjoint he he' hsame with hle | hle
      · simp only [charAttributes] at hle
        omega
      · omega

/-- The handles are those of the places. -/
theorem Listed.handles_eq (h : Listed T g placed) :
    g.chars.map (·.handle) ++ g.descriptors.map (·.handle)
      = (valuePlaces placed ++ placed.flatMap Placed.descPlaces).map T.handleOf := by
  have hdescs : ∀ (rest : List Placed) (k : Nat),
      ((rest.zipIdx k).flatMap (descRecords T)).map (·.handle)
        = (rest.flatMap Placed.descPlaces).map T.handleOf := by
    intro rest
    induction rest with
    | nil => exact fun _ => rfl
    | cons e rest ih =>
        intro k
        rw [List.zipIdx_cons, List.flatMap_cons, List.map_append, ih (k + 1), List.flatMap_cons,
          List.map_append]
        simp only [descRecords, Placed.descPlaces, List.map_map]
        rfl
  rw [h.chars, h.descriptors, hdescs, List.map_append]
  simp only [valuePlaces, List.map_map]
  rfl

theorem Listed.places_lt (h : Listed T g placed) :
    ∀ p ∈ valuePlaces placed ++ placed.flatMap Placed.descPlaces, p < g.table.length := by
  intro p hp
  rcases List.mem_append.mp hp with hp | hp
  · obtain ⟨e, he, rfl⟩ := List.mem_map.mp hp
    have hwithin := h.within e he
    simp only [charAttributes] at hwithin
    omega
  · obtain ⟨e, he, hp⟩ := List.mem_flatMap.mp hp
    have hwithin := h.within e he
    have hplace := (e.mem_descPlaces hp).2
    omega

theorem Listed.nodup_handles (h : Listed T g placed) {n : Nat} (hn : g.table.length ≤ n)
    (hdistinct : ∀ i < n, ∀ j < n, T.handleOf i = T.handleOf j → i = j) :
    (g.chars.map (·.handle) ++ g.descriptors.map (·.handle)).Nodup := by
  rw [h.handles_eq]
  refine List.Nodup.map_on ?_ h.nodup_places
  intro p hp q hq heq
  exact hdistinct p (Nat.lt_of_lt_of_le (h.places_lt p hp) hn) q
    (Nat.lt_of_lt_of_le (h.places_lt q hq) hn) heq

end Handles

/-! ## One numbering -/

/-- The vectors of a GATT list `cs`, under the flat indices of `cs`; the
descriptor entries are read as numbers. -/
structure Numbered (T : Trouble) (cs : List RuntimeBleCharDef) (g : Gatt)
    (placed : List Placed) : Prop where
  declared : placed.map (·.1) = cs
  chars : g.chars = placed.map (Placed.record T)
  props : g.props = cs.map (·.props)
  descriptors : g.descriptors.map (fun d => (d.handle, d.chr.toNat, d.desc.toNat))
    = placed.zipIdx.flatMap fun e => (e.1.1.descriptors.getD []).zipIdx.map fun d =>
        (T.handleOf (e.1.descBase + d.2), e.2, d.2)
  inTable : ∀ e ∈ placed, InTable g.table e
  uuids : ∀ c ∈ cs, c.uuid = some (uuidFrom c.uuid)
  descriptorUuids : ∀ c ∈ cs, ∀ d ∈ c.descriptors.getD [], d.uuid = some (uuidFrom d.uuid)
  handles : (g.chars.map (·.handle) ++ g.descriptors.map (·.handle)).Nodup

/-- No index is truncated. -/
theorem descRecords_toNat {e : Placed × Nat} (hindex : e.2 < 65536)
    (hcount : (e.1.1.descriptors.getD []).length ≤ 255) :
    (descRecords T e).map (fun d => (d.handle, d.chr.toNat, d.desc.toNat))
      = (e.1.1.descriptors.getD []).zipIdx.map fun d =>
          (T.handleOf (e.1.descBase + d.2), e.2, d.2) := by
  rw [descRecords, List.map_map]
  refine List.map_congr_left fun d hd => ?_
  have hd : d.2 < (e.1.1.descriptors.getD []).length := by
    simpa using (List.mem_zipIdx hd).2.1
  have hchr : (UInt16.ofNat e.2).toNat = e.2 := by
    rw [UInt16.toNat_ofNat', Nat.mod_eq_of_lt hindex]
  have hdesc : (UInt8.ofNat (min d.2 0xff)).toNat = d.2 := by
    rw [UInt8.toNat_ofNat', Nat.min_eq_left (by omega), Nat.mod_eq_of_lt (by omega)]
  simp only [Function.comp_apply, descRecord, hchr, hdesc]

theorem wellFormed_effective {services : Option (List RuntimeBleServiceDef)}
    (h : WellFormed (services.getD [])) : WellFormed (effectiveServices services) := by
  have hnus : WellFormed [nusService] := by
    refine ⟨by decide, by decide, by decide, ?_, by decide⟩
    intro c hc
    rcases List.mem_pair.mp hc with rfl | rfl
    · exact ⟨nusRxUuid, rfl, by decide⟩
    · exact ⟨nusTxUuid, rfl, by decide⟩
  cases services with
  | none => exact hnus
  | some services =>
      cases services with
      | nil => exact hnus
      | cons s rest => exact h

/-- **One numbering.** The vectors of a GATT that is built list the
declared characteristics and their descriptors in the order of declaration,
each under its own handle, and `runtime_ble_char_index` gives the first
index in that order. -/
theorem one_numbering (T : Trouble) (b : Build) (cfg : RuntimeCfg) (name : List UInt8) (g : Gatt)
    (hwell : WellFormed (cfg.services.getD []))
    (hdistinct : ∀ i < b.attMax, ∀ j < b.attMax, T.handleOf i = T.handleOf j → i = j)
    (hbuild : buildGatt T b cfg name = .ok g) :
    (∃ placed, Numbered T (declared (effectiveServices cfg.services)) g placed)
    ∧ ∀ want : List UInt8, want.length = 2 ∨ want.length = 16 →
        runtimeBleCharIndex (some cfg) (some want)
          = match (declared (cfg.services.getD [])).findIdx? fun c => c.uuid = some want with
            | some i => (i : Int)
            | none => runtimeBleErrInvalid := by
  refine ⟨?_, fun want hwant => runtimeBleCharIndex_eq hwell hwant⟩
  obtain ⟨placed, hlisted, hmap⟩ := listed_of_buildGatt hbuild
  have heffective := wellFormed_effective hwell
  have hmem : ∀ e ∈ placed, e.1 ∈ declared (effectiveServices cfg.services) := by
    intro e he
    rw [← hmap]
    exact List.mem_map_of_mem he
  refine ⟨placed, hmap, hlisted.chars, ?_, ?_, hlisted.inTable, ?_, ?_, ?_⟩
  · rw [hlisted.props, ← hmap, List.map_map]
    rfl
  · rw [hlisted.descriptors, List.map_flatMap]
    refine List.flatMap_congr fun e he => descRecords_toNat ?_ ?_
    · have hlength : placed.length = (declared (effectiveServices cfg.services)).length := by
        rw [← hmap, List.length_map]
      have hindex : e.2 < placed.length := by
        simpa using (List.mem_zipIdx he).2.1
      have hbound := heffective.length_declared
      omega
    · have hplaced : e.1 ∈ placed := (List.mem_zipIdx' he).2 ▸ List.getElem_mem _
      exact heffective.descriptors _ (hmem _ hplaced)
  · intro c hc
    obtain ⟨u, hu, hlen⟩ := heffective.uuids c hc
    rw [hu, uuidFrom_some hlen]
  · intro c hc d hd
    obtain ⟨u, hu, hlen⟩ := heffective.descriptorUuids c hc d hd
    rw [hu, uuidFrom_some hlen]
  · exact hlisted.nodup_handles (length_table_le hbuild) hdistinct

/-- A host crate that hands out the handles 1, 2, .. in turn. -/
def countingHost : Trouble where
  nameMax := 22
  gapAttributes := 5
  handleOf i := UInt16.ofNat (i + 1)

/-- A service without characteristics between two others. -/
def threeServicesCfg : RuntimeCfg :=
  let first : RuntimeBleCharDef := { uuid := some [0x01, 0x2a], props := cPropNotify }
  let second : RuntimeBleCharDef :=
    { uuid := some [0x02, 0x2a], props := cPropRead
      descriptors := some [{ uuid := some [0x01, 0x29] }] }
  { services := some
      [{ uuid := some [0x0a, 0x18], chars := some [first] }, { uuid := some [0x0b, 0x18] },
        { uuid := some [0x0f, 0x18], chars := some [second] }] }

theorem wellFormed_threeServicesCfg : WellFormed (threeServicesCfg.services.getD []) := by
  refine ⟨by decide, by decide, by decide, ?_, ?_⟩
  · intro c hc
    rcases List.mem_pair.mp hc with rfl | rfl
    · exact ⟨_, rfl, by decide⟩
    · exact ⟨_, rfl, by decide⟩
  · intro c hc d hd
    rcases List.mem_pair.mp hc with rfl | rfl
    · cases hd
    · rw [List.mem_singleton.mp hd]
      exact ⟨_, rfl, by decide⟩

theorem one_numbering_threeServices :
    ∃ g, buildGatt countingHost {} threeServicesCfg [] = .ok g
      ∧ (∃ placed, Numbered countingHost (declared (effectiveServices threeServicesCfg.services)) g
          placed)
      ∧ ∀ want : List UInt8, want.length = 2 ∨ want.length = 16 →
          runtimeBleCharIndex (some threeServicesCfg) (some want)
            = match (declared (threeServicesCfg.services.getD [])).findIdx? fun c =>
                c.uuid = some want with
              | some i => (i : Int)
              | none => runtimeBleErrInvalid := by
  refine ⟨_, rfl,
    one_numbering countingHost {} threeServicesCfg [] _ wellFormed_threeServicesCfg ?_ rfl⟩
  intro i hi j hj heq
  have hi : i < 32 := hi
  have hj : j < 32 := hj
  have heq := congrArg UInt16.toNat heq
  simp only [countingHost, UInt16.toNat_ofNat'] at heq
  omega

end RuntimeBle.Server
