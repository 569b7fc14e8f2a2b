import RuntimeBle.Client.Operations
import RuntimeBle.Server.Events

/-!
# Pair — Database

What a client finds in the attribute table of a server: the services with
their handle ranges, and in each the characteristics, as service and
characteristic discovery are specified. A characteristic begins with its
declaration, is followed by its value, and its CCCD is the first one before
the next declaration or service.

`services_of_buildGatt` says what is found in a table that `build_gatt` has
filled: the declared services and characteristics, and nothing else.
-/

namespace RuntimeBle.Pair

open RuntimeBle.Lib RuntimeBle.Server
open RuntimeBle.Client (ServiceHandle)

/-! ## Discovery -/

/-- The attribute is a service declaration. -/
def isService : Attribute → Bool
  | .service _ => true
  | _ => false

/-- A service or a declaration, which ends the characteristic before it. -/
def opens : Attribute → Bool
  | .service _ | .declaration .. => true
  | _ => false

section Discovery

variable (T : Trouble)

/-- The first CCCD of a list of attributes that begins at place `n`. -/
def cccdIn : Nat → List Attribute → Option UInt16
  | _, [] => none
  | n, .cccd _ :: _ => some (T.handleOf n)
  | n, _ :: attrs => cccdIn (n + 1) attrs

/-- The characteristics among the attributes from place `n` on. A CCCD is
looked for where the properties have one. -/
def charsFrom : Nat → List Attribute → List Client.Characteristic
  | _, [] => []
  | n, .declaration uuid props :: attrs =>
      { handle := T.handleOf (n + 1)
        cccdHandle :=
          if hasCccd props then cccdIn T (n + 1) (attrs.takeWhile fun a => !opens a) else none
        uuid, props } :: charsFrom (n + 1) attrs
  | n, _ :: attrs => charsFrom (n + 1) attrs

/-- A service as a client finds it. -/
structure PeerService where
  handle : ServiceHandle
  chars : List Client.Characteristic
deriving DecidableEq

/-- The services among the attributes from place `n` on; a service is as long
as the next one does not begin. -/
def servicesFrom : Nat → List Attribute → List PeerService
  | _, [] => []
  | n, .service uuid :: attrs =>
      let body := attrs.takeWhile fun a => !isService a
      { handle := { first := T.handleOf n, last := T.handleOf (n + body.length), uuid }
        chars := charsFrom T (n + 1) body } :: servicesFrom (n + 1) attrs
  | n, _ :: attrs => servicesFrom (n + 1) attrs

end Discovery

/-! ## What `build_gatt` appends -/

section Blocks

variable {T : Trouble} {b : Build} {g g' : Gatt}

/-- The attribute is a descriptor. -/
def isDescriptor : Attribute → Bool
  | .descriptor .. | .descriptorRo .. => true
  | _ => false

/-- The attributes of a characteristic: declaration, value, CCCD if it has
one, descriptors. -/
def CharBlock (c : RuntimeBleCharDef) (attrs : List Attribute) : Prop :=
  ∃ read write store cccd descs,
    attrs = .declaration (uuidFrom c.uuid) (mapProps c.props)
      :: .value (uuidFrom c.uuid) read write store :: (cccd ++ descs)
    ∧ (if hasCccd (mapProps c.props) then ∃ level, cccd = [Attribute.cccd level] else cccd = [])
    ∧ descs.length = (c.descriptors.getD []).length ∧ ∀ a ∈ descs, isDescriptor a = true

theorem isDescriptor_of_describes {uuid : List UInt8} {a : Attribute} (h : a.Describes uuid) :
    isDescriptor a = true := by
  cases a <;> first | rfl | exact h.elim

/-- The loop over the descriptors. -/
theorem descriptors_append {chr : Nat} {ds : List (RuntimeBleDescDef × Nat)}
    (h : ds.foldlM (addDescriptor T b chr) g = .ok g') :
    ∃ descs, g'.table = g.table ++ descs ∧ descs.length = ds.length
      ∧ ∀ a ∈ descs, isDescriptor a = true := by
  induction ds generalizing g with
  | nil =>
      cases h
      exact ⟨[], by simp, rfl, by simp⟩
  | cons d ds ih =>
      rw [List.foldlM_cons] at h
      obtain ⟨g₁, hadd, hrest⟩ := bind_eq_ok h
      obtain ⟨g₀, hpush, hset⟩ := bind_eq_ok hadd
      obtain ⟨a, hdescribes, happends⟩ := pushDescriptor_eq_ok hpush
      cases hset
      obtain ⟨descs, htable, hlength, hall⟩ := ih hrest
      refine ⟨a :: descs, ?_, congrArg Nat.succ hlength, ?_⟩
      · rw [htable]
        show g₀.table ++ descs = _
        rw [happends.table, List.append_assoc]
        rfl
      · intro a' ha'
        rcases List.mem_cons.mp ha' with rfl | ha'
        · exact isDescriptor_of_describes hdescribes
        · exact hall a' ha'

theorem addCharacteristic_append {c : RuntimeBleCharDef} (h : addCharacteristic T b g c = .ok g') :
    ∃ attrs, CharBlock c attrs ∧ g'.table = g.table ++ attrs := by
  obtain ⟨g₁, hdecl, h⟩ := bind_eq_ok h
  obtain ⟨g₂, hvalue, h⟩ := bind_eq_ok h
  obtain ⟨g₃, hcccd, h⟩ := bind_eq_ok h
  obtain ⟨g₄, hdescs, h⟩ := bind_eq_ok h
  cases h
  obtain ⟨read, write, store, hvalue⟩ : ∃ read write store,
      g₂.table = g₁.table ++ [.value (uuidFrom c.uuid) read write store] :=
    ⟨_, _, _, (push_eq_ok hvalue).table⟩
  obtain ⟨cccd, hshape, hcccd⟩ : ∃ cccd, (if hasCccd (mapProps c.props) then
      ∃ level, cccd = [Attribute.cccd level] else cccd = []) ∧ g₃.table = g₂.table ++ cccd := by
    obtain ⟨level, hcccd⟩ := pushCccd_eq_ok hcccd
    refine ⟨_, ?_, hcccd.table⟩
    split
    · exact ⟨level, rfl⟩
    · rfl
  obtain ⟨descs, htable, hlength, hall⟩ := descriptors_append hdescs
  rw [List.length_zipIdx] at hlength
  refine ⟨_, ⟨read, write, store, cccd, descs, rfl, hshape, hlength, hall⟩, ?_⟩
  show g₄.table = _
  rw [htable, hcccd, hvalue, (push_eq_ok hdecl).table, List.append_assoc, List.append_assoc,
    List.append_assoc]
  rfl

theorem length_charBlock {c : RuntimeBleCharDef} {attrs : List Attribute} (h : CharBlock c attrs) :
    attrs.length = charAttributes c := by
  obtain ⟨read, write, store, cccd, descs, rfl, hcccd, hlength, -⟩ := h
  have hone : cccd.length = if hasCccd (mapProps c.props) then 1 else 0 := by
    split at hcccd
    · rename_i hhas
      obtain ⟨level, rfl⟩ := hcccd
      rw [if_pos hhas]
      rfl
    · rename_i hhas
      rw [hcccd, if_neg hhas]
      rfl
  simp only [List.length_cons, List.length_append, hone, hlength, charAttributes]
  omega

/-- The loop rule of what each step appends. -/
theorem foldlM_blocks {α : Type} {R : α → List Attribute → Prop} {f : Gatt → α → Except Fault Gatt}
    (hf : ∀ {g g' : Gatt} {x : α}, f g x = .ok g' →
      ∃ attrs, R x attrs ∧ g'.table = g.table ++ attrs)
    {xs : List α} (h : xs.foldlM f g = .ok g') :
    ∃ blocks, List.Forall₂ R xs blocks ∧ g'.table = g.table ++ blocks.flatten := by
  induction xs generalizing g with
  | nil =>
      cases h
      exact ⟨[], .nil, by simp⟩
  | cons x xs ih =>
      rw [List.foldlM_cons] at h
      obtain ⟨g₁, hx, hxs⟩ := bind_eq_ok h
      obtain ⟨attrs, hattrs, htable⟩ := hf hx
      obtain ⟨blocks, hblocks, htable'⟩ := ih hxs
      refine ⟨attrs :: blocks, .cons hattrs hblocks, ?_⟩
      rw [htable', htable, List.append_assoc, List.flatten_cons]

/-- A service with its characteristics. -/
def ServiceBlock (s : RuntimeBleServiceDef) (attrs : List Attribute) : Prop :=
  ∃ blocks, attrs = .service (uuidFrom s.uuid) :: blocks.flatten
    ∧ List.Forall₂ CharBlock (s.chars.getD []) blocks

theorem addUserService_append {s : RuntimeBleServiceDef} (h : addUserService T b g s = .ok g') :
    ∃ attrs, ServiceBlock s attrs ∧ g'.table = g.table ++ attrs := by
  obtain ⟨g₁, hservice, hchars⟩ := bind_eq_ok h
  obtain ⟨blocks, hblocks, htable⟩ := foldlM_blocks (f := addCharacteristic T b)
    addCharacteristic_append hchars
  refine ⟨_, ⟨blocks, rfl, hblocks⟩, ?_⟩
  rw [htable, (push_eq_ok hservice).table, List.append_assoc]
  rfl

theorem addNus_append (h : addNus T b g = .ok g') :
    ∃ attrs, ServiceBlock nusService attrs ∧ g'.table = g.table ++ attrs := by
  obtain ⟨g₁, hservice, h⟩ := bind_eq_ok h
  obtain ⟨g₂, hrx, htx⟩ := bind_eq_ok h
  obtain ⟨rx, hrxBlock, hrxTable⟩ := addCharacteristic_append hrx
  obtain ⟨tx, htxBlock, htxTable⟩ := addCharacteristic_append htx
  refine ⟨_, ⟨[rx, tx], rfl, .cons hrxBlock (.cons htxBlock .nil)⟩, ?_⟩
  show g'.table = _
  rw [htxTable]
  show g₂.table ++ tx = _
  rw [hrxTable]
  show (g₁.table ++ rx) ++ tx = _
  rw [(push_eq_ok hservice).table]
  simp only [List.append_assoc, List.flatten_cons, List.flatten_nil, List.append_nil]
  rfl

theorem gap_of_gapBuild {name : List UInt8} {appearanceStore : Bool}
    (h : gapBuild T b name appearanceStore = .ok g) :
    g.table = List.replicate T.gapAttributes .gap ∧ g.chars = [] := by
  simp only [gapBuild] at h
  split at h
  · cases h
  · obtain ⟨blocks, hblocks, htable⟩ := foldlM_blocks
      (R := fun a attrs => attrs = [a]) (fun hpush => ⟨_, rfl, (push_eq_ok hpush).table⟩) h
    have hflat : ∀ {as : List Attribute} {blocks : List (List Attribute)},
        List.Forall₂ (fun a attrs => attrs = [a]) as blocks → blocks.flatten = as := by
      intro as blocks hall
      induction hall with
      | nil => rfl
      | cons heq _ ih =>
          rw [List.flatten_cons, heq, ih]
          rfl
    rw [hflat hblocks] at htable
    exact ⟨htable, (gap_eq_ok h).1.chars⟩

/-- The table of a GATT that is built. -/
theorem table_of_buildGatt {cfg : RuntimeCfg} {name : List UInt8}
    (h : buildGatt T b cfg name = .ok g) :
    ∃ blocks, List.Forall₂ ServiceBlock (effectiveServices cfg.services) blocks
      ∧ g.table = List.replicate T.gapAttributes .gap ++ blocks.flatten := by
  obtain ⟨g₁, hgap, hservices⟩ := bind_eq_ok h
  have hstart := (gap_of_gapBuild hgap).1
  have hnus : addNus T b g₁ = .ok g → ∃ blocks, List.Forall₂ ServiceBlock [nusService] blocks
      ∧ g.table = List.replicate T.gapAttributes .gap ++ blocks.flatten := by
    intro hadd
    obtain ⟨attrs, hattrs, htable⟩ := addNus_append hadd
    refine ⟨[attrs], .cons hattrs .nil, ?_⟩
    rw [htable, hstart, List.flatten_singleton]
  unfold addServices at hservices
  cases hcfg : cfg.services with
  | none =>
      rw [hcfg] at hservices
      exact hnus hservices
  | some services =>
      rw [hcfg] at hservices
      cases services with
      | nil => exact hnus hservices
      | cons s rest =>
          obtain ⟨blocks, hblocks, htable⟩ := foldlM_blocks (f := addUserService T b)
            addUserService_append hservices
          exact ⟨blocks, hblocks, by rw [htable, hstart]⟩

end Blocks

/-! ## What is found in them -/

section Found

variable (T : Trouble)

/-- The characteristic `c`, declared at place `n`. -/
def found (n : Nat) (c : RuntimeBleCharDef) : Client.Characteristic where
  handle := T.handleOf (n + 1)
  cccdHandle := if hasCccd (mapProps c.props) then some (T.handleOf (n + 2)) else none
  uuid := uuidFrom c.uuid
  props := mapProps c.props

/-- The characteristics that are found, from place `n` on. -/
def foundChars : Nat → List RuntimeBleCharDef → List Client.Characteristic
  | _, [] => []
  | n, c :: cs => found T n c :: foundChars (n + charAttributes c) cs

/-- The services that are found, from place `n` on. -/
def foundServices : Nat → List RuntimeBleServiceDef → List PeerService
  | _, [] => []
  | n, s :: services =>
      { handle :=
          { first := T.handleOf n
            last := T.handleOf (n + (serviceAttributes s - 1))
            uuid := uuidFrom s.uuid }
        chars := foundChars T (n + 1) (s.chars.getD []) }
        :: foundServices (n + serviceAttributes s) services

variable {T}

theorem length_foundChars (cs : List RuntimeBleCharDef) :
    ∀ n, (foundChars T n cs).length = cs.length := by
  induction cs with
  | nil => intro n; rfl
  | cons c cs ih => intro n; exact congrArg Nat.succ (ih _)

theorem length_foundServices (services : List RuntimeBleServiceDef) :
    ∀ n, (foundServices T n services).length = services.length := by
  induction services with
  | nil => intro n; rfl
  | cons s services ih => intro n; exact congrArg Nat.succ (ih _)

/-- A service that is found has as many characteristics as it declares. -/
theorem length_chars_of_foundServices {services : List RuntimeBleServiceDef} {p : PeerService} :
    ∀ {n : Nat}, p ∈ foundServices T n services →
      ∃ s ∈ services, p.chars.length = (s.chars.getD []).length := by
  induction services with
  | nil =>
      intro n hp
      cases hp
  | cons s services ih =>
      intro n hp
      rcases List.mem_cons.mp hp with rfl | hp
      · exact ⟨s, List.mem_cons_self, length_foundChars ..⟩
      · obtain ⟨s', hs', hlength⟩ := ih hp
        exact ⟨s', List.mem_cons_of_mem _ hs', hlength⟩

/-- Attributes without a declaration have no characteristic. -/
theorem charsFrom_append_of_plain {l rest : List Attribute} (hl : ∀ a ∈ l, opens a = false) :
    ∀ n, charsFrom T n (l ++ rest) = charsFrom T (n + l.length) rest := by
  induction l with
  | nil => intro n; rfl
  | cons a l ih =>
      intro n
      have hrest := ih (fun a' ha' => hl a' (List.mem_cons_of_mem _ ha')) (n + 1)
      have hplain : charsFrom T n (a :: (l ++ rest)) = charsFrom T (n + 1) (l ++ rest) := by
        have ha := hl a List.mem_cons_self
        cases a with
        | service | declaration => cases ha
        | _ => rfl
      rw [List.cons_append, hplain, hrest, List.length_cons, Nat.add_right_comm, Nat.add_assoc]

/-- Behind its declaration a characteristic has plain attributes. -/
theorem charBlock_plain {c : RuntimeBleCharDef} {read write : Option PermissionLevel} {store : Nat}
    {cccd descs : List Attribute}
    (hcccd : if hasCccd (mapProps c.props) then ∃ level, cccd = [Attribute.cccd level]
      else cccd = [])
    (hdescs : ∀ a ∈ descs, isDescriptor a = true) :
    ∀ a ∈ Attribute.value (uuidFrom c.uuid) read write store :: (cccd ++ descs),
      opens a = false := by
  intro a ha
  rcases List.mem_cons.mp ha with rfl | ha
  · rfl
  rcases List.mem_append.mp ha with ha | ha
  · split at hcccd
    · obtain ⟨level, rfl⟩ := hcccd
      rw [List.mem_singleton.mp ha]
      rfl
    · rw [hcccd] at ha
      cases ha
  · have hdesc := hdescs a ha
    cases a <;> first | rfl | cases hdesc

theorem charsFrom_charBlock {c : RuntimeBleCharDef} {attrs rest : List Attribute}
    (h : CharBlock c attrs) (n : Nat) :
    charsFrom T n (attrs ++ rest) = found T n c :: charsFrom T (n + charAttributes c) rest := by
  have hlength := length_charBlock h
  obtain ⟨read, write, store, cccd, descs, rfl, hcccd, -, hdescs⟩ := h
  rw [List.cons_append, charsFrom, charsFrom_append_of_plain (charBlock_plain hcccd hdescs)]
  congr 1
  · unfold found
    congr 1
    split
    · rename_i hhas
      rw [if_pos hhas] at hcccd
      obtain ⟨level, rfl⟩ := hcccd
      rfl
    · rfl
  · rw [← hlength]
    simp only [List.length_cons]
    rw [Nat.add_right_comm, Nat.add_assoc]

theorem charsFrom_charBlocks {cs : List RuntimeBleCharDef} {blocks : List (List Attribute)}
    (h : List.Forall₂ CharBlock cs blocks) :
    ∀ n, charsFrom T n blocks.flatten = foundChars T n cs := by
  induction h with
  | nil => intro n; rfl
  | cons hblock _ ih =>
      intro n
      rw [List.flatten_cons, charsFrom_charBlock hblock, ih]
      rfl

theorem length_charBlocks {cs : List RuntimeBleCharDef} {blocks : List (List Attribute)}
    (h : List.Forall₂ CharBlock cs blocks) :
    blocks.flatten.length = (cs.map charAttributes).sum := by
  induction h with
  | nil => rfl
  | cons hblock _ ih =>
      rw [List.flatten_cons, List.length_append, length_charBlock hblock, ih]
      rfl

theorem length_serviceBlock {s : RuntimeBleServiceDef} {attrs : List Attribute}
    (h : ServiceBlock s attrs) : attrs.length = serviceAttributes s := by
  obtain ⟨blocks, rfl, hblocks⟩ := h
  rw [List.length_cons, length_charBlocks hblocks, serviceAttributes, Nat.add_comm]

theorem isService_charBlocks {cs : List RuntimeBleCharDef} {blocks : List (List Attribute)}
    (h : List.Forall₂ CharBlock cs blocks) : ∀ a ∈ blocks.flatten, isService a = false := by
  induction h with
  | nil => simp
  | cons hblock _ ih =>
      intro a ha
      rw [List.flatten_cons] at ha
      rcases List.mem_append.mp ha with ha | ha
      · obtain ⟨read, write, store, cccd, descs, rfl, hcccd, -, hdescs⟩ := hblock
        rcases List.mem_cons.mp ha with rfl | ha
        · rfl
        · have hplain := charBlock_plain hcccd hdescs a ha
          cases a <;> first | rfl | cases hplain
      · exact ih a ha

/-- Attributes without a service begin none. -/
theorem servicesFrom_append_of_plain {l rest : List Attribute}
    (hl : ∀ a ∈ l, isService a = false) :
    ∀ n, servicesFrom T n (l ++ rest) = servicesFrom T (n + l.length) rest := by
  induction l with
  | nil => intro n; rfl
  | cons a l ih =>
      intro n
      have hrest := ih (fun a' ha' => hl a' (List.mem_cons_of_mem _ ha')) (n + 1)
      have hplain : servicesFrom T n (a :: (l ++ rest)) = servicesFrom T (n + 1) (l ++ rest) := by
        have ha := hl a List.mem_cons_self
        cases a with
        | service => cases ha
        | _ => rfl
      rw [List.cons_append, hplain, hrest, List.length_cons, Nat.add_right_comm, Nat.add_assoc]

theorem servicesFrom_serviceBlocks {services : List RuntimeBleServiceDef}
    {blocks : List (List Attribute)} (h : List.Forall₂ ServiceBlock services blocks) :
    ∀ n, servicesFrom T n blocks.flatten = foundServices T n services := by
  induction h with
  | nil => intro n; rfl
  | cons hblock hrest ih =>
      intro n
      rename_i s attrs services blocks
      have hlength := length_serviceBlock hblock
      obtain ⟨chars, rfl, hchars⟩ := hblock
      have hplain := isService_charBlocks hchars
      -- the next block, if any, begins with its service
      have hbody : (chars.flatten ++ blocks.flatten).takeWhile (fun a => !isService a)
          = chars.flatten := by
        rw [List.takeWhile_append_of_pos fun a ha => by simp [hplain a ha]]
        have hnext : blocks.flatten.takeWhile (fun a => !isService a) = [] := by
          cases hrest with
          | nil => rfl
          | cons hnext _ =>
              obtain ⟨chars', rfl, -⟩ := hnext
              rfl
        rw [hnext, List.append_nil]
      rw [List.length_cons] at hlength
      rw [List.flatten_cons, List.cons_append, servicesFrom, hbody, charsFrom_charBlocks hchars,
        servicesFrom_append_of_plain hplain, ih, foundServices]
      have hlast : serviceAttributes s - 1 = chars.flatten.length := by omega
      have hplace : n + 1 + chars.flatten.length = n + serviceAttributes s := by omega
      rw [hlast, hplace]

/-- **What a client finds**: in the table of a GATT that is built, the
declared services, each with its characteristics. -/
theorem services_of_buildGatt {b : Build} {cfg : RuntimeCfg} {name : List UInt8} {g : Gatt}
    (h : buildGatt T b cfg name = .ok g) :
    servicesFrom T 0 g.table
      = foundServices T T.gapAttributes (effectiveServices cfg.services) := by
  obtain ⟨blocks, hblocks, htable⟩ := table_of_buildGatt h
  have hgap : ∀ a ∈ List.replicate T.gapAttributes Attribute.gap, isService a = false := by
    intro a ha
    rw [List.eq_of_mem_replicate ha]
    rfl
  rw [htable, servicesFrom_append_of_plain hgap, servicesFrom_serviceBlocks hblocks,
    List.length_replicate, Nat.zero_add]

end Found

/-! ## The same characteristics as the server's -/

section Same

variable {T : Trouble} {b : Build} {g g' : Gatt}

/-- What the server keeps of a characteristic that is found. -/
def kept (c : Client.Characteristic) : Server.Characteristic where
  handle := c.handle
  cccdHandle := c.cccdHandle

theorem kept_found (n : Nat) (c : RuntimeBleCharDef) :
    kept (found T n c) = Placed.record T (c, n) :=
  rfl

theorem foundChars_kept {cs : List RuntimeBleCharDef}
    (h : cs.foldlM (addCharacteristic T b) g = .ok g') :
    g'.table.length = g.table.length + (cs.map charAttributes).sum
      ∧ g'.chars = g.chars ++ (foundChars T g.table.length cs).map kept := by
  induction cs generalizing g with
  | nil =>
      cases h
      exact ⟨rfl, (List.append_nil _).symm⟩
  | cons c cs ih =>
      rw [List.foldlM_cons] at h
      obtain ⟨g₁, hc, hcs⟩ := bind_eq_ok h
      obtain ⟨-, hlength, hchars, -⟩ := addCharacteristic_eq_ok hc
      obtain ⟨hlength', hchars'⟩ := ih hcs
      constructor
      · rw [hlength', hlength, List.map_cons, List.sum_cons, Nat.add_assoc]
      · rw [hchars', hchars, hlength, List.append_assoc]
        rfl

theorem foundServices_kept {services : List RuntimeBleServiceDef}
    (h : services.foldlM (addUserService T b) g = .ok g') :
    g'.chars = g.chars
      ++ ((foundServices T g.table.length services).flatMap (·.chars)).map kept := by
  induction services generalizing g with
  | nil =>
      cases h
      exact (List.append_nil _).symm
  | cons s services ih =>
      rw [List.foldlM_cons] at h
      obtain ⟨g₁, hs, hservices⟩ := bind_eq_ok h
      obtain ⟨g₀, hservice, hchars⟩ := bind_eq_ok hs
      have happends := push_eq_ok hservice
      obtain ⟨hlength, hkept⟩ := foundChars_kept hchars
      have hstart : g₀.table.length = g.table.length + 1 := by
        rw [happends.table, List.length_append, List.length_singleton]
      have hnext : g₁.table.length = g.table.length + serviceAttributes s := by
        rw [hlength, hstart, serviceAttributes, Nat.add_assoc]
      rw [ih hservices, hkept, happends.chars, hnext, hstart, List.append_assoc, ← List.map_append]
      rfl

theorem chars_of_buildGatt {cfg : RuntimeCfg} {name : List UInt8}
    (h : buildGatt T b cfg name = .ok g) :
    g.chars = ((foundServices T T.gapAttributes (effectiveServices cfg.services)).flatMap
      (·.chars)).map kept := by
  obtain ⟨g₁, hgap, hservices⟩ := bind_eq_ok h
  obtain ⟨htable, hnone⟩ := gap_of_gapBuild hgap
  have hstart : g₁.table.length = T.gapAttributes := by rw [htable, List.length_replicate]
  have hnus : addNus T b g₁ = .ok g →
      g.chars = ((foundServices T T.gapAttributes [nusService]).flatMap (·.chars)).map kept := by
    intro hadd
    obtain ⟨g₂, hservice, hadd⟩ := bind_eq_ok hadd
    obtain ⟨g₃, hrx, htx⟩ := bind_eq_ok hadd
    obtain ⟨-, hlength, hchars, -⟩ := addCharacteristic_eq_ok hrx
    obtain ⟨-, -, hchars', -⟩ := addCharacteristic_eq_ok htx
    have happends := push_eq_ok hservice
    have hplace : g₂.table.length = T.gapAttributes + 1 := by
      rw [happends.table, List.length_append, List.length_singleton, hstart]
    rw [hchars', hchars, happends.chars, hnone]
    simp only [hlength, hplace, foundServices, nusService, Option.getD_some, foundChars,
      List.flatMap_cons, List.flatMap_nil, List.append_nil, List.nil_append, List.map_cons,
      List.map_nil, List.cons_append, kept_found]
  unfold addServices at hservices
  cases hcfg : cfg.services with
  | none =>
      rw [hcfg] at hservices
      exact hnus hservices
  | some services =>
      rw [hcfg] at hservices
      cases services with
      | nil => exact hnus hservices
      | cons s rest =>
          have hkept := foundServices_kept hservices
          rwa [hnone, hstart, List.nil_append] at hkept

/-- A characteristic by its handles and its declaration. -/
def described (k : Server.Characteristic) (c : RuntimeBleCharDef) : Client.Characteristic where
  handle := k.handle
  cccdHandle := k.cccdHandle
  uuid := uuidFrom c.uuid
  props := mapProps c.props

theorem foundChars_described (cs : List RuntimeBleCharDef) :
    ∀ n, foundChars T n cs = List.zipWith described ((foundChars T n cs).map kept) cs := by
  induction cs with
  | nil => intro n; rfl
  | cons c cs ih => intro n; exact congrArg (found T n c :: ·) (ih _)

theorem foundServices_described (services : List RuntimeBleServiceDef) :
    ∀ n, (foundServices T n services).flatMap (·.chars)
      = List.zipWith described (((foundServices T n services).flatMap (·.chars)).map kept)
          (declared services) := by
  induction services with
  | nil => intro n; rfl
  | cons s services ih =>
      intro n
      have hlength : ((foundChars T (n + 1) (s.chars.getD [])).map kept).length
          = (s.chars.getD []).length := by
        rw [List.length_map, length_foundChars]
      rw [foundServices, List.flatMap_cons, List.map_append, declared, List.flatMap_cons,
        List.zipWith_append hlength, ← foundChars_described]
      exact congrArg _ (ih _)

/-- The places of the characteristics, over all services. -/
theorem found_of_listed {cfg : RuntimeCfg} {name : List UInt8} {placed : List Placed}
    (h : buildGatt T b cfg name = .ok g) (hlisted : Listed T g placed)
    (hmap : placed.map (·.1) = declared (effectiveServices cfg.services)) :
    (servicesFrom T 0 g.table).flatMap (·.chars) = placed.map fun e => found T e.2 e.1 := by
  rw [services_of_buildGatt h, foundServices_described, ← chars_of_buildGatt h, hlisted.chars,
    ← hmap, List.zipWith_map, List.zipWith_self]
  rfl

end Same

end RuntimeBle.Pair
