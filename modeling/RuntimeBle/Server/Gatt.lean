import Mathlib.Algebra.BigOperators.Group.List.Basic
import Mathlib.Data.Nat.Cast.Basic
import RuntimeBle.Config
import RuntimeBle.Lib.Capacity

/-!
# Server — Gatt

`build_gatt`: the attribute table made from the configuration, with the
handles the event loop looks up and the buffers the session owns.

The table itself is the host crate's. `Trouble` is what is relied on: how
long a device name may be, how many attributes the GAP configuration adds,
and which handle an attribute gets. An attribute that finds the table full
is a panic.
-/

namespace RuntimeBle.Server

open RuntimeBle.Lib

/-! ## The host crate -/

/-- What the host's builder answers: how long a name may be, how many
attributes the GAP service has, and the handle that each place of the table
gets. -/
structure Trouble where
  nameMax : Nat
  gapAttributes : Nat
  handleOf : Nat → UInt16

/-- How building a table may end early: `GapConfig::build` returns an error,
or an attribute is one too many. -/
inductive Fault where
  | nameTooLong
  | tableFull
deriving DecidableEq

/-- The permission levels of trouble-host. -/
inductive PermissionLevel where
  | allowed
  | encryptionRequired
  | authenticationRequired
  | notAllowed
deriving DecidableEq

/-- The levels of the two kinds of access. -/
structure AttPermissions where
  read : PermissionLevel
  write : PermissionLevel
deriving DecidableEq

/-- An entry of the table. A permission that is `none` is the host's own for
the properties; `store` is the number of the value buffer. -/
inductive Attribute where
  | gap
  | service (uuid : List UInt8)
  | declaration (uuid : List UInt8) (props : UInt8)
  | value (uuid : List UInt8) (read write : Option PermissionLevel) (store : Nat)
  | cccd (write : Option PermissionLevel)
  | descriptor (uuid : List UInt8) (permissions : AttPermissions) (store : Nat)
      (init : List UInt8)
  | descriptorRo (uuid : List UInt8) (read : PermissionLevel) (value : List UInt8)
deriving DecidableEq

/-! ## Properties and permissions -/

def cPropRead : UInt16 := 0x01
def cPropWrite : UInt16 := 0x02
def cPropWriteNr : UInt16 := 0x04
def cPropNotify : UInt16 := 0x08
def cPropIndicate : UInt16 := 0x10
def cPermReadEncrypt : UInt16 := 0x01
def cPermReadAuth : UInt16 := 0x02
def cPermWriteEncrypt : UInt16 := 0x04
def cPermWriteAuth : UInt16 := 0x08
def cPermCccdEncrypt : UInt16 := 0x10
def cPermCccdAuth : UInt16 := 0x20
def cPermWriteAllowed : UInt16 := 0x40

/-- `map_props`: the bits of the header as the bits of the specification. -/
def mapProps (props : UInt16) : UInt8 :=
  (if props &&& cPropRead != 0 then 0x02 else 0) |||
  (if props &&& cPropWriteNr != 0 then 0x04 else 0) |||
  (if props &&& cPropWrite != 0 then 0x08 else 0) |||
  (if props &&& cPropNotify != 0 then 0x10 else 0) |||
  (if props &&& cPropIndicate != 0 then 0x20 else 0)

/-- `map_permission`: authentication goes before encryption. -/
def mapPermission (mask encryptBit authBit : UInt16) : Option PermissionLevel :=
  if mask &&& authBit != 0 then some .authenticationRequired
  else if mask &&& encryptBit != 0 then some .encryptionRequired
  else none

/-- `descriptor_permissions`: a descriptor can be read unless the mask says
more, and written only if it does. -/
def descriptorPermissions (mask : UInt16) : AttPermissions where
  read := (mapPermission mask cPermReadEncrypt cPermReadAuth).getD .allowed
  write :=
    if mask &&& cPermWriteAllowed != 0 then .allowed
    else (mapPermission mask cPermWriteEncrypt cPermWriteAuth).getD .notAllowed

/-- `descriptor_is_writable`: the mask allows some kind of write. -/
def descriptorIsWritable (mask : UInt16) : Bool :=
  mask &&& (cPermWriteAllowed ||| cPermWriteEncrypt ||| cPermWriteAuth) != 0

/-- `uuid_from`: the little-endian bytes, the short UUID 0 for any other
length. -/
def uuidFrom (uuid : Option (List UInt8)) : List UInt8 :=
  match uuid with
  | some u => if u.length = 2 ∨ u.length = 16 then u else [0, 0]
  | none => [0, 0]

/-! ## The GATT -/

/-- What `build_gatt` keeps of a characteristic. -/
structure Characteristic where
  handle : UInt16
  cccdHandle : Option UInt16
deriving DecidableEq

/-- `DescMeta`: whose descriptor a handle is. -/
structure DescMeta where
  handle : UInt16
  chr : UInt16
  desc : UInt8
deriving DecidableEq

/-- `usize::MAX`, for the NUS indices of a user-defined GATT. -/
def noIndex : Nat := 0xffffffff

/-- What `build_gatt` returns, and fills on the way; `stores` counts the
value buffers on the heap. -/
structure Gatt where
  table : List Attribute
  chars : List Characteristic := []
  props : List UInt16 := []
  descriptors : List DescMeta := []
  nusRx : Nat := noIndex
  nusTx : Nat := noIndex
  stores : Nat := 0
  appearanceStore : Bool
deriving DecidableEq

section

variable (T : Trouble) (b : Build)

/-- The table with one more attribute. -/
def Gatt.push (g : Gatt) (a : Attribute) : Except Fault Gatt :=
  if g.table.length < b.attMax then .ok { g with table := g.table ++ [a] } else .error .tableFull

/-- `GapConfig::Peripheral(..).build`, on an empty table. -/
def gapBuild (name : List UInt8) (appearanceStore : Bool) : Except Fault Gatt :=
  if name.length > T.nameMax then .error .nameTooLong
  else
    (List.replicate T.gapAttributes Attribute.gap).foldlM (Gatt.push b)
      { table := [], appearanceStore }

/-- A service declaration. -/
def addService (g : Gatt) (uuid : List UInt8) : Except Fault Gatt := g.push b (.service uuid)

/-- The attribute of a descriptor: one that a peer can write gets a value
buffer, and of its value what fits there. -/
def pushDescriptor (g : Gatt) (d : RuntimeBleDescDef) : Except Fault Gatt :=
  let value := d.value.getD []
  let permissions := descriptorPermissions d.permissions
  if descriptorIsWritable d.permissions then
    ({ g with stores := g.stores + 1 }).push b
      (.descriptor (uuidFrom d.uuid) permissions g.stores (value.take b.valueLen))
  else g.push b (.descriptorRo (uuidFrom d.uuid) permissions.read value)

/-- Descriptor `d` of the characteristic with flat index `chr`. -/
def addDescriptor (chr : Nat) (g : Gatt) (d : RuntimeBleDescDef × Nat) : Except Fault Gatt := do
  let handle := T.handleOf g.table.length
  let g ← pushDescriptor b g d.1
  pure { g with
    descriptors := g.descriptors ++
      [{ handle, chr := UInt16.ofNat chr, desc := UInt8.ofNat (min d.2 0xff) }] }

/-- The host adds a CCCD to what notifies or indicates. -/
def hasCccd (bleProps : UInt8) : Bool := bleProps &&& 0x30 != 0

/-- A CCCD, where the characteristic notifies or indicates. -/
def pushCccd (g : Gatt) (c : RuntimeBleCharDef) : Except Fault Gatt :=
  if hasCccd (mapProps c.props) then
    g.push b (.cccd (mapPermission c.permissions cPermCccdEncrypt cPermCccdAuth))
  else pure g

/-- `add_characteristic` up to `build`: declaration, value, CCCD, and the
descriptors. -/
def addCharacteristic (g : Gatt) (c : RuntimeBleCharDef) : Except Fault Gatt := do
  let index := g.chars.length
  let first := g.table.length
  let g ← g.push b (.declaration (uuidFrom c.uuid) (mapProps c.props))
  let g ← ({ g with stores := g.stores + 1 }).push b
    (.value (uuidFrom c.uuid) (mapPermission c.permissions cPermReadEncrypt cPermReadAuth)
      (mapPermission c.permissions cPermWriteEncrypt cPermWriteAuth) g.stores)
  let g ← pushCccd b g c
  let g ← (c.descriptors.getD []).zipIdx.foldlM (addDescriptor T b index) g
  pure { g with
    chars := g.chars ++
      [{ handle := T.handleOf (first + 1)
         cccdHandle :=
           if hasCccd (mapProps c.props) then some (T.handleOf (first + 2)) else none }]
    props := g.props ++ [c.props] }

/-- One entry of `config.services`. -/
def addUserService (g : Gatt) (s : RuntimeBleServiceDef) : Except Fault Gatt := do
  let g ← addService b g (uuidFrom s.uuid)
  (s.chars.getD []).foldlM (addCharacteristic T b) g

/-- `NUS_SVC`, little endian. -/
def nusSvc : List UInt8 :=
  [0x9e, 0xca, 0xdc, 0x24, 0x0e, 0xe5, 0xa9, 0xe0, 0x93, 0xf3, 0xa3, 0xb5, 0x01, 0x00, 0x40, 0x6e]

/-- `NUS_RX`. -/
def nusRxUuid : List UInt8 :=
  [0x9e, 0xca, 0xdc, 0x24, 0x0e, 0xe5, 0xa9, 0xe0, 0x93, 0xf3, 0xa3, 0xb5, 0x02, 0x00, 0x40, 0x6e]

/-- `NUS_TX`. -/
def nusTxUuid : List UInt8 :=
  [0x9e, 0xca, 0xdc, 0x24, 0x0e, 0xe5, 0xa9, 0xe0, 0x93, 0xf3, 0xa3, 0xb5, 0x03, 0x00, 0x40, 0x6e]

/-- The two characteristics of the service, as a configuration would declare
them. -/
def nusRxDef : RuntimeBleCharDef :=
  { uuid := some nusRxUuid, props := cPropWrite ||| cPropWriteNr }
def nusTxDef : RuntimeBleCharDef := { uuid := some nusTxUuid, props := cPropNotify }

-- the properties `build_gatt` writes out for the two
example : mapProps nusRxDef.props = 0x04 ||| 0x08 ∧ mapProps nusTxDef.props = 0x10 := by decide

/-- The built-in Nordic UART Service. -/
def addNus (g : Gatt) : Except Fault Gatt := do
  let g ← addService b g nusSvc
  let g ← addCharacteristic T b { g with nusRx := g.chars.length } nusRxDef
  addCharacteristic T b { g with nusTx := g.chars.length } nusTxDef

/-- The services of the configuration, or the built-in one if there are none. -/
def addServices (services : Option (List RuntimeBleServiceDef)) (g : Gatt) : Except Fault Gatt :=
  match services with
  | none | some [] => addNus T b g
  | some services => services.foldlM (addUserService T b) g

/-- `build_gatt`: the GAP service and those behind it. -/
def buildGatt (cfg : RuntimeCfg) (name : List UInt8) : Except Fault Gatt := do
  let g ← gapBuild T b name (cfg.appearance != 0)
  addServices T b cfg.services g

end

/-! ## How many attributes -/

/-- The attributes of a characteristic: its declaration, value, CCCD and
descriptors. -/
def charAttributes (c : RuntimeBleCharDef) : Nat :=
  1 + (1 + ((if hasCccd (mapProps c.props) then 1 else 0) + (c.descriptors.getD []).length))

/-- The attributes of a service, its declaration included. -/
def serviceAttributes (s : RuntimeBleServiceDef) : Nat :=
  1 + ((s.chars.getD []).map charAttributes).sum

/-- The attributes beside those of the GAP configuration. -/
def userAttributes (services : Option (List RuntimeBleServiceDef)) : Nat :=
  match services with
  | none | some [] => 1 + (charAttributes nusRxDef + charAttributes nusTxDef)
  | some services => (services.map serviceAttributes).sum

variable {T : Trouble} {b : Build}

/-- The table as a store that fills up. -/
def attributeTable (b : Build) : Capacity Gatt Fault where
  size g := g.table.length
  cap := b.attMax
  full := .tableFull

theorem fills_push (f : Gatt → Gatt) (a : Gatt → Attribute) (hf : ∀ g, (f g).table = g.table) :
    (attributeTable b).Fills 1 fun g => (f g).push b (a g) := by
  intro g _
  show if g.table.length + 1 ≤ b.attMax then _ else _
  have hpush : (f g).push b (a g)
      = if g.table.length < b.attMax then .ok { f g with table := g.table ++ [a g] }
        else .error .tableFull := by
    rw [Gatt.push, hf]
  split
  · rename_i hfit
    refine ⟨_, hpush.trans (if_pos hfit), ?_⟩
    show (g.table ++ [a g]).length = g.table.length + 1
    simp
  · rename_i hfull
    exact hpush.trans (if_neg hfull)

theorem fills_addService (uuid : List UInt8) :
    (attributeTable b).Fills 1 fun g => addService b g uuid :=
  fills_push id (fun _ => .service uuid) fun _ => rfl

theorem fills_pushDescriptor (d : RuntimeBleDescDef) :
    (attributeTable b).Fills 1 fun g => pushDescriptor b g d := by
  unfold pushDescriptor
  by_cases hw : descriptorIsWritable d.permissions = true
  · simp only [hw, ↓reduceIte]
    exact fills_push (fun g => { g with stores := g.stores + 1 }) _ fun _ => rfl
  · simp only [hw, Bool.false_eq_true, ↓reduceIte]
    exact fills_push id _ fun _ => rfl

theorem fills_addDescriptor (chr : Nat) (d : RuntimeBleDescDef × Nat) :
    (attributeTable b).Fills 1 fun g => addDescriptor T b chr g d := by
  refine (fills_pushDescriptor d.1).bind fun _ => Capacity.fills_pure ?_
  intro _
  rfl

theorem fills_pushCccd (c : RuntimeBleCharDef) :
    (attributeTable b).Fills (if hasCccd (mapProps c.props) then 1 else 0)
      fun g => pushCccd b g c := by
  unfold pushCccd
  by_cases hc : hasCccd (mapProps c.props) = true
  · simp only [hc, ↓reduceIte]
    exact fills_push id _ fun _ => rfl
  · simp only [hc, Bool.false_eq_true, ↓reduceIte]
    exact Capacity.fills_pure fun _ => rfl

theorem fills_addCharacteristic (c : RuntimeBleCharDef) :
    (attributeTable b).Fills (charAttributes c) fun g => addCharacteristic T b g c := by
  have hdescriptors : ∀ index, (attributeTable b).Fills (c.descriptors.getD []).length
      fun g => (c.descriptors.getD []).zipIdx.foldlM (addDescriptor T b index) g := by
    intro index
    refine (Capacity.Fills.foldlM (n := fun _ => 1)
      (fun d => fills_addDescriptor (T := T) index d) _).congr ?_
    simp
  refine (fills_push id _ fun _ => rfl).bind fun g => ?_
  refine (fills_push (fun g => { g with stores := g.stores + 1 }) _ fun _ => rfl).bind fun _ => ?_
  refine (fills_pushCccd c).bind fun _ => ?_
  refine (hdescriptors _).bind fun _ => Capacity.fills_pure ?_
  intro _
  rfl

theorem fills_addUserService (s : RuntimeBleServiceDef) :
    (attributeTable b).Fills (serviceAttributes s) fun g => addUserService T b g s :=
  (fills_addService _).bind fun _ => Capacity.Fills.foldlM fills_addCharacteristic _

theorem fills_addNus :
    (attributeTable b).Fills (1 + (charAttributes nusRxDef + charAttributes nusTxDef))
      fun g => addNus T b g := by
  refine (fills_addService _).bind fun _ => ?_
  refine ((fills_addCharacteristic nusRxDef).comp
    (fun g => { g with nusRx := g.chars.length }) fun _ => rfl).bind fun _ => ?_
  exact (fills_addCharacteristic nusTxDef).comp
    (fun g => { g with nusTx := g.chars.length }) fun _ => rfl

theorem fills_addServices (services : Option (List RuntimeBleServiceDef)) :
    (attributeTable b).Fills (userAttributes services) (addServices T b services) := by
  cases services with
  | none => exact fills_addNus
  | some services =>
      cases services with
      | nil => exact fills_addNus
      | cons s rest => exact Capacity.Fills.foldlM fills_addUserService (s :: rest)

theorem fills_gap : (attributeTable b).Fills T.gapAttributes fun g =>
    (List.replicate T.gapAttributes Attribute.gap).foldlM (Gatt.push b) g := by
  refine (Capacity.Fills.foldlM (n := fun _ => 1)
    (fun a => fills_push id (fun _ => a) fun _ => rfl) _).congr ?_
  simp

/-- How `build_gatt` ends: an error for a name that is too long, a panic for
more attributes than the table holds, else a GATT. -/
theorem buildGatt_eq (cfg : RuntimeCfg) (name : List UInt8) :
    if name.length > T.nameMax then buildGatt T b cfg name = .error .nameTooLong
    else if T.gapAttributes + userAttributes cfg.services ≤ b.attMax then
      ∃ g, buildGatt T b cfg name = .ok g
    else buildGatt T b cfg name = .error .tableFull := by
  have hfills := (fills_gap (T := T) (b := b)).bind fun _ => fills_addServices (T := T) cfg.services
  split
  · rename_i hlong
    simp only [buildGatt, gapBuild, hlong, ↓reduceIte]
    rfl
  · rename_i hname
    simp only [buildGatt, gapBuild, hname, ↓reduceIte]
    split
    · rename_i hfit
      obtain ⟨g, hg, -⟩ := hfills.ok
        (s := { table := [], appearanceStore := cfg.appearance != 0 })
        (show 0 + _ ≤ b.attMax by omega)
      exact ⟨g, hg⟩
    · rename_i hfull
      exact hfills.error (Nat.zero_le _) (show ¬ 0 + _ ≤ b.attMax by omega)

end RuntimeBle.Server
