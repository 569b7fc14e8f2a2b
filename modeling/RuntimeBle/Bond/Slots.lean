import Mathlib.Logic.Function.Basic
import RuntimeBle.Bond.Blob
import RuntimeBle.Lib.Assoc

/-!
# Bond — Slots

The map from bonded identities to the application's storage slots, and
the three places that change it: `restoreBonds` when a session starts,
`storeBond` after a pairing, `deleteBondSlot` on request.

The application's storage is part of the state: `on_bond_load` and
`on_bond_store` read and write it. The host's bond table is a table whose
insert succeeds, and whose remove succeeds for an identity it holds.
-/

namespace RuntimeBle.Bond

open RuntimeBle.Lib

variable {K : Type}

def bondSlotCap : Nat := 4

/-- `bond_slot_count`: a 0 stands for all there are. -/
def bondSlotCount (cfg : RuntimeCfg) : Nat :=
  let n := if cfg.bondSlotCount = 0 then bondSlotCap else cfg.bondSlotCount.toNat
  min n bondSlotCap

theorem bondSlotCount_le_cap (cfg : RuntimeCfg) : bondSlotCount cfg ≤ bondSlotCap :=
  Nat.min_le_right ..

theorem bondSlotCount_pos (cfg : RuntimeCfg) : 0 < bondSlotCount cfg := by
  simp only [bondSlotCount, bondSlotCap]
  split
  · decide
  · rename_i h
    have : cfg.bondSlotCount.toNat ≠ 0 := fun h0 => h (UInt8.toNat_inj.mp h0)
    omega

/-! ## State -/

/-- `heapless::Vec<(Identity, u8), BOND_SLOT_CAP>`. -/
abbrev SlotMap (K : Type) := List (Identity K × Nat)

/-- The bonds of a session: the slot map, the host's table, what the
application has in its slots, and the `on_bond_deleted` calls made. -/
structure BondState (K : Type) where
  slots : SlotMap K
  host : List (BondInformation K)
  storage : Nat → List UInt8
  deleted : List (Nat × Int)

/-- A session before its bonds are restored. -/
def BondState.boot (storage : Nat → List UInt8) : BondState K :=
  { slots := [], host := [], storage, deleted := [] }

@[simp] theorem BondState.boot_slots {storage : Nat → List UInt8} :
    (BondState.boot storage : BondState K).slots = [] := rfl

/-- `heapless::Vec::push`: without effect on a full vector. -/
def pushSlot (map : SlotMap K) (entry : Identity K × Nat) : SlotMap K :=
  if map.length < bondSlotCap then map ++ [entry] else map

theorem pushSlot_of_room {cfg : RuntimeCfg} {map : SlotMap K} {entry : Identity K × Nat}
    (h : map.length < bondSlotCount cfg) : pushSlot map entry = map ++ [entry] :=
  if_pos (Nat.lt_of_lt_of_le h (bondSlotCount_le_cap cfg))

/-! ## The application's callbacks -/

/-- `on_bond_load`: at most `BOND_BLOB_LEN` bytes of the slot. -/
def onBondLoad (storage : Nat → List UInt8) (index : Nat) : List UInt8 :=
  (storage index).take bondBlobLen

/-- The bond a slot decodes to. -/
def persistedBond [HostKeys K] (storage : Nat → List UInt8) (index : Nat) :
    Option (BondInformation K) :=
  deserializeBond (onBondLoad storage index)

theorem persistedBond_update_self [HostKeys K] {storage : Nat → List UInt8} {i : Nat}
    {bond : BondInformation K} :
    persistedBond (Function.update storage i (serializeBond bond)) i = some bond := by
  have hlen : (serializeBond bond).length ≤ bondBlobLen := by simp
  simp only [persistedBond, onBondLoad, Function.update_self, List.take_of_length_le hlen]
  exact deserializeBond_serializeBond bond

theorem persistedBond_update_of_ne [HostKeys K] {storage : Nat → List UInt8} {i j : Nat}
    {blob : List UInt8} (h : j ≠ i) :
    (persistedBond (Function.update storage i blob) j : Option (BondInformation K))
      = persistedBond storage j := by
  simp only [persistedBond, onBondLoad, Function.update_of_ne h]

/-- `complete_bond_delete`: the outcome is told, if it can be. -/
def completeBondDelete (cfg : RuntimeCfg) (index : Nat) (ok : Bool) (s : BondState K) :
    BondState K :=
  if cfg.callbacks.onBondDeleted then
    { s with deleted := s.deleted ++ [(index, if ok then 0 else -1)] }
  else s

/-- `clear_bond_slot`: `on_bond_store` with no data. -/
def clearBondSlot (cfg : RuntimeCfg) (index : Nat) (s : BondState K) : BondState K :=
  if cfg.callbacks.onBondStore then
    { s with storage := Function.update s.storage index [] }
  else s

@[simp] theorem completeBondDelete_slots {cfg : RuntimeCfg} {index : Nat} {ok : Bool}
    {s : BondState K} : (completeBondDelete cfg index ok s).slots = s.slots := by
  unfold completeBondDelete
  split <;> rfl

@[simp] theorem completeBondDelete_host {cfg : RuntimeCfg} {index : Nat} {ok : Bool}
    {s : BondState K} : (completeBondDelete cfg index ok s).host = s.host := by
  unfold completeBondDelete
  split <;> rfl

@[simp] theorem completeBondDelete_storage {cfg : RuntimeCfg} {index : Nat} {ok : Bool}
    {s : BondState K} : (completeBondDelete cfg index ok s).storage = s.storage := by
  unfold completeBondDelete
  split <;> rfl

@[simp] theorem clearBondSlot_slots {cfg : RuntimeCfg} {index : Nat} {s : BondState K} :
    (clearBondSlot cfg index s).slots = s.slots := by
  unfold clearBondSlot
  split <;> rfl

@[simp] theorem clearBondSlot_host {cfg : RuntimeCfg} {index : Nat} {s : BondState K} :
    (clearBondSlot cfg index s).host = s.host := by
  unfold clearBondSlot
  split <;> rfl

theorem clearBondSlot_storage {cfg : RuntimeCfg} {index : Nat} {s : BondState K} :
    (clearBondSlot cfg index s).storage
      = if cfg.callbacks.onBondStore then Function.update s.storage index [] else s.storage := by
  unfold clearBondSlot
  split <;> rfl

/-! ## The host's table -/

variable [DecidableEq K]

/-- `add_bond_information` of the host: one entry for an identity. -/
def addBondInformation (host : List (BondInformation K)) (bond : BondInformation K) :
    List (BondInformation K) :=
  bond :: host.filter fun b => b.identity ≠ bond.identity

/-- `remove_bond_information` of the host: it fails where there is none. -/
def removeBondInformation (host : List (BondInformation K)) (identity : Identity K) :
    Option (List (BondInformation K)) :=
  if host.any fun b => b.identity = identity then
    some (host.filter fun b => b.identity ≠ identity)
  else none

/-- A remove succeeds for an identity of the table, and keeps the others. -/
theorem removeBondInformation_eq_some {host : List (BondInformation K)} {identity : Identity K}
    (h : ∃ b ∈ host, b.identity = identity) :
    removeBondInformation host identity = some (host.filter fun b => b.identity ≠ identity) := by
  obtain ⟨b, hb, hid⟩ := h
  exact if_pos (List.any_eq_true.mpr ⟨b, hb, by simpa using hid⟩)

theorem exists_mem_addBondInformation {host : List (BondInformation K)}
    {bond : BondInformation K} {identity : Identity K}
    (h : bond.identity = identity ∨ ∃ b ∈ host, b.identity = identity) :
    ∃ b ∈ addBondInformation host bond, b.identity = identity := by
  by_cases hb : bond.identity = identity
  · exact ⟨bond, List.mem_cons_self, hb⟩
  · obtain ⟨b, hmem, rfl⟩ := h.resolve_left hb
    refine ⟨b, List.mem_cons_of_mem _ (List.mem_filter.mpr ⟨hmem, ?_⟩), rfl⟩
    simpa using fun heq => hb heq.symm

/-! ## Choosing a slot -/

/-- The map update of `store_bond`: the slot the bond goes to, and the map
with it. -/
def placeBond (cfg : RuntimeCfg) (map : SlotMap K) (identity : Identity K) :
    Nat × SlotMap K :=
  match map.find? fun e => e.1 = identity with
  | some (_, existing) => (existing, map)
  | none =>
      if map.length < bondSlotCount cfg then
        (map.length, pushSlot map (identity, map.length))
      else
        match map with
        | [] => (0, [])
        | _ :: rest => (0, (identity, 0) :: rest)

section Place

variable {cfg : RuntimeCfg} {map : SlotMap K} {identity : Identity K}

/-- A known identity keeps its slot. -/
theorem placeBond_known {slot : Nat} (hnd : (map.map (·.1)).Nodup)
    (h : (identity, slot) ∈ map) : placeBond cfg map identity = (slot, map) := by
  unfold placeBond
  rw [find?_fst_of_mem hnd h]

/-- A new identity goes to the slot numbered by the length of the map. -/
theorem placeBond_new (hnew : ∀ e ∈ map, e.1 ≠ identity)
    (hroom : map.length < bondSlotCount cfg) :
    placeBond cfg map identity = (map.length, map ++ [(identity, map.length)]) := by
  unfold placeBond
  rw [find?_eq_none_of_forall hnew]
  simp only [if_pos hroom, pushSlot_of_room hroom]

/-- On a full map it takes the place of the first entry, under slot 0. -/
theorem placeBond_full {e : Identity K × Nat} {rest : SlotMap K}
    (hnew : ∀ e' ∈ e :: rest, e'.1 ≠ identity)
    (hfull : bondSlotCount cfg ≤ (e :: rest).length) :
    placeBond cfg (e :: rest) identity = (0, (identity, 0) :: rest) := by
  unfold placeBond
  rw [find?_eq_none_of_forall hnew]
  simp only [if_neg (Nat.not_lt.mpr hfull)]

end Place

/-! ## Operations -/

variable [HostKeys K]

/-- One round of the loop of `restore_bonds`. -/
def restoreSlot (s : BondState K) (index : Nat) : BondState K :=
  match persistedBond s.storage index with
  | none => s
  | some bond =>
      { s with
        host := addBondInformation s.host bond
        slots := pushSlot s.slots (bond.identity, index) }

/-- `restore_bonds`. An empty slot (`len == 0`) decodes to no bond. -/
def restoreBonds (cfg : RuntimeCfg) (s : BondState K) : BondState K :=
  if cfg.callbacks.onBondLoad then
    (List.range (bondSlotCount cfg)).foldl restoreSlot s
  else s

/-- `store_bond`: the bond gets a slot, and the application its blob. -/
def storeBond (cfg : RuntimeCfg) (s : BondState K) (bond : BondInformation K) :
    BondState K :=
  if !cfg.callbacks.onBondStore then s
  else if bondSlotCount cfg = 0 then s
  else
    let (slot, slots) := placeBond cfg s.slots bond.identity
    { s with slots, storage := Function.update s.storage slot (serializeBond bond) }

/-- `delete_bond_slot`: in the host's table, in the map and in the storage. -/
def deleteBondSlot (cfg : RuntimeCfg) (s : BondState K) (index : Nat) : BondState K :=
  match s.slots.find? fun e => e.2 = index with
  | none => completeBondDelete cfg index false (clearBondSlot cfg index s)
  | some (identity, _) =>
      match removeBondInformation s.host identity with
      | none => completeBondDelete cfg index false s
      | some host =>
          completeBondDelete cfg index true <| clearBondSlot cfg index
            { s with host, slots := s.slots.filter fun e => e.2 ≠ index }

/-- What changes the bonds of a running session: a `PairingComplete` or
`Encrypted` event that carries a bond (the host has put it in its table),
`BCMD_DELETE` and `BCMD_DELETE_ALL`. -/
inductive BondOp (K : Type) where
  | paired (bond : BondInformation K)
  | delete (index : UInt8)
  | deleteAll

/-- A bond made, or a command of the application. -/
def bondStep (cfg : RuntimeCfg) (s : BondState K) : BondOp K → BondState K
  | .paired bond => storeBond cfg { s with host := addBondInformation s.host bond } bond
  | .delete index => deleteBondSlot cfg s index.toNat
  | .deleteAll => (List.range (bondSlotCount cfg)).foldl (deleteBondSlot cfg) s

end RuntimeBle.Bond
