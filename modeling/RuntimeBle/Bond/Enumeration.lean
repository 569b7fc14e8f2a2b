import Mathlib.Data.List.Forall2
import RuntimeBle.Adv.Parts
import RuntimeBle.Bond.Agreement

/-!
# Bond — Enumeration

`BCMD_ENUMERATE`: the bonds of the host's table as `on_bond` has them, and
what becomes of their addresses when the application connects to one.

The host has 0 for public and 1 for random addresses, the C API the other
way round. `emit_bonds` hands out the host's number.
-/

namespace RuntimeBle.Bond

open RuntimeBle.Adv

variable {K : Type} [DecidableEq K]

/-- A call of `on_bond`. -/
structure OnBond where
  index : Nat
  addr : Bytes 6
  addrKind : UInt8
  level : UInt8
  keyLen : UInt8
  flags : UInt8
deriving DecidableEq

/-- The arguments of `on_bond` for an entry. -/
def onBondOf (slots : SlotMap K) (bond : BondInformation K) : OnBond where
  index := bondSlotFor slots bond.identity
  addr := bond.identity.addr.addr
  addrKind := bond.identity.addr.kind
  level := securityLevelToC bond.securityLevel
  keyLen := bond.encryptionKeyLen
  flags := if bond.isBonded then 1 else 0

/-- `emit_bonds`: a call for each entry of the host's table. -/
def emitBonds (cfg : RuntimeCfg) (host : List (BondInformation K)) (slots : SlotMap K) :
    List OnBond :=
  if cfg.callbacks.onBond then host.map (onBondOf slots) else []

/-- The address that a kind of the header stands for. -/
def peerAddress (addr : Bytes 6) (kind : UInt8) : Address := { kind := cAddrKind kind, addr }

/-! ## The property -/

/-- The slot that the map has for an identity, or 0xff. -/
def IsSlotOf (slots : SlotMap K) (identity : Identity K) (index : Nat) : Prop :=
  (identity, index) ∈ slots ∨ index = 0xff ∧ ∀ e ∈ slots, e.1 ≠ identity

/-- The call has the slot of the bond, and an address that leads back to it. -/
structure FeedsBack (slots : SlotMap K) (bond : BondInformation K) (call : OnBond) : Prop where
  slot : IsSlotOf slots bond.identity call.index
  address : peerAddress call.addr call.addrKind = bond.identity.addr

/-- What is right about a call: all but the kind of the address, which is
the host's. -/
structure Describes (slots : SlotMap K) (bond : BondInformation K) (call : OnBond) : Prop where
  slot : IsSlotOf slots bond.identity call.index
  addr : call.addr = bond.identity.addr.addr
  kind : call.addrKind = bond.identity.addr.kind

section Calls

variable {slots : SlotMap K} {bond : BondInformation K} {identity : Identity K}

theorem isSlotOf_bondSlotFor : IsSlotOf slots identity (bondSlotFor slots identity) := by
  unfold bondSlotFor
  cases hfind : slots.find? fun e => e.1 = identity with
  | none =>
      refine .inr ⟨rfl, fun e he => ?_⟩
      simpa using List.find?_eq_none.mp hfind e he
  | some e =>
      have hname : e.1 = identity := by simpa using List.find?_some hfind
      refine .inl ?_
      rw [← hname]
      exact List.mem_of_find?_eq_some hfind

/-- No kind of the host's is read as itself. -/
theorem cAddrKind_ne (kind : UInt8) : cAddrKind kind ≠ kind := by
  unfold cAddrKind
  split
  · rename_i hpublic
    rw [hpublic]
    decide
  · rename_i hother
    exact fun h => hother h.symm

theorem describes_onBondOf : Describes slots bond (onBondOf slots bond) :=
  ⟨isSlotOf_bondSlotFor, rfl, rfl⟩

theorem not_feedsBack_onBondOf : ¬ FeedsBack slots bond (onBondOf slots bond) := by
  intro h
  exact cAddrKind_ne _ (congrArg Address.kind h.address)

end Calls

/-- **Enumerated bonds can be fed back** when there are none to enumerate.
Where the application listens, each bond has its call, in the order of the
table, with its slot and the six bytes of its address. -/
theorem enumeration_feeds_back_iff (cfg : RuntimeCfg) (host : List (BondInformation K))
    (slots : SlotMap K) :
    (List.Forall₂ (FeedsBack slots) host (emitBonds cfg host slots) ↔ host = [])
    ∧ (cfg.callbacks.onBond = true →
        List.Forall₂ (Describes slots) host (emitBonds cfg host slots)) := by
  constructor
  · constructor
    · intro h
      cases host with
      | nil => rfl
      | cons bond host =>
          unfold emitBonds at h
          split at h
          · cases h with
            | cons hbond _ => exact absurd hbond not_feedsBack_onBondOf
          · cases h
    · rintro rfl
      rw [emitBonds, List.map_nil, ite_self]
      exact .nil
  · intro hset
    rw [emitBonds, if_pos hset, List.forall₂_map_right_iff, List.forall₂_same]
    exact fun _ _ => describes_onBondOf

/-! ## A bond enumerated -/

/-- A bond with an address of the given HCI kind. -/
def enumeratedBond (kind : UInt8) : BondInformation IdentityKey where
  ltk := Vector.replicate 16 0x11
  identity := { addr := { kind, addr := #v[1, 2, 3, 4, 5, 0xc6] }, irk := none }
  isBonded := true
  securityLevel := .encrypted
  ediv := 0
  rand := Vector.replicate 8 0
  encryptionKeyLen := 16

/-- The address that connecting to the enumerated bond leads to. -/
def enumeratedAddresses (kind : UInt8) : List Address :=
  (emitBonds { callbacks := { onBond := true } } [enumeratedBond kind]
    [((enumeratedBond kind).identity, 0)]).map fun call => peerAddress call.addr call.addrKind

/-- A public address comes back as a random one, and a random as a public. -/
theorem enumeration_changes_kind :
    enumeratedAddresses 0 = [{ kind := 1, addr := #v[1, 2, 3, 4, 5, 0xc6] }]
    ∧ enumeratedAddresses 1 = [{ kind := 0, addr := #v[1, 2, 3, 4, 5, 0xc6] }]
    ∧ ∀ kind ∈ [0, 1], ¬ List.Forall₂ (FeedsBack [((enumeratedBond kind).identity, 0)])
        [enumeratedBond kind]
        (emitBonds { callbacks := { onBond := true } } [enumeratedBond kind]
          [((enumeratedBond kind).identity, 0)]) := by
  refine ⟨rfl, rfl, fun kind _ h => ?_⟩
  cases h with
  | cons hbond _ => exact not_feedsBack_onBondOf hbond

end RuntimeBle.Bond
