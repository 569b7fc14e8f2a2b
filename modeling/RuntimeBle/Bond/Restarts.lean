import Mathlib.Data.List.Perm.Basic
import RuntimeBle.Bond.Agreement

/-!
# Bond — Restarts

A device lives through any number of sessions. What a session knows of its
bonds, the slot map and the host's table, is gone when it is unloaded; the
next one has what `restoreBonds` finds in the application's storage.

`Wallet` is what the storage is for: slots with a bond or none. Pairing puts
a bond into the wallet, deleting takes one out, and a restart does nothing
to it. `bonds_survive_restarts` says that the tables of every session follow
the wallet, wherever the restarts fall.

The application has its bond callbacks set and keeps what it is given, the
host's table takes each bond that is put to it, and the first session finds
no identity in two slots.
-/

namespace RuntimeBle.Bond

open RuntimeBle.Lib

variable {K : Type}

/-! ## The wallet -/

/-- The bond of each slot. -/
abbrev Wallet (K : Type) := Nat → Option (BondInformation K)

namespace Wallet

variable [DecidableEq K]

/-- The bond of the slot is of the identity. -/
def holds (w : Wallet K) (identity : Identity K) (i : Nat) : Bool :=
  (w i).any fun b => b.identity = identity

/-- How many of the first `n` slots are taken. -/
def used (n : Nat) (w : Wallet K) : Nat := (List.range n).countP fun i => (w i).isSome

/-- The slot a bond goes to: its own one; else the one numbered by how many
are taken; slot 0 if all are. -/
def slotFor (n : Nat) (w : Wallet K) (identity : Identity K) : Nat :=
  match (List.range n).find? (w.holds identity) with
  | some i => i
  | none => if w.used n < n then w.used n else 0

/-- What an operation does to a wallet of `n` slots. -/
def step (n : Nat) (w : Wallet K) : BondOp K → Wallet K
  | .paired bond => Function.update w (w.slotFor n bond.identity) (some bond)
  | .delete index => Function.update w index.toNat none
  | .deleteAll => fun _ => none

/-- A bond that is new, and has room, goes to a slot that is not taken. -/
def Free (n : Nat) (w : Wallet K) : BondOp K → Prop
  | .paired bond =>
      (∀ i < n, w.holds bond.identity i = false) → w.used n < n → w (w.used n) = none
  | .delete _ | .deleteAll => True

/-- What `on_bond_deleted` is called with: 0 for a slot that has a bond. -/
def completion (w : Wallet K) (i : Nat) : Nat × Int := (i, if (w i).isSome then 0 else -1)

/-- Those of an operation, in the order of the slots. -/
def completions (n : Nat) (w : Wallet K) : BondOp K → List (Nat × Int)
  | .paired _ => []
  | .delete index => [w.completion index.toNat]
  | .deleteAll => (List.range n).map w.completion

theorem holds_iff {w : Wallet K} {identity : Identity K} {i : Nat} :
    w.holds identity i = true ↔ ∃ b, w i = some b ∧ b.identity = identity := by
  simp [holds, Option.any_eq_true]

end Wallet

/-- The wallet that is in the application's storage. -/
def walletOf [HostKeys K] (cfg : RuntimeCfg) (storage : Nat → List UInt8) : Wallet K :=
  fun i => if i < bondSlotCount cfg then persistedBond storage i else none

theorem walletOf_eq_some [HostKeys K] {cfg : RuntimeCfg} {storage : Nat → List UInt8} {i : Nat}
    {b : BondInformation K} :
    walletOf cfg storage i = some b ↔ i < bondSlotCount cfg ∧ persistedBond storage i = some b := by
  simp [walletOf]

theorem walletOf_stored [HostKeys K] {cfg : RuntimeCfg} {storage : Nat → List UInt8} {i : Nat}
    {bond : BondInformation K} (hi : i < bondSlotCount cfg) :
    walletOf cfg (Function.update storage i (serializeBond bond))
      = Function.update (walletOf cfg storage) i (some bond) := by
  ext j : 1
  by_cases hj : j = i
  · rw [hj, Function.update_self]
    simp [walletOf, hi, persistedBond_update_self]
  · rw [Function.update_of_ne hj]
    simp only [walletOf, persistedBond_update_of_ne hj]

theorem walletOf_cleared [HostKeys K] {cfg : RuntimeCfg} {storage : Nat → List UInt8} (i : Nat) :
    (walletOf cfg (Function.update storage i []) : Wallet K)
      = Function.update (walletOf cfg storage) i none := by
  ext j : 1
  by_cases hj : j = i
  · rw [hj, Function.update_self]
    have hempty : (persistedBond (Function.update storage i []) i : Option (BondInformation K))
        = none := persistedBond_of_empty (Function.update_self ..)
    simp [walletOf, hempty]
  · rw [Function.update_of_ne hj]
    simp only [walletOf, persistedBond_update_of_ne hj]

/-! ## A device's life -/

/-- What happens to the bonds over sessions: the operations of `bondStep`,
and the unload of a session followed by a load. -/
inductive LifeOp (K : Type) where
  | session (op : BondOp K)
  | restart

/-- The operation, if it is not a restart. -/
def LifeOp.op? : LifeOp K → Option (BondOp K)
  | session op => some op
  | restart => none

variable [HostKeys K]

/-- Only the storage outlives a session. -/
def lifeStep [DecidableEq K] (cfg : RuntimeCfg) (s : BondState K) : LifeOp K → BondState K
  | .session op => bondStep cfg s op
  | .restart => restoreBonds cfg (.boot s.storage)

omit [HostKeys K] in
theorem completeBondDelete_deleted {cfg : RuntimeCfg} {index : Nat} {ok : Bool}
    {s : BondState K} (hset : cfg.callbacks.onBondDeleted = true) :
    (completeBondDelete cfg index ok s).deleted = s.deleted ++ [(index, if ok then 0 else -1)] := by
  rw [completeBondDelete, if_pos hset]

/-! ## The tables of a session -/

/-- The tables follow the wallet: a slot of it is mapped to the identity of
its bond, and the bond is with the host. -/
structure Linked (cfg : RuntimeCfg) (s : BondState K) : Prop extends Settled cfg s where
  filled : ∀ i b, walletOf cfg s.storage i = some b → (b.identity, i) ∈ s.slots
  held : ∀ i b, walletOf cfg s.storage i = some b → b ∈ s.host

namespace Linked

variable {cfg : RuntimeCfg} {s : BondState K} {bond : BondInformation K} {i : Nat}

/-- An entry of the map is a bond in the wallet. -/
theorem walletOf_eq (h : Linked cfg s) {e : Identity K × Nat} (he : e ∈ s.slots) :
    ∃ b, walletOf cfg s.storage e.2 = some b ∧ b.identity = e.1 := by
  obtain ⟨b, hb, hid⟩ := h.persisted e he
  exact ⟨b, walletOf_eq_some.mpr ⟨h.inRange e he, hb⟩, hid⟩

theorem mem_slots_iff (h : Linked cfg s) {identity : Identity K} :
    (identity, i) ∈ s.slots
      ↔ ∃ b, walletOf cfg s.storage i = some b ∧ b.identity = identity := by
  constructor
  · exact h.walletOf_eq
  · rintro ⟨b, hb, rfl⟩
    exact h.filled i b hb

theorem isSome_iff (h : Linked cfg s) :
    (walletOf cfg s.storage i : Option (BondInformation K)).isSome = true
      ↔ i ∈ s.slots.map (·.2) := by
  rw [Option.isSome_iff_exists, List.mem_map]
  constructor
  · intro hsome
    obtain ⟨b, hb⟩ := hsome
    exact ⟨_, h.filled i b hb, rfl⟩
  · rintro ⟨e, he, rfl⟩
    obtain ⟨b, hb, -⟩ := h.walletOf_eq he
    exact ⟨b, hb⟩

/-- Two slots of the wallet are of two identities. -/
theorem distinctBlobs (h : Linked cfg s) : DistinctBlobs K cfg s.storage := by
  intro i hi j hj hij b c hb hc heq
  have hbi := h.filled i b (walletOf_eq_some.mpr ⟨hi, hb⟩)
  have hcj := h.filled j c (walletOf_eq_some.mpr ⟨hj, hc⟩)
  have hsame := List.inj_on_of_nodup_map h.identities hbi hcj heq
  exact hij (congrArg Prod.snd hsame)

/-- The length of the map is what the wallet has in it. -/
theorem used_eq (h : Linked cfg s) :
    (walletOf cfg s.storage : Wallet K).used (bondSlotCount cfg) = s.slots.length := by
  have hperm : ((List.range (bondSlotCount cfg)).filter fun i =>
      (walletOf cfg s.storage i : Option (BondInformation K)).isSome).Perm (s.slots.map (·.2)) := by
    rw [List.perm_ext_iff_of_nodup (List.nodup_range.filter _) h.distinct]
    intro i
    rw [List.mem_filter, List.mem_range, h.isSome_iff]
    constructor
    · exact fun hi => hi.2
    · intro hi
      obtain ⟨e, he, rfl⟩ := List.mem_map.mp hi
      exact ⟨h.inRange e he, hi⟩
  rw [Wallet.used, List.countP_eq_length_filter, hperm.length_eq, List.length_map]

variable [DecidableEq K]

/-- A mapped identity has its own slot. -/
theorem slotFor_known (h : Linked cfg s) (hmem : (bond.identity, i) ∈ s.slots) :
    (walletOf cfg s.storage : Wallet K).slotFor (bondSlotCount cfg) bond.identity = i := by
  unfold Wallet.slotFor
  cases hfind : (List.range (bondSlotCount cfg)).find?
      ((walletOf cfg s.storage : Wallet K).holds bond.identity) with
  | none =>
      have hnone := List.find?_eq_none.mp hfind i (List.mem_range.mpr (h.inRange _ hmem))
      exact absurd (Wallet.holds_iff.mpr (h.mem_slots_iff.mp hmem)) hnone
  | some j =>
      have hj := h.mem_slots_iff.mpr (Wallet.holds_iff.mp (List.find?_some hfind))
      have hsame := List.inj_on_of_nodup_map h.identities hj hmem rfl
      exact congrArg Prod.snd hsame

theorem holds_eq_false (h : Linked cfg s) (hnew : ∀ e ∈ s.slots, e.1 ≠ bond.identity) (j : Nat) :
    (walletOf cfg s.storage : Wallet K).holds bond.identity j = false := by
  cases hholds : (walletOf cfg s.storage : Wallet K).holds bond.identity j with
  | false => rfl
  | true => exact absurd rfl (hnew _ (h.mem_slots_iff.mpr (Wallet.holds_iff.mp hholds)))

theorem slotFor_new (h : Linked cfg s) (hnew : ∀ e ∈ s.slots, e.1 ≠ bond.identity) :
    (walletOf cfg s.storage : Wallet K).slotFor (bondSlotCount cfg) bond.identity
      = if s.slots.length < bondSlotCount cfg then s.slots.length else 0 := by
  have hfind : (List.range (bondSlotCount cfg)).find?
      ((walletOf cfg s.storage : Wallet K).holds bond.identity) = none := by
    rw [List.find?_eq_none]
    intro j _
    simp [h.holds_eq_false hnew j]
  unfold Wallet.slotFor
  rw [hfind, h.used_eq]

/-- The condition on the wallet is the one on the map. -/
theorem slotFree (h : Linked cfg s) (op : BondOp K)
    (hfree : (walletOf cfg s.storage : Wallet K).Free (bondSlotCount cfg) op) :
    SlotFree cfg s op := by
  cases op with
  | delete index | deleteAll => trivial
  | paired bond =>
      intro _ hnew hroom e he heq
      have hnone := hfree (fun j _ => h.holds_eq_false hnew j) (by rwa [h.used_eq])
      obtain ⟨b, hb, -⟩ := h.walletOf_eq he
      rw [h.used_eq, ← heq, hb] at hnone
      cases hnone

/-- A bond is stored under `slot`, and the other slots keep their entries. -/
theorem stored (h : Linked cfg s) {slot : Nat} {slots : SlotMap K}
    (hsettled : Settled cfg
      { s with
        slots
        host := addBondInformation s.host bond
        storage := Function.update s.storage slot (serializeBond bond) })
    (hmem : (bond.identity, slot) ∈ slots) (hkeep : ∀ e ∈ s.slots, e.2 ≠ slot → e ∈ slots) :
    Linked cfg
      { s with
        slots
        host := addBondInformation s.host bond
        storage := Function.update s.storage slot (serializeBond bond) } := by
  have hslot : slot < bondSlotCount cfg := hsettled.inRange _ hmem
  have hwallet : walletOf cfg (Function.update s.storage slot (serializeBond bond))
      = Function.update (walletOf cfg s.storage) slot (some bond) :=
    walletOf_stored hslot
  have hfilled : ∀ i b, walletOf cfg (Function.update s.storage slot (serializeBond bond)) i
      = some b → (b.identity, i) ∈ slots := by
    intro i b hb
    rw [hwallet] at hb
    by_cases hi : i = slot
    · rw [hi, Function.update_self] at hb
      cases hb
      rwa [hi]
    · rw [Function.update_of_ne hi] at hb
      exact hkeep _ (h.filled i b hb) hi
  apply Linked.mk hsettled hfilled
  intro i b hb
  have hentry := hfilled i b hb
  rw [hwallet] at hb
  by_cases hi : i = slot
  · rw [hi, Function.update_self] at hb
    cases hb
    exact List.mem_cons_self
  · rw [Function.update_of_ne hi] at hb
    -- another slot is another identity, so the host has kept the bond
    have hother : b.identity ≠ bond.identity := fun heq =>
      hi (congrArg Prod.snd (List.inj_on_of_nodup_map hsettled.identities hentry hmem heq))
    exact List.mem_cons_of_mem _ (List.mem_filter.mpr ⟨h.held i b hb, by simpa using hother⟩)

theorem paired (hstore : cfg.callbacks.onBondStore = true) (h : Linked cfg s)
    (hfree : (walletOf cfg s.storage : Wallet K).Free (bondSlotCount cfg) (.paired bond)) :
    Linked cfg (bondStep cfg s (.paired bond))
    ∧ walletOf cfg (bondStep cfg s (.paired bond)).storage
      = (walletOf cfg s.storage : Wallet K).step (bondSlotCount cfg) (.paired bond) := by
  have hsettled := settled_bondStep (.paired bond) h.toSettled (h.slotFree _ hfree)
  rcases storeBond_cases hstore (h.withHost bond) bond with
    ⟨slot, hmem, heq⟩ | ⟨hnew, hroom, heq⟩ | ⟨hnew, hfull, hused, e, rest, hrest, heq⟩
  · simp only [bondStep, heq, Wallet.step] at hsettled ⊢
    rw [h.slotFor_known hmem]
    exact ⟨h.stored hsettled hmem fun e he _ => he, walletOf_stored (h.inRange _ hmem)⟩
  · simp only [bondStep, heq, Wallet.step] at hsettled ⊢
    rw [h.slotFor_new hnew, if_pos hroom]
    exact ⟨h.stored hsettled (List.mem_append_right _ List.mem_cons_self)
      fun e he _ => List.mem_append_left _ he, walletOf_stored hroom⟩
  · simp only [bondStep, heq, Wallet.step] at hsettled ⊢
    rw [h.slotFor_new hnew, if_neg (Nat.not_lt.mpr hfull)]
    constructor
    · apply h.stored hsettled List.mem_cons_self
      -- of a full map only the first entry goes, and it is under slot 0
      intro e' he' hne
      have hslots : s.slots = e :: rest := hrest
      have hfirst : e.2 = 0 := by
        obtain ⟨e₀, he₀, hzero⟩ := hused 0 (bondSlotCount_pos cfg)
        rcases List.mem_cons.mp (hrest ▸ he₀) with rfl | hrest₀
        · exact hzero
        · exact absurd hzero (h.zeroFirst e₀ (by rw [hslots]; exact hrest₀))
      rw [hslots] at he'
      rcases List.mem_cons.mp he' with rfl | hrest'
      · exact absurd hfirst hne
      · exact List.mem_cons_of_mem _ hrest'
    · exact walletOf_stored (bondSlotCount_pos cfg)

omit [DecidableEq K] in
theorem completed {ok : Bool} (h : Linked cfg s) : Linked cfg (completeBondDelete cfg i ok s) := by
  unfold completeBondDelete
  split
  · exact { h with }
  · exact h

omit [DecidableEq K] in
/-- A slot is cleared, and its entry, if it has one, goes with its bond. -/
theorem cleared (h : Linked cfg s) (index : Nat)
    {slots : SlotMap K} {host : List (BondInformation K)}
    (hsettled : Settled cfg
      { s with slots, host, storage := Function.update s.storage index [] })
    (hslots : ∀ e ∈ s.slots, e.2 ≠ index → e ∈ slots)
    (hhost : ∀ b ∈ s.host, (∃ i, i ≠ index ∧ (b.identity, i) ∈ s.slots) → b ∈ host) :
    Linked cfg { s with slots, host, storage := Function.update s.storage index [] } := by
  have hother : ∀ i (b : BondInformation K),
      walletOf cfg (Function.update s.storage index []) i = some b →
        i ≠ index ∧ walletOf cfg s.storage i = some b := by
    intro i b hb
    rw [walletOf_cleared] at hb
    by_cases hi : i = index
    · rw [hi, Function.update_self] at hb
      cases hb
    · rw [Function.update_of_ne hi] at hb
      exact ⟨hi, hb⟩
  apply Linked.mk hsettled
  · intro i b hb
    obtain ⟨hi, hb⟩ := hother i b hb
    exact hslots _ (h.filled i b hb) hi
  · intro i b hb
    obtain ⟨hi, hb⟩ := hother i b hb
    exact hhost b (h.held i b hb) ⟨i, hi, h.filled i b hb⟩

/-- A delete completes with 0 exactly for a slot of the wallet. -/
theorem deleteBondSlot (hstore : cfg.callbacks.onBondStore = true) (h : Linked cfg s)
    (index : Nat) :
    Linked cfg (deleteBondSlot cfg s index)
    ∧ walletOf cfg (Bond.deleteBondSlot cfg s index).storage
      = Function.update (walletOf cfg s.storage : Wallet K) index none
    ∧ (cfg.callbacks.onBondDeleted = true → (Bond.deleteBondSlot cfg s index).deleted
      = s.deleted ++ [(walletOf cfg s.storage : Wallet K).completion index]) := by
  have hclear : ∀ t : BondState K, Bond.clearBondSlot cfg index t
      = { t with storage := Function.update t.storage index [] } := fun t => if_pos hstore
  unfold Bond.deleteBondSlot
  cases hfind : s.slots.find? fun e => e.2 = index with
  | none =>
      have hunmapped : ∀ e ∈ s.slots, e.2 ≠ index := by simpa [List.find?_eq_none] using hfind
      have hnone : (walletOf cfg s.storage index : Option (BondInformation K)).isSome = false := by
        rw [Bool.eq_false_iff, ne_eq, h.isSome_iff]
        intro hmem
        obtain ⟨e, he, heq⟩ := List.mem_map.mp hmem
        exact hunmapped e he heq
      have hsettled := h.toSettled.clearBondSlot hunmapped
      simp only [hclear, completeBondDelete_storage] at hsettled ⊢
      refine ⟨(h.cleared index hsettled (fun e he _ => he) fun b hb _ => hb).completed,
        walletOf_cleared index, fun hset => ?_⟩
      rw [completeBondDelete_deleted hset, Wallet.completion, hnone]
  | some e =>
      obtain ⟨identity, slot⟩ := e
      obtain ⟨hmem, rfl⟩ := mem_of_find?_snd hfind
      have hsome : (walletOf cfg s.storage slot : Option (BondInformation K)).isSome = true :=
        h.isSome_iff.mpr (List.mem_map_of_mem hmem)
      have hsettled := (h.toSettled.remove hmem).clearBondSlot (i := slot) fun e he => by
        simpa using (List.mem_filter.mp he).2
      simp only [removeBondInformation_eq_some (h.hosted _ hmem), hclear,
        completeBondDelete_storage] at hsettled ⊢
      refine ⟨(h.cleared slot hsettled ?_ ?_).completed, walletOf_cleared slot, fun hset => ?_⟩
      · exact fun e he hne => List.mem_filter.mpr ⟨he, by simpa using hne⟩
      · rintro b hb ⟨i, hi, hentry⟩
        have hother : b.identity ≠ identity := fun heq =>
          hi (congrArg Prod.snd (List.inj_on_of_nodup_map h.identities hentry hmem heq))
        exact List.mem_filter.mpr ⟨hb, by simpa using hother⟩
      · rw [completeBondDelete_deleted hset, Wallet.completion, hsome]

/-- The loop of `BCMD_DELETE_ALL` after `k` rounds: no round touches a slot
that is still to come. -/
theorem deleteSlots (hstore : cfg.callbacks.onBondStore = true) (h : Linked cfg s) (k : Nat) :
    Linked cfg ((List.range k).foldl (Bond.deleteBondSlot cfg) s)
    ∧ walletOf cfg ((List.range k).foldl (Bond.deleteBondSlot cfg) s).storage
      = (fun i => if i < k then none else (walletOf cfg s.storage : Wallet K) i)
    ∧ (cfg.callbacks.onBondDeleted = true →
      ((List.range k).foldl (Bond.deleteBondSlot cfg) s).deleted
        = s.deleted ++ (List.range k).map (walletOf cfg s.storage : Wallet K).completion) := by
  induction k with
  | zero => simp [h]
  | succ k ih =>
      obtain ⟨hlinked, hwallet, hdeleted⟩ := ih
      obtain ⟨hlinked', hwallet', hdeleted'⟩ := hlinked.deleteBondSlot hstore k
      rw [List.range_succ, List.foldl_append]
      refine ⟨hlinked', ?_, fun hset => ?_⟩
      · show walletOf cfg (Bond.deleteBondSlot cfg _ k).storage = _
        rw [hwallet', hwallet]
        ext i : 1
        by_cases hi : i = k
        · simp [hi]
        · have hlt : i < k + 1 ↔ i < k := by omega
          simp [Function.update_of_ne hi, hlt]
      · show (Bond.deleteBondSlot cfg _ k).deleted = _
        rw [hdeleted' hset, hdeleted hset, hwallet, List.map_append, List.append_assoc]
        simp [Wallet.completion]

/-- **One operation of a session** is the one on the wallet. -/
theorem bondStep (hstore : cfg.callbacks.onBondStore = true) (h : Linked cfg s) (op : BondOp K)
    (hfree : (walletOf cfg s.storage : Wallet K).Free (bondSlotCount cfg) op) :
    Linked cfg (bondStep cfg s op)
    ∧ walletOf cfg (Bond.bondStep cfg s op).storage
      = (walletOf cfg s.storage : Wallet K).step (bondSlotCount cfg) op
    ∧ (cfg.callbacks.onBondDeleted = true → (Bond.bondStep cfg s op).deleted
      = s.deleted ++ (walletOf cfg s.storage : Wallet K).completions (bondSlotCount cfg) op) := by
  cases op with
  | paired bond =>
      obtain ⟨hlinked, hwallet⟩ := h.paired hstore hfree
      refine ⟨hlinked, hwallet, fun _ => ?_⟩
      show (storeBond cfg _ bond).deleted = _
      unfold storeBond
      rw [if_neg (by simp [hstore])]
      split <;> simp [Wallet.completions]
  | delete index => exact h.deleteBondSlot hstore index.toNat
  | deleteAll =>
      obtain ⟨hlinked, hwallet, hdeleted⟩ := h.deleteSlots hstore (bondSlotCount cfg)
      refine ⟨hlinked, hwallet.trans ?_, hdeleted⟩
      ext i : 1
      simp only [Wallet.step, walletOf]
      split <;> simp_all

end Linked

/-! ## A restart -/

section Restart

variable [DecidableEq K] {cfg : RuntimeCfg} {storage : Nat → List UInt8}

/-- The loop of `restore_bonds` after `k` rounds: the slots before `k` are
mapped, and the host has their bonds and no others. -/
structure LoadedTo (cfg : RuntimeCfg) (storage : Nat → List UInt8) (k : Nat)
    (s : BondState K) : Prop extends RestoredTo cfg storage k s where
  mapped : ∀ i < k, ∀ b, persistedBond storage i = some b → (b.identity, i) ∈ s.slots
  hostHas : ∀ b, b ∈ s.host ↔ ∃ i < k, persistedBond storage i = some b

theorem loadedTo_succ {k : Nat} {s : BondState K} (hd : DistinctBlobs K cfg storage)
    (hk : k < bondSlotCount cfg) (h : LoadedTo cfg storage k s) :
    LoadedTo cfg storage (k + 1) (restoreSlot s k) := by
  have hrestored := restoredTo_succ hd hk h.toRestoredTo
  have hbefore : ∀ i, i < k + 1 ↔ i < k ∨ i = k := fun i => by omega
  apply LoadedTo.mk hrestored
  · intro i hi b hb
    unfold restoreSlot
    rw [h.untouched]
    rcases (hbefore i).mp hi with hi | rfl
    · cases hslot : (persistedBond storage k : Option (BondInformation K)) with
      | none => exact h.mapped i hi b hb
      | some bond =>
          show (b.identity, i) ∈ pushSlot s.slots (bond.identity, k)
          rw [pushSlot_of_room (Nat.lt_of_le_of_lt h.length_le hk)]
          exact List.mem_append_left _ (h.mapped i hi b hb)
    · simp only [hb, pushSlot_of_room (Nat.lt_of_le_of_lt h.length_le hk)]
      exact List.mem_append_right _ List.mem_cons_self
  · intro b
    unfold restoreSlot
    rw [h.untouched]
    cases hslot : (persistedBond storage k : Option (BondInformation K)) with
    | none =>
        rw [h.hostHas b]
        constructor
        · rintro ⟨i, hi, hb⟩
          exact ⟨i, by omega, hb⟩
        · rintro ⟨i, hi, hb⟩
          rcases (hbefore i).mp hi with hi | rfl
          · exact ⟨i, hi, hb⟩
          · rw [hslot] at hb
            cases hb
    | some bond =>
        simp only [addBondInformation, List.mem_cons, List.mem_filter, h.hostHas b]
        constructor
        · rintro (rfl | ⟨⟨i, hi, hb⟩, -⟩)
          · exact ⟨k, by omega, hslot⟩
          · exact ⟨i, by omega, hb⟩
        · rintro ⟨i, hi, hb⟩
          rcases (hbefore i).mp hi with hi | rfl
          · have hother := hd i (by omega) k hk (by omega) b bond hb hslot
            exact .inr ⟨⟨i, hi, hb⟩, by simpa using hother⟩
          · rw [hslot] at hb
            cases hb
            exact .inl rfl

/-- What a session starts with: the wallet's bonds, in the map and with the
host. -/
theorem linked_restoreBonds (hload : cfg.callbacks.onBondLoad = true)
    (hd : DistinctBlobs K cfg storage) :
    Linked cfg (restoreBonds cfg (BondState.boot storage : BondState K))
    ∧ (restoreBonds cfg (BondState.boot storage : BondState K)).storage = storage
    ∧ (∀ b, b ∈ (restoreBonds cfg (BondState.boot storage : BondState K)).host
        ↔ ∃ i, walletOf cfg storage i = some b)
    ∧ (restoreBonds cfg (BondState.boot storage : BondState K)).deleted = [] := by
  have hloop : ∀ k ≤ bondSlotCount cfg,
      LoadedTo cfg storage k
        ((List.range k).foldl restoreSlot (BondState.boot storage : BondState K))
      ∧ ((List.range k).foldl restoreSlot (BondState.boot storage : BondState K)).deleted = [] := by
    intro k
    induction k with
    | zero =>
        intro _
        exact ⟨{ Settled.boot with
          below := by simp, length_le := by simp, untouched := rfl, mapped := by simp
          hostHas := by simp [BondState.boot] }, rfl⟩
    | succ k ih =>
        intro hk
        rw [List.range_succ, List.foldl_append]
        obtain ⟨hloaded, hdeleted⟩ := ih (Nat.le_of_succ_le hk)
        refine ⟨loadedTo_succ hd hk hloaded, ?_⟩
        show (restoreSlot _ k).deleted = []
        unfold restoreSlot
        split <;> exact hdeleted
  obtain ⟨hloaded, hdeleted⟩ := hloop _ le_rfl
  rw [restoreBonds, if_pos hload]
  refine ⟨?_, hloaded.untouched, fun b => ?_, hdeleted⟩
  · apply Linked.mk hloaded.toSettled
    · intro i b hb
      rw [hloaded.untouched, walletOf_eq_some] at hb
      exact hloaded.mapped i hb.1 b hb.2
    · intro i b hb
      rw [hloaded.untouched, walletOf_eq_some] at hb
      exact (hloaded.hostHas b).mpr ⟨i, hb.1, hb.2⟩
  · simp only [hloaded.hostHas b, walletOf_eq_some]

end Restart

/-! ## Lives -/

section Lives

variable [DecidableEq K] {cfg : RuntimeCfg} {s : BondState K}

/-- The wallet after a life: the restarts do nothing to it. -/
def walletAfter (cfg : RuntimeCfg) (w : Wallet K) (life : List (LifeOp K)) : Wallet K :=
  (life.filterMap LifeOp.op?).foldl (Wallet.step (bondSlotCount cfg)) w

theorem Linked.restart (hload : cfg.callbacks.onBondLoad = true) (h : Linked cfg s) :
    Linked cfg (lifeStep cfg s .restart)
    ∧ walletOf cfg (lifeStep cfg s .restart).storage = (walletOf cfg s.storage : Wallet K) := by
  obtain ⟨hlinked, hstorage, -⟩ := linked_restoreBonds hload h.distinctBlobs
  exact ⟨hlinked, congrArg (walletOf cfg) hstorage⟩

/-- **The run lemma**: through operations and restarts the tables follow the
wallet. -/
theorem linked_life (hload : cfg.callbacks.onBondLoad = true)
    (hstore : cfg.callbacks.onBondStore = true) (life : List (LifeOp K)) (h : Linked cfg s)
    (hfree : EachStep (Wallet.step (bondSlotCount cfg)) (Wallet.Free (bondSlotCount cfg))
      (walletOf cfg s.storage) (life.filterMap LifeOp.op?)) :
    Linked cfg (life.foldl (lifeStep cfg) s)
    ∧ walletOf cfg (life.foldl (lifeStep cfg) s).storage
      = walletAfter cfg (walletOf cfg s.storage) life := by
  induction life generalizing s with
  | nil => exact ⟨h, rfl⟩
  | cons o life ih =>
      cases o with
      | restart =>
          obtain ⟨hlinked, hwallet⟩ := h.restart hload
          have hrest := ih hlinked (by rw [hwallet]; exact hfree)
          rw [hwallet] at hrest
          exact hrest
      | session op =>
          obtain ⟨hfirst, hlater⟩ :
              (walletOf cfg s.storage).Free (bondSlotCount cfg) op ∧ _ := hfree
          obtain ⟨hlinked, hwallet, -⟩ := h.bondStep hstore op hfirst
          have hrest := ih hlinked (by rw [hwallet]; exact hlater)
          rw [hwallet] at hrest
          exact hrest

/-- **Bonds survive restarts.** With `on_bond_load` and `on_bond_store` set, a
host whose table takes each bond that is put to it, and a storage without two
bonds of one identity at the start: however a life is made of pairings,
deletes and restarts, as long as no new bond that has room is numbered into a
taken slot, the storage has the wallet that the operations alone make; in
every session the map has each bond of the wallet under its slot and nothing
else, and the host has them all; and after a restart the host has nothing
else. -/
theorem bonds_survive_restarts (cfg : RuntimeCfg) (hload : cfg.callbacks.onBondLoad = true)
    (hstore : cfg.callbacks.onBondStore = true) (storage : Nat → List UInt8)
    (hd : DistinctBlobs K cfg storage) (life : List (LifeOp K))
    (hfree : EachStep (Wallet.step (bondSlotCount cfg)) (Wallet.Free (bondSlotCount cfg))
      (walletOf cfg storage : Wallet K) (life.filterMap LifeOp.op?)) :
    let s := life.foldl (lifeStep cfg) (restoreBonds cfg (BondState.boot storage))
    let w : Wallet K := walletAfter cfg (walletOf cfg storage) life
    walletOf cfg s.storage = w
    ∧ (s.slots.map (·.2)).Nodup
    ∧ (∀ identity i, (identity, i) ∈ s.slots ↔ ∃ b, w i = some b ∧ b.identity = identity)
    ∧ (∀ i b, w i = some b → b ∈ s.host)
    ∧ ∀ b, b ∈ (lifeStep cfg s .restart).host ↔ ∃ i, w i = some b := by
  intro s w
  obtain ⟨hstart, hstorage, -⟩ := linked_restoreBonds hload hd
  obtain ⟨hlinked, hwallet⟩ := linked_life hload hstore life hstart (by rw [hstorage]; exact hfree)
  rw [hstorage] at hwallet
  obtain ⟨-, -, hhost, -⟩ := linked_restoreBonds hload hlinked.distinctBlobs
  refine ⟨hwallet, hlinked.distinct, fun identity i => ?_, fun i b hb => ?_, fun b => ?_⟩
  · rw [hlinked.mem_slots_iff, hwallet]
  · exact hlinked.held i b (by rw [hwallet]; exact hb)
  · show b ∈ (restoreBonds cfg (BondState.boot s.storage)).host ↔ _
    rw [hhost b, hwallet]

/-- The answers to the deletes of a session that begins with the wallet. -/
def answersFrom (n : Nat) : Wallet K → List (BondOp K) → List (Nat × Int)
  | _, [] => []
  | w, op :: ops => w.completions n op ++ answersFrom n (w.step n op) ops

theorem Linked.deleted_eq (hstore : cfg.callbacks.onBondStore = true)
    (hset : cfg.callbacks.onBondDeleted = true) (ops : List (BondOp K)) (h : Linked cfg s)
    (hfree : EachStep (Wallet.step (bondSlotCount cfg)) (Wallet.Free (bondSlotCount cfg))
      (walletOf cfg s.storage) ops) :
    (ops.foldl (Bond.bondStep cfg) s).deleted
      = s.deleted ++ answersFrom (bondSlotCount cfg) (walletOf cfg s.storage) ops := by
  induction ops generalizing s with
  | nil => exact (List.append_nil _).symm
  | cons op ops ih =>
      obtain ⟨hlinked, hwallet, hdeleted⟩ := h.bondStep hstore op hfree.1
      have hrest := ih hlinked (by rw [hwallet]; exact hfree.2)
      rw [hwallet, hdeleted hset, List.append_assoc] at hrest
      exact hrest

/-- **Deletes are answered truthfully.** Under the same conditions, and with
`on_bond_deleted` set: in a session behind any life, each slot that an
operation deletes is completed once, in the order of the operations and of
the slots, with 0 exactly if the wallet has a bond in it at that time. -/
theorem deletes_answered (cfg : RuntimeCfg) (hload : cfg.callbacks.onBondLoad = true)
    (hstore : cfg.callbacks.onBondStore = true) (hset : cfg.callbacks.onBondDeleted = true)
    (storage : Nat → List UInt8) (hd : DistinctBlobs K cfg storage) (life : List (LifeOp K))
    (ops : List (BondOp K))
    (hfree : EachStep (Wallet.step (bondSlotCount cfg)) (Wallet.Free (bondSlotCount cfg))
      (walletOf cfg storage : Wallet K) (life.filterMap LifeOp.op? ++ ops)) :
    let s := life.foldl (lifeStep cfg) (restoreBonds cfg (BondState.boot storage))
    (ops.foldl (bondStep cfg) (lifeStep cfg s .restart)).deleted
      = answersFrom (bondSlotCount cfg) (walletAfter cfg (walletOf cfg storage) life) ops := by
  intro s
  obtain ⟨hbefore, hsession⟩ := eachStep_append.mp hfree
  obtain ⟨hstart, hstorage, -⟩ := linked_restoreBonds hload hd
  obtain ⟨hlinked, hwallet⟩ :=
    linked_life hload hstore life hstart (by rw [hstorage]; exact hbefore)
  rw [hstorage] at hwallet
  obtain ⟨hagain, hkept⟩ := hlinked.restart hload
  obtain ⟨-, -, -, hnone⟩ := linked_restoreBonds hload hlinked.distinctBlobs
  have hanswers := hagain.deleted_eq hstore hset ops (by rw [hkept, hwallet]; exact hsession)
  rw [hkept, hwallet] at hanswers
  rw [hanswers]
  show (restoreBonds cfg (BondState.boot s.storage)).deleted ++ _ = _
  rw [hnone, List.nil_append]

end Lives

/-! ## Two peers over three sessions -/

section TwoPeers

/-- The callbacks for bonds are set. -/
def deletingCfg : RuntimeCfg :=
  { callbacks := { onBondLoad := true, onBondStore := true, onBondDeleted := true } }

/-- Two peers are bonded, with a restart behind each. -/
def twoPeers : List (LifeOp IdentityKey) :=
  [.session (.paired (peerBond 0xA0)), .restart, .session (.paired (peerBond 0xB0)), .restart]

theorem distinctBlobs_empty {cfg : RuntimeCfg} :
    DistinctBlobs IdentityKey cfg fun _ => [] := by
  intro i _ j _ _ b c hb
  rw [persistedBond_of_empty rfl] at hb
  cases hb

theorem free_twoPeers :
    EachStep (Wallet.step 4) (Wallet.Free 4) (walletOf deletingCfg fun _ => [])
      ([.paired (peerBond 0xA0), .paired (peerBond 0xB0)] ++ [.delete 0, .deleteAll]) := by
  refine ⟨?_, ?_, trivial, trivial, trivial⟩
  all_goals
    intro _ _
    decide

/-- The bond of the first session is with the host in the third. -/
theorem bonds_survive_restarts_twoPeers :
    peerBond 0xA0 ∈ (twoPeers.foldl (lifeStep deletingCfg)
      (restoreBonds deletingCfg (BondState.boot fun _ => []))).host := by
  obtain ⟨-, -, -, hheld, -⟩ := bonds_survive_restarts deletingCfg rfl rfl _ distinctBlobs_empty
    twoPeers (eachStep_append.mp free_twoPeers).1
  exact hheld 0 _ (by decide)

/-- The second delete of the slot finds it empty. -/
theorem deletes_answered_twoPeers :
    ([.delete 0, .deleteAll].foldl (bondStep deletingCfg)
      (lifeStep deletingCfg (twoPeers.foldl (lifeStep deletingCfg)
        (restoreBonds deletingCfg (BondState.boot fun _ => []))) .restart)).deleted
      = [(0, 0), (0, -1), (1, 0), (2, -1), (3, -1)] := by
  rw [deletes_answered deletingCfg rfl rfl rfl _ distinctBlobs_empty twoPeers
    [.delete 0, .deleteAll] free_twoPeers]
  decide

end TwoPeers

end RuntimeBle.Bond
