import RuntimeBle.Lib.Machine
import RuntimeBle.Bond.Slots

/-!
# Bond — Coherence

Whether the slot map and the application's storage agree over a whole
session. `Coherent` is what a reader expects of them in every state.

`storeBond` numbers the slot of a new bond by the LENGTH of the map, which
is a free slot only as long as the used slots are exactly the ones below
the length. A gap left by a delete, or found at restore, breaks that.
`SlotFree` says at one step that the numbered slot is not in use, and
`coherent_iff_slotFree` that a session is coherent exactly when all its
steps are so.
-/

namespace RuntimeBle.Bond

open RuntimeBle.Lib

variable {K : Type} [HostKeys K]

/-! ## Coherence -/

/-- Each identity has a slot of its own, in range, where its bond is stored. -/
structure Coherent (cfg : RuntimeCfg) (s : BondState K) : Prop where
  identities : (s.slots.map (·.1)).Nodup
  distinct : (s.slots.map (·.2)).Nodup
  inRange : ∀ e ∈ s.slots, e.2 < bondSlotCount cfg
  persisted : ∀ e ∈ s.slots, ∃ b, persistedBond s.storage e.2 = some b ∧ b.identity = e.1

/-- The valid blobs in the slots of the configuration are of different
identities. -/
def DistinctBlobs (K : Type) [HostKeys K] (cfg : RuntimeCfg)
    (storage : Nat → List UInt8) : Prop :=
  ∀ i < bondSlotCount cfg, ∀ j < bondSlotCount cfg, i ≠ j →
    ∀ b c : BondInformation K, persistedBond storage i = some b →
      persistedBond storage j = some c → b.identity ≠ c.identity

/-! ## The invariant -/

/-- Coherence with what keeps it going: every mapped identity is in the
host's table, so a delete succeeds; and slot 0 can only be the first
entry's, so on a full map the entry that is replaced is the one of slot 0. -/
structure Settled (cfg : RuntimeCfg) (s : BondState K) : Prop extends Coherent cfg s where
  hosted : ∀ e ∈ s.slots, ∃ b ∈ s.host, b.identity = e.1
  zeroFirst : ∀ e ∈ s.slots.tail, e.2 ≠ 0

namespace Settled

variable {cfg : RuntimeCfg} {s : BondState K} {bond : BondInformation K} {i : Nat}

/-- Slots outside the map may be written or cleared. -/
theorem withStorage {blob : List UInt8} (h : Settled cfg s) (hi : ∀ e ∈ s.slots, e.2 ≠ i) :
    Settled cfg { s with storage := Function.update s.storage i blob } :=
  { h with
    persisted := fun e he => by
      obtain ⟨b, hb, hid⟩ := h.persisted e he
      exact ⟨b, (persistedBond_update_of_ne (hi e he)).trans hb, hid⟩ }

/-- A mapped identity may be written to its slot. -/
theorem rewrite (h : Settled cfg s) (hmem : (bond.identity, i) ∈ s.slots) :
    Settled cfg { s with storage := Function.update s.storage i (serializeBond bond) } :=
  { h with
    persisted := fun e he => by
      by_cases hi : e.2 = i
      · have : e = (bond.identity, i) := List.inj_on_of_nodup_map h.distinct he hmem hi
        subst this
        exact ⟨bond, persistedBond_update_self, rfl⟩
      · obtain ⟨b, hb, hid⟩ := h.persisted e he
        exact ⟨b, (persistedBond_update_of_ne hi).trans hb, hid⟩ }

theorem completeBondDelete {ok : Bool} (h : Settled cfg s) :
    Settled cfg (completeBondDelete cfg i ok s) := by
  unfold Bond.completeBondDelete
  split
  · exact { h with }
  · exact h

theorem clearBondSlot (h : Settled cfg s) (hi : ∀ e ∈ s.slots, e.2 ≠ i) :
    Settled cfg (clearBondSlot cfg i s) := by
  unfold Bond.clearBondSlot
  split
  · exact h.withStorage hi
  · exact h

theorem boot {storage : Nat → List UInt8} :
    Settled cfg (BondState.boot storage : BondState K) := by
  refine ⟨⟨?_, ?_, ?_, ?_⟩, ?_, ?_⟩ <;> simp

variable [DecidableEq K]

/-- The host's table may grow. -/
theorem withHost (h : Settled cfg s) (bond : BondInformation K) :
    Settled cfg { s with host := addBondInformation s.host bond } :=
  { h with hosted := fun e he => exists_mem_addBondInformation (.inr (h.hosted e he)) }

/-- A new entry may be put behind the others, under an unused slot that
holds its blob. -/
theorem append (h : Settled cfg s) (hnew : ∀ e ∈ s.slots, e.1 ≠ bond.identity)
    (hfree : ∀ e ∈ s.slots, e.2 ≠ i) (hi : i < bondSlotCount cfg)
    (hzero : i = 0 → s.slots = [])
    (hblob : ∃ b, persistedBond s.storage i = some b ∧ b.identity = bond.identity) :
    Settled cfg
      { s with
        slots := s.slots ++ [(bond.identity, i)]
        host := addBondInformation s.host bond } where
  identities := by
    simp only [List.map_append, List.map_cons, List.map_nil]
    apply h.identities.append (List.nodup_singleton _)
    simpa [List.disjoint_singleton] using fun slot he => hnew _ he rfl
  distinct := by
    simp only [List.map_append, List.map_cons, List.map_nil]
    apply h.distinct.append (List.nodup_singleton _)
    simpa [List.disjoint_singleton] using fun identity he => hfree _ he rfl
  inRange e he := by
    rcases List.mem_append.mp he with he | he
    · exact h.inRange e he
    · simpa [List.mem_singleton.mp he] using hi
  persisted e he := by
    rcases List.mem_append.mp he with he | he
    · exact h.persisted e he
    · simpa [List.mem_singleton.mp he] using hblob
  hosted e he := by
    rcases List.mem_append.mp he with he | he
    · exact exists_mem_addBondInformation (.inr (h.hosted e he))
    · exact exists_mem_addBondInformation (.inl (by simp [List.mem_singleton.mp he]))
  zeroFirst e he := by
    by_cases hnil : s.slots = []
    · simp [hnil] at he
    · rw [List.tail_append_of_ne_nil hnil] at he
      rcases List.mem_append.mp he with he | he
      · exact h.zeroFirst e he
      · rw [List.mem_singleton.mp he]
        exact fun h0 => hnil (hzero h0)

end Settled

/-! ## Restore -/

section Restore

variable [DecidableEq K] {cfg : RuntimeCfg} {storage : Nat → List UInt8}

/-- The loop of `restore_bonds` after `k` rounds. -/
structure RestoredTo (cfg : RuntimeCfg) (storage : Nat → List UInt8) (k : Nat)
    (s : BondState K) : Prop extends Settled cfg s where
  below : ∀ e ∈ s.slots, e.2 < k
  length_le : s.slots.length ≤ k
  untouched : s.storage = storage

theorem restoredTo_succ {k : Nat} {s : BondState K} (hd : DistinctBlobs K cfg storage)
    (hk : k < bondSlotCount cfg) (h : RestoredTo cfg storage k s) :
    RestoredTo cfg storage (k + 1) (restoreSlot s k) := by
  unfold restoreSlot
  split
  · exact { h with
      below := fun e he => Nat.lt_succ_of_lt (h.below e he)
      length_le := Nat.le_succ_of_le h.length_le }
  · rename_i bond hbond
    rw [pushSlot_of_room (Nat.lt_of_le_of_lt h.length_le hk)]
    -- an earlier entry is of another blob, so of another identity
    have hnew : ∀ e ∈ s.slots, e.1 ≠ bond.identity := by
      intro e he heq
      obtain ⟨b, hb, hid⟩ := h.persisted e he
      rw [h.untouched] at hb hbond
      exact hd e.2 (h.inRange e he) k hk (h.below e he).ne b bond hb hbond (hid.trans heq)
    have hzero : k = 0 → s.slots = [] := by
      rintro rfl
      exact List.length_eq_zero_iff.mp (Nat.le_zero.mp h.length_le)
    have hsettled := h.toSettled.append hnew (fun e he => (h.below e he).ne) hk hzero
      ⟨bond, hbond, rfl⟩
    exact { hsettled with
      below := fun e he => by
        rcases List.mem_append.mp he with he | he
        · exact Nat.lt_succ_of_lt (h.below e he)
        · simp [List.mem_singleton.mp he]
      length_le := by simpa using h.length_le
      untouched := h.untouched }

/-- Whatever slots are filled, the session starts coherent. -/
theorem settled_restoreBonds (hd : DistinctBlobs K cfg storage) :
    Settled cfg (restoreBonds cfg (BondState.boot storage : BondState K)) := by
  have hloop : ∀ k ≤ bondSlotCount cfg,
      RestoredTo cfg storage k
        ((List.range k).foldl restoreSlot (BondState.boot storage : BondState K)) := by
    intro k
    induction k with
    | zero =>
        intro _
        exact { Settled.boot with below := by simp, length_le := by simp, untouched := rfl }
    | succ k ih =>
        intro hk
        rw [List.range_succ, List.foldl_append]
        exact restoredTo_succ hd hk (ih (Nat.le_of_succ_le hk))
  unfold restoreBonds
  split
  · exact (hloop _ le_rfl).toSettled
  · exact Settled.boot

end Restore

/-! ## Steps -/

section Steps

variable [DecidableEq K] {cfg : RuntimeCfg} {s : BondState K} {bond : BondInformation K}

/-- Unmapping a slot and its identity leaves a coherent rest. -/
theorem Settled.remove {identity : Identity K} {index : Nat} (h : Settled cfg s)
    (hmem : (identity, index) ∈ s.slots) :
    Settled cfg
      { s with
        host := s.host.filter fun b => b.identity ≠ identity
        slots := s.slots.filter fun e => e.2 ≠ index } := by
  have hsub : (s.slots.filter fun e => e.2 ≠ index).Sublist s.slots := List.filter_sublist
  refine ⟨⟨h.identities.sublist (hsub.map _), h.distinct.sublist (hsub.map _),
    fun e he => h.inRange e (hsub.mem he), fun e he => h.persisted e (hsub.mem he)⟩, ?_, ?_⟩
  · intro e he
    have hold : e ∈ s.slots := hsub.mem he
    have hidx : e.2 ≠ index := by simpa using (List.mem_filter.mp he).2
    -- another slot is another identity, which the host has kept
    have hother : e.1 ≠ identity := fun heq =>
      hidx (congrArg Prod.snd (List.inj_on_of_nodup_map h.identities hold hmem heq))
    obtain ⟨b, hb, hid⟩ := h.hosted e hold
    exact ⟨b, List.mem_filter.mpr ⟨hb, by simpa [hid] using hother⟩, hid⟩
  · intro e he
    exact h.zeroFirst e (hsub.tail.mem he)

theorem Settled.deleteBondSlot (h : Settled cfg s) (index : Nat) :
    Settled cfg (deleteBondSlot cfg s index) := by
  unfold Bond.deleteBondSlot
  cases hfind : s.slots.find? fun e => e.2 = index with
  | none =>
      have hi : ∀ e ∈ s.slots, e.2 ≠ index := by simpa [List.find?_eq_none] using hfind
      exact (h.clearBondSlot hi).completeBondDelete
  | some e =>
      obtain ⟨identity, slot⟩ := e
      obtain ⟨hmem, -⟩ := mem_of_find?_snd hfind
      simp only [removeBondInformation_eq_some (h.hosted _ hmem)]
      refine ((h.remove hmem).clearBondSlot ?_).completeBondDelete
      intro e he
      simpa using (List.mem_filter.mp he).2

/-- The three ways `store_bond` goes, with what each does to the state. -/
theorem storeBond_cases (hstore : cfg.callbacks.onBondStore = true) (h : Settled cfg s)
    (bond : BondInformation K) :
    (∃ slot, (bond.identity, slot) ∈ s.slots ∧ storeBond cfg s bond =
      { s with storage := Function.update s.storage slot (serializeBond bond) }) ∨
    ((∀ e ∈ s.slots, e.1 ≠ bond.identity) ∧ s.slots.length < bondSlotCount cfg ∧
      storeBond cfg s bond =
        { s with
          slots := s.slots ++ [(bond.identity, s.slots.length)]
          storage := Function.update s.storage s.slots.length (serializeBond bond) }) ∨
    ((∀ e ∈ s.slots, e.1 ≠ bond.identity) ∧ bondSlotCount cfg ≤ s.slots.length ∧
      (∀ i < bondSlotCount cfg, ∃ e ∈ s.slots, e.2 = i) ∧ ∃ e rest, s.slots = e :: rest ∧
      storeBond cfg s bond =
        { s with
          slots := (bond.identity, 0) :: rest
          storage := Function.update s.storage 0 (serializeBond bond) }) := by
  have hcount : bondSlotCount cfg ≠ 0 := (bondSlotCount_pos cfg).ne'
  by_cases hknown : ∃ slot, (bond.identity, slot) ∈ s.slots
  · obtain ⟨slot, hmem⟩ := hknown
    refine .inl ⟨slot, hmem, ?_⟩
    simp [storeBond, hstore, hcount, placeBond_known h.identities hmem]
  have hnew : ∀ e ∈ s.slots, e.1 ≠ bond.identity := by
    rintro ⟨identity, slot⟩ he rfl
    exact hknown ⟨slot, he⟩
  by_cases hroom : s.slots.length < bondSlotCount cfg
  · refine .inr (.inl ⟨hnew, hroom, ?_⟩)
    simp [storeBond, hstore, hcount, placeBond_new hnew hroom]
  · have hfull : bondSlotCount cfg ≤ s.slots.length := Nat.not_lt.mp hroom
    have hused : ∀ i < bondSlotCount cfg, ∃ e ∈ s.slots, e.2 = i := by
      intro i hi
      have hmem : i ∈ s.slots.map (·.2) := mem_of_nodup_of_length_le h.distinct
        (List.forall_mem_map.mpr h.inRange) (by simpa using hfull) i hi
      exact List.mem_map.mp hmem
    obtain ⟨e, rest, hrest⟩ : ∃ e rest, s.slots = e :: rest := by
      refine List.exists_cons_of_ne_nil fun hnil => ?_
      rw [hnil] at hfull
      exact hcount (Nat.le_zero.mp hfull)
    refine .inr (.inr ⟨hnew, hfull, hused, e, rest, hrest, ?_⟩)
    rw [hrest] at hnew hfull
    simp [storeBond, hstore, hcount, hrest, placeBond_full hnew hfull]

/-- A full map may have the entry of slot 0 replaced. -/
theorem Settled.replace {e : Identity K × Nat} {rest : SlotMap K} (h : Settled cfg s)
    (hrest : s.slots = e :: rest)
    (hnew : ∀ e ∈ s.slots, e.1 ≠ bond.identity) :
    Settled cfg
      { s with
        slots := (bond.identity, 0) :: rest
        host := addBondInformation s.host bond
        storage := Function.update s.storage 0 (serializeBond bond) } := by
  have hsub : ∀ e' ∈ rest, e' ∈ s.slots := fun e' he => hrest ▸ List.mem_cons_of_mem e he
  have hpos : ∀ e' ∈ rest, e'.2 ≠ 0 := by simpa [hrest] using h.zeroFirst
  have hids := h.identities
  have hslots := h.distinct
  rw [hrest, List.map_cons, List.nodup_cons] at hids hslots
  refine ⟨⟨?_, ?_, ?_, ?_⟩, ?_, ?_⟩
  · refine List.nodup_cons.mpr ⟨?_, hids.2⟩
    intro hmem
    obtain ⟨e', he, heq⟩ := List.mem_map.mp hmem
    exact hnew e' (hsub e' he) heq
  · refine List.nodup_cons.mpr ⟨?_, hslots.2⟩
    intro hmem
    obtain ⟨e', he, heq⟩ := List.mem_map.mp hmem
    exact hpos e' he heq
  · intro e' he
    rcases List.mem_cons.mp he with rfl | he
    · exact bondSlotCount_pos cfg
    · exact h.inRange e' (hsub e' he)
  · intro e' he
    rcases List.mem_cons.mp he with rfl | he
    · exact ⟨bond, persistedBond_update_self, rfl⟩
    · obtain ⟨b, hb, hid⟩ := h.persisted e' (hsub e' he)
      exact ⟨b, (persistedBond_update_of_ne (hpos e' he)).trans hb, hid⟩
  · intro e' he
    rcases List.mem_cons.mp he with rfl | he
    · exact exists_mem_addBondInformation (.inl rfl)
    · exact exists_mem_addBondInformation (.inr (h.hosted e' (hsub e' he)))
  · exact hpos

end Steps

/-! ## Runs -/

section Runs

variable [DecidableEq K] {cfg : RuntimeCfg} {s : BondState K}

/-- What storing a bond leaves alone: a known identity is stored again in
its slot and nothing else changes; a new one spares the slots of the map
as long as some slot is not in the map. -/
def KeepsOthers (cfg : RuntimeCfg) (s : BondState K) : BondOp K → Prop
  | .paired bond =>
      let t := bondStep cfg s (.paired bond)
      (∀ slot, (bond.identity, slot) ∈ s.slots →
        t.slots = s.slots ∧ (∀ i ≠ slot, t.storage i = s.storage i)
          ∧ (cfg.callbacks.onBondStore → t.storage slot = serializeBond bond))
      ∧ ((∀ e ∈ s.slots, e.1 ≠ bond.identity) →
          (∃ i < bondSlotCount cfg, ∀ e ∈ s.slots, e.2 ≠ i) →
          ∀ e ∈ s.slots, t.storage e.2 = s.storage e.2)
  | .delete _ | .deleteAll => True

/-- A new identity that is stored while the map has room finds the slot
numbered by the length of the map unused. -/
def SlotFree (cfg : RuntimeCfg) (s : BondState K) : BondOp K → Prop
  | .paired bond =>
      cfg.callbacks.onBondStore → (∀ e ∈ s.slots, e.1 ≠ bond.identity) →
        s.slots.length < bondSlotCount cfg → ∀ e ∈ s.slots, e.2 ≠ s.slots.length
  | .delete _ | .deleteAll => True

/-- A step that meets `SlotFree` keeps the invariant. -/
theorem settled_bondStep (op : BondOp K) (h : Settled cfg s) (hok : SlotFree cfg s op) :
    Settled cfg (bondStep cfg s op) := by
  cases op with
  | delete index => exact h.deleteBondSlot _
  | deleteAll =>
      exact List.foldlRecOn _ _ h fun t ht index _ => ht.deleteBondSlot index
  | paired bond =>
      have hhost := h.withHost bond
      by_cases hstore : cfg.callbacks.onBondStore = true
      · rcases storeBond_cases hstore hhost bond with
          ⟨slot, hmem, heq⟩ | ⟨hnew, hroom, heq⟩ | ⟨hnew, -, -, e, rest, hrest, heq⟩
        · simp only [bondStep, heq]
          exact hhost.rewrite hmem
        · simp only [bondStep, heq]
          have hfree := hok hstore hnew hroom
          exact (h.withStorage hfree).append hnew hfree hroom List.length_eq_zero_iff.mp
            ⟨bond, persistedBond_update_self, rfl⟩
        · simp only [bondStep, heq]
          exact h.replace hrest hnew
      · simp only [bondStep, storeBond, hstore]
        exact hhost

/-- No other step keeps even the slots apart. -/
theorem slotFree_of_coherent (op : BondOp K) (h : Settled cfg s)
    (hnext : Coherent cfg (bondStep cfg s op)) : SlotFree cfg s op := by
  cases op with
  | delete index => trivial
  | deleteAll => trivial
  | paired bond =>
      intro hstore hnew hroom e he heq
      rcases storeBond_cases hstore (h.withHost bond) bond with
        ⟨slot, hmem, -⟩ | ⟨-, -, hstep⟩ | ⟨-, hfull, -⟩
      · exact hnew _ hmem rfl
      · have hdistinct := hnext.distinct
        simp only [bondStep, hstep, List.map_append, List.map_cons, List.map_nil] at hdistinct
        exact List.disjoint_of_nodup_append hdistinct (List.mem_map_of_mem he) (by simp [heq])
      · exact Nat.not_lt.mpr hfull hroom

theorem keepsOthers_of_slotFree (op : BondOp K) (h : Settled cfg s)
    (hok : SlotFree cfg s op) : KeepsOthers cfg s op := by
  cases op with
  | delete index => trivial
  | deleteAll => trivial
  | paired bond =>
      have hhost := h.withHost bond
      by_cases hstore : cfg.callbacks.onBondStore = true
      · rcases storeBond_cases hstore hhost bond with
          ⟨slot, hmem, heq⟩ | ⟨hnew, hroom, heq⟩ | ⟨hnew, -, hused, e, rest, hrest, heq⟩
        · -- the identity is known, under one slot only
          simp only [KeepsOthers, bondStep, heq]
          refine ⟨fun slot' hmem' => ?_, fun hnew => absurd rfl (hnew _ hmem)⟩
          have hsame : (bond.identity, slot') = (bond.identity, slot) :=
            List.inj_on_of_nodup_map h.identities hmem' hmem rfl
          cases hsame
          exact ⟨trivial, fun i hi => Function.update_of_ne hi .., fun _ => Function.update_self ..⟩
        · simp only [KeepsOthers, bondStep, heq]
          exact ⟨fun slot hmem => absurd rfl (hnew _ hmem), fun _ _ e he =>
            Function.update_of_ne (hok hstore hnew hroom e he) ..⟩
        · -- the map is full, so no slot is outside it
          refine ⟨fun slot hmem => absurd rfl (hnew _ hmem), fun _ hgap => ?_⟩
          obtain ⟨i, hi, hunused⟩ := hgap
          obtain ⟨e', he', heq'⟩ := hused i hi
          exact absurd heq' (hunused e' he')
      · have hnop : storeBond cfg { s with host := addBondInformation s.host bond } bond
            = { s with host := addBondInformation s.host bond } := by
          simp [storeBond, hstore]
        simp only [KeepsOthers, bondStep, hnop]
        exact ⟨fun _ _ => ⟨trivial, fun _ _ => trivial, fun h => absurd h hstore⟩,
          fun _ _ _ _ => trivial⟩

/-- **A session's bonds stay coherent, and storing one spares the others,
exactly when no new identity is stored while the map has room and the
slot numbered by its length is in use.** -/
theorem coherent_iff_slotFree (storage : Nat → List UInt8) (hd : DistinctBlobs K cfg storage)
    (ops : List (BondOp K)) :
    (Always (bondStep cfg) (Coherent cfg) (restoreBonds cfg (BondState.boot storage)) ops
        ∧ EachStep (bondStep cfg) (KeepsOthers cfg)
            (restoreBonds cfg (BondState.boot storage)) ops)
      ↔ EachStep (bondStep cfg) (SlotFree cfg) (restoreBonds cfg (BondState.boot storage)) ops := by
  have hstart : Settled cfg (restoreBonds cfg (BondState.boot storage : BondState K)) :=
    settled_restoreBonds hd
  have hiff := always_iff_eachStep (fun s (h : Settled cfg s) => h.toCoherent)
    (fun s op h hok => settled_bondStep op h hok)
    (fun s op h hnext => slotFree_of_coherent op h hnext) ops _ hstart
  refine ⟨fun h => hiff.mp h.1, fun hfree => ⟨hiff.mpr hfree, ?_⟩⟩
  have hsettled : Always (bondStep cfg) (Settled cfg) _ ops :=
    EachStep.always (fun s op h hok => settled_bondStep op h hok) hstart hfree
  exact EachStep.mono (P := Settled cfg) (fun s op h hok => keepsOthers_of_slotFree op h hok)
    hsettled hfree

end Runs

/-! ## A storage with a gap -/

section Gap

/-- Identity resolving keys as the nonzero 16-byte strings. -/
abbrev IdentityKey := { k : Bytes 16 // k ≠ Vector.replicate 16 0 }

instance : HostKeys IdentityKey where
  toLeBytes k := k.1
  fromLeBytes k := if h : k ≠ Vector.replicate 16 0 then some ⟨k, h⟩ else none
  fromLeBytes_toLeBytes k := dif_pos k.2
  newEdiv := 0
  newRand := Vector.replicate 8 0
  newEncryptionKeyLen := 16

/-- A bond with the peer of address `n`. -/
def peerBond (n : UInt8) : BondInformation IdentityKey :=
  .new { addr := { kind := 1, addr := Vector.replicate 6 n }, irk := none }
    (Vector.replicate 16 n) .encrypted true

/-- The application loads bonds and stores them. -/
def storingCfg : RuntimeCfg := { callbacks := { onBondLoad := true, onBondStore := true } }

/-- Slot 1 alone is filled. -/
def gapStorage : Nat → List UInt8 :=
  Function.update (fun _ => []) 1 (serializeBond (peerBond 0xA0))

theorem distinctBlobs_gapStorage : DistinctBlobs IdentityKey storingCfg gapStorage := by
  have hempty : ∀ i ≠ 1, (persistedBond gapStorage i : Option (BondInformation IdentityKey))
      = none := fun i hi => persistedBond_update_of_ne hi
  intro i _ j _ hij b c hb hc
  by_cases hi : i = 1
  · rw [hempty j (by omega)] at hc
    cases hc
  · rw [hempty i hi] at hb
    cases hb

/-- The first new peer is numbered into the filled slot. -/
theorem gapStorage_not_coherent :
    DistinctBlobs IdentityKey storingCfg gapStorage ∧
    ¬ Always (bondStep storingCfg) (Coherent storingCfg)
        (restoreBonds storingCfg (BondState.boot gapStorage)) [.paired (peerBond 0xB0)] ∧
    ¬ EachStep (bondStep storingCfg) (KeepsOthers storingCfg)
        (restoreBonds storingCfg (BondState.boot gapStorage)) [.paired (peerBond 0xB0)] := by
  refine ⟨distinctBlobs_gapStorage, ?_, ?_⟩
  · rintro ⟨-, hcoh⟩
    have hslots : (bondStep storingCfg (restoreBonds storingCfg (BondState.boot gapStorage))
        (.paired (peerBond 0xB0))).slots.map (·.2) = [1, 1] := by decide
    have hdistinct := hcoh.distinct
    rw [hslots] at hdistinct
    exact absurd hdistinct (by decide)
  · rintro ⟨⟨-, hspared⟩, -⟩
    have hsame := hspared (by decide) ⟨0, by decide, by decide⟩
      ((peerBond 0xA0).identity, 1) (by decide)
    exact absurd hsame (by decide)

/-- With the old bond deleted first the same pairing is harmless. -/
theorem gapStorage_coherent_after_delete :
    Always (bondStep storingCfg) (Coherent storingCfg)
        (restoreBonds storingCfg (BondState.boot gapStorage))
        [.delete 1, .paired (peerBond 0xB0)] ∧
    EachStep (bondStep storingCfg) (KeepsOthers storingCfg)
        (restoreBonds storingCfg (BondState.boot gapStorage))
        [.delete 1, .paired (peerBond 0xB0)] := by
  refine (coherent_iff_slotFree gapStorage distinctBlobs_gapStorage _).mpr ⟨trivial, ?_, trivial⟩
  intro _ _ _
  decide

end Gap

end RuntimeBle.Bond
