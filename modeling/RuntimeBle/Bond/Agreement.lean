import RuntimeBle.Bond.Coherence

/-!
# Bond — Agreement

The host's bond table against the slot map, over sessions that begin with
nothing stored. `Agrees` is what a reader expects of the two tables in
every state, `DeletesAll` what is expected of `BCMD_DELETE_ALL`.

Three things drive the tables apart: a bond that is not given a slot, a
full map, whose first entry is overwritten while its bond stays with the
host, and a slot with two entries, of which `deleteBondSlot` sees the
first one only. `Consistent` excludes them at one step.
-/

namespace RuntimeBle.Bond

open RuntimeBle.Lib

variable {K : Type} [DecidableEq K]

/-- `bond_slot_for`. -/
def bondSlotFor (map : SlotMap K) (identity : Identity K) : Nat :=
  ((map.find? fun e => e.1 = identity).map (·.2)).getD 0xff

/-- The identities that have a slot. -/
def BondState.mapped (s : BondState K) : List (Identity K) := s.slots.map (·.1)

/-- The identities in the host's table. -/
def BondState.hosted (s : BondState K) : List (Identity K) := s.host.map (·.identity)

/-! ## The property -/

/-- Each bond of the host has exactly one entry in the map, and each entry
exactly one bond. -/
structure Agrees (s : BondState K) : Prop where
  mappedOnce : ∀ b ∈ s.host, s.mapped.count b.identity = 1
  slotFor : ∀ b ∈ s.host, bondSlotFor s.slots b.identity ≠ 0xff
  hostedOnce : ∀ e ∈ s.slots, s.hosted.count e.1 = 1

/-- `BCMD_DELETE_ALL` leaves nothing, in the tables or in the storage. -/
def DeletesAll [HostKeys K] (cfg : RuntimeCfg) (s : BondState K) : BondOp K → Prop
  | .deleteAll =>
      let t := bondStep cfg s .deleteAll
      let next := restoreBonds cfg (BondState.boot t.storage : BondState K)
      t.slots = [] ∧ t.host = [] ∧ (∀ i < bondSlotCount cfg, t.storage i = [])
        ∧ next.slots = [] ∧ next.host = []
  | .paired _ | .delete _ => True

/-- No two entries are under the slot. -/
def Unshared (s : BondState K) (index : Nat) : Prop :=
  ∀ e ∈ s.slots, ∀ e' ∈ s.slots, e.2 = index → e'.2 = index → e = e'

/-- A bond that is new to the map is stored, and the map has room for it;
a slot that is deleted has one entry at most. -/
def Consistent (cfg : RuntimeCfg) (s : BondState K) : BondOp K → Prop
  | .paired bond =>
      bond.identity ∈ s.mapped
        ∨ (cfg.callbacks.onBondStore = true ∧ s.slots.length < bondSlotCount cfg)
  | .delete index => Unshared s index.toNat
  | .deleteAll => ∀ i < bondSlotCount cfg, Unshared s i

/-! ## The invariant -/

/-- The two tables list the same identities. -/
structure Matched (cfg : RuntimeCfg) (s : BondState K) : Prop where
  mapped : s.mapped.Nodup
  hosted : s.hosted.Nodup
  same : ∀ identity, identity ∈ s.mapped ↔ identity ∈ s.hosted
  inRange : ∀ e ∈ s.slots, e.2 < bondSlotCount cfg
  unstored : cfg.callbacks.onBondStore = false → ∀ i, s.storage i = []

omit [DecidableEq K] in
theorem matched_boot {cfg : RuntimeCfg} :
    Matched cfg (BondState.boot (fun _ => []) : BondState K) where
  mapped := List.nodup_nil
  hosted := List.nodup_nil
  same _ := Iff.rfl
  inRange _ he := by cases he
  unstored _ _ := rfl

variable {cfg : RuntimeCfg} {s : BondState K} {bond : BondInformation K} {index : Nat}

theorem hosted_addBondInformation (host : List (BondInformation K)) (bond : BondInformation K) :
    (addBondInformation host bond).map (·.identity)
      = bond.identity :: (host.map (·.identity)).filter fun i => i ≠ bond.identity := by
  simp [addBondInformation, List.filter_map, Function.comp_def]

theorem hosted_filter (host : List (BondInformation K)) (identity : Identity K) :
    (host.filter fun b => b.identity ≠ identity).map (·.identity)
      = (host.map (·.identity)).filter fun i => i ≠ identity := by
  simp [List.filter_map, Function.comp_def]

omit [DecidableEq K] in
theorem ne_of_not_mem_mapped {identity : Identity K} (h : identity ∉ s.mapped) :
    ∀ e ∈ s.slots, e.1 ≠ identity := by
  intro e he heq
  exact h (heq ▸ List.mem_map_of_mem he)

theorem find?_of_mem_mapped {identity : Identity K} (h : s.mapped.Nodup)
    (hmem : identity ∈ s.mapped) :
    ∃ slot, (identity, slot) ∈ s.slots ∧
      (s.slots.find? fun e => e.1 = identity) = some (identity, slot) := by
  obtain ⟨⟨name, slot⟩, he, hname⟩ := List.mem_map.mp hmem
  cases hname
  exact ⟨slot, he, find?_fst_of_mem h he⟩

namespace Matched

theorem agrees (h : Matched cfg s) : Agrees s where
  mappedOnce b hb :=
    List.count_eq_one_of_mem h.mapped ((h.same _).mpr (List.mem_map_of_mem hb))
  slotFor b hb := by
    obtain ⟨slot, he, hfind⟩ :=
      find?_of_mem_mapped h.mapped ((h.same _).mpr (List.mem_map_of_mem hb))
    have hlt : slot < bondSlotCount cfg := h.inRange _ he
    have hcap := bondSlotCount_le_cap cfg
    simp only [bondSlotFor, hfind, Option.map_some, Option.getD_some]
    simp only [bondSlotCap] at hcap
    omega
  hostedOnce e he :=
    List.count_eq_one_of_mem h.hosted ((h.same _).mp (List.mem_map_of_mem he))

/-- A bond of the host is found when it is to be removed. -/
theorem removable (h : Matched cfg s) {identity : Identity K} {slot : Nat}
    (hmem : (identity, slot) ∈ s.slots) :
    removeBondInformation s.host identity
      = some (s.host.filter fun b => b.identity ≠ identity) := by
  have hid : identity ∈ s.hosted := (h.same _).mp (List.mem_map_of_mem hmem)
  exact removeBondInformation_eq_some (List.mem_map.mp hid)

/-- The host has one bond for an identity. -/
theorem nodup_added (h : Matched cfg s) :
    ((addBondInformation s.host bond).map (·.identity)).Nodup := by
  rw [hosted_addBondInformation]
  exact List.nodup_cons.mpr ⟨by simp, h.hosted.filter _⟩

end Matched

/-- Some bond of the host has no slot. -/
def Orphaned (s : BondState K) : Prop := ∃ identity ∈ s.hosted, identity ∉ s.mapped

theorem Agrees.not_orphaned (h : Agrees s) : ¬ Orphaned s := by
  intro ⟨identity, hmem, hgone⟩
  apply hgone
  obtain ⟨b, hb, rfl⟩ := List.mem_map.mp hmem
  apply List.count_pos_iff.mp
  rw [h.mappedOnce b hb]
  exact Nat.one_pos

/-! ## Storing a bond -/

section Store

variable [HostKeys K]

omit [HostKeys K] in
/-- A slot of a mapped identity may get a new bond from the host. -/
theorem Matched.repaired (h : Matched cfg s) (hmem : bond.identity ∈ s.mapped) :
    Matched cfg { s with host := addBondInformation s.host bond } where
  mapped := h.mapped
  hosted := h.nodup_added
  same identity := by
    show identity ∈ s.mapped ↔ identity ∈ (addBondInformation s.host bond).map (·.identity)
    rw [hosted_addBondInformation, List.mem_cons, List.mem_filter, h.same identity]
    by_cases hid : identity = bond.identity
    · simpa [hid] using (h.same _).mp hmem
    · simp [hid, BondState.hosted]
  inRange := h.inRange
  unstored := h.unstored

omit [HostKeys K] in
/-- A new identity goes into both tables. -/
theorem Matched.added (h : Matched cfg s) (hnew : bond.identity ∉ s.mapped)
    (hstore : cfg.callbacks.onBondStore = true) (hroom : s.slots.length < bondSlotCount cfg)
    (storage : Nat → List UInt8) :
    Matched cfg
      { s with
        slots := s.slots ++ [(bond.identity, s.slots.length)]
        host := addBondInformation s.host bond
        storage } where
  mapped := by
    show (List.map _ _).Nodup
    rw [List.map_append]
    refine h.mapped.append (List.nodup_singleton _) ?_
    intro identity hold hadded
    rw [List.map_singleton, List.mem_singleton] at hadded
    rw [hadded] at hold
    exact hnew hold
  hosted := h.nodup_added
  same identity := by
    show identity ∈ List.map _ _ ↔ identity ∈ (addBondInformation s.host bond).map (·.identity)
    rw [hosted_addBondInformation, List.map_append, List.mem_append, List.mem_cons,
      List.mem_filter, show s.slots.map (·.1) = s.mapped from rfl, h.same identity]
    by_cases hid : identity = bond.identity
    · simp [hid]
    · simp [hid, BondState.hosted]
  inRange e he := by
    rcases List.mem_append.mp he with hold | hadded
    · exact h.inRange e hold
    · simpa [List.mem_singleton.mp hadded] using hroom
  unstored hno := by
    rw [hstore] at hno
    cases hno

theorem Matched.paired (h : Matched cfg s) (hok : Consistent cfg s (.paired bond)) :
    Matched cfg (bondStep cfg s (.paired bond)) := by
  simp only [bondStep]
  by_cases hmem : bond.identity ∈ s.mapped
  · have hhost := h.repaired hmem
    obtain ⟨slot, -, hfind⟩ := find?_of_mem_mapped h.mapped hmem
    unfold storeBond
    split
    · exact hhost
    split
    · exact hhost
    · rename_i hstore _
      simp only [placeBond, hfind]
      refine ⟨hhost.mapped, hhost.hosted, hhost.same, hhost.inRange, ?_⟩
      intro hno
      rw [hno] at hstore
      exact absurd rfl hstore
  · obtain ⟨hstore, hroom⟩ := hok.resolve_left hmem
    have hnew := ne_of_not_mem_mapped hmem
    have hplaced : storeBond cfg { s with host := addBondInformation s.host bond } bond =
        { s with
          slots := s.slots ++ [(bond.identity, s.slots.length)]
          host := addBondInformation s.host bond
          storage := Function.update s.storage s.slots.length (serializeBond bond) } := by
      simp [storeBond, hstore, (bondSlotCount_pos cfg).ne', placeBond_new hnew hroom]
    rw [hplaced]
    exact h.added hmem hstore hroom _

/-- A new bond that is not stored, or that takes the place of another in
the map, leaves a bond of the host without a slot. -/
theorem Matched.orphaned_paired (h : Matched cfg s) (hbad : ¬ Consistent cfg s (.paired bond)) :
    Orphaned (bondStep cfg s (.paired bond)) := by
  simp only [Consistent, not_or, not_and, Nat.not_lt] at hbad
  obtain ⟨hmem, hfull⟩ := hbad
  have hnew := ne_of_not_mem_mapped hmem
  cases hstore : cfg.callbacks.onBondStore with
  | false =>
      have hnop : bondStep cfg s (.paired bond)
          = { s with host := addBondInformation s.host bond } := by
        simp [bondStep, storeBond, hstore]
      rw [hnop]
      refine ⟨bond.identity, ?_, hmem⟩
      show _ ∈ (addBondInformation s.host bond).map (·.identity)
      rw [hosted_addBondInformation]
      exact List.mem_cons_self
  | true =>
      have hlength := hfull hstore
      obtain ⟨e, rest, hrest⟩ : ∃ e rest, s.slots = e :: rest := by
        refine List.exists_cons_of_ne_nil fun hnil => ?_
        rw [hnil] at hlength
        exact absurd (bondSlotCount_pos cfg) (Nat.not_lt.mpr hlength)
      have hfirst : e ∈ s.slots := hrest ▸ List.mem_cons_self
      have hother : e.1 ≠ bond.identity := hnew e hfirst
      have hreplaced : bondStep cfg s (.paired bond) =
          { s with
            slots := (bond.identity, 0) :: rest
            host := addBondInformation s.host bond
            storage := Function.update s.storage 0 (serializeBond bond) } := by
        rw [hrest] at hnew hlength
        simp [bondStep, storeBond, hstore, (bondSlotCount_pos cfg).ne', hrest,
          placeBond_full hnew hlength]
      rw [hreplaced]
      refine ⟨e.1, ?_, ?_⟩
      · -- the bond of the first entry stays with the host
        show _ ∈ (addBondInformation s.host bond).map (·.identity)
        rw [hosted_addBondInformation]
        refine List.mem_cons_of_mem _ (List.mem_filter.mpr ⟨?_, by simpa using hother⟩)
        exact (h.same _).mp (List.mem_map_of_mem hfirst)
      · have hunique := h.mapped
        simp only [BondState.mapped, hrest, List.map_cons, List.nodup_cons] at hunique
        simp only [BondState.mapped, List.map_cons, List.mem_cons, not_or]
        exact ⟨hother, hunique.1⟩

end Store

/-! ## Deleting a slot -/

section Delete

/-- The identity `delete_bond_slot` finds under the slot. -/
def slotOwner (s : BondState K) (index : Nat) : Option (Identity K) :=
  (s.slots.find? fun e => e.2 = index).map (·.1)

omit [DecidableEq K] in
theorem slotOwner_eq_some {identity : Identity K} (h : slotOwner s index = some identity) :
    (identity, index) ∈ s.slots := by
  obtain ⟨⟨name, slot⟩, hfind, hname⟩ := Option.map_eq_some_iff.mp h
  cases hname
  exact (mem_of_find?_snd hfind).1

omit [DecidableEq K] in
theorem exists_slotOwner {e : Identity K × Nat} (he : e ∈ s.slots) :
    ∃ identity, slotOwner s e.2 = some identity := by
  have hsome : (s.slots.find? fun e' => e'.2 = e.2).isSome :=
    List.find?_isSome.mpr ⟨e, he, by simp⟩
  obtain ⟨e', hfind⟩ := Option.isSome_iff_exists.mp hsome
  exact ⟨e'.1, by rw [slotOwner, hfind, Option.map_some]⟩

/-- What a delete does when the owner of the slot, if any, is in the host's
table. -/
theorem Matched.deleteBondSlot_eq (h : Matched cfg s) (index : Nat) :
    (deleteBondSlot cfg s index).slots = s.slots.filter (fun e => e.2 ≠ index) ∧
    (deleteBondSlot cfg s index).hosted
      = s.hosted.filter (fun i => slotOwner s index ≠ some i) ∧
    (deleteBondSlot cfg s index).storage = (clearBondSlot cfg index s).storage := by
  unfold deleteBondSlot slotOwner
  cases hfind : s.slots.find? fun e => e.2 = index with
  | none =>
      have hfree : ∀ e ∈ s.slots, e.2 ≠ index := by simpa [List.find?_eq_none] using hfind
      refine ⟨?_, ?_, by simp⟩
      · simpa using (List.filter_eq_self.mpr fun e he => by simpa using hfree e he).symm
      · simp [BondState.hosted]
  | some e =>
      obtain ⟨identity, slot⟩ := e
      obtain ⟨hmem, -⟩ := mem_of_find?_snd hfind
      simp only [h.removable hmem]
      refine ⟨by simp, ?_, by simp [clearBondSlot_storage]⟩
      simp only [BondState.hosted, completeBondDelete_host, clearBondSlot_host, hosted_filter,
        Option.map_some]
      refine List.filter_congr fun i _ => ?_
      simp [eq_comm]

omit [DecidableEq K] in
/-- The entries of a slot are the owner's, when the slot has one entry. -/
theorem Matched.slot_iff_owner (h : Matched cfg s) (halone : Unshared s index)
    {e : Identity K × Nat} (he : e ∈ s.slots) :
    e.2 = index ↔ slotOwner s index = some e.1 := by
  constructor
  · rintro rfl
    obtain ⟨identity, howner⟩ := exists_slotOwner he
    rw [howner, halone e he _ (slotOwner_eq_some howner) rfl rfl]
  · intro howner
    have hsame := List.inj_on_of_nodup_map h.mapped he (slotOwner_eq_some howner) rfl
    rw [hsame]

theorem Matched.deleted (h : Matched cfg s) (halone : Unshared s index) :
    Matched cfg (deleteBondSlot cfg s index) := by
  obtain ⟨hslots, hhosted, hstorage⟩ := h.deleteBondSlot_eq index
  have hmapped : (deleteBondSlot cfg s index).mapped
      = s.mapped.filter fun i => slotOwner s index ≠ some i := by
    rw [BondState.mapped, hslots, BondState.mapped, List.filter_map]
    refine congrArg _ (List.filter_congr fun e he => ?_)
    simp [h.slot_iff_owner halone he]
  constructor
  · rw [hmapped]
    exact h.mapped.filter _
  · rw [hhosted]
    exact h.hosted.filter _
  · intro identity
    rw [hmapped, hhosted, List.mem_filter, List.mem_filter, h.same]
  · intro e he
    rw [hslots] at he
    exact h.inRange e (List.mem_of_mem_filter he)
  · intro hno i
    rw [hstorage, clearBondSlot_storage, hno]
    exact h.unstored hno i

/-- Of two entries under one slot the owner's bond is removed, and the
other one's stays. -/
theorem Matched.orphaned_deleted (h : Matched cfg s) (hshared : ¬ Unshared s index) :
    Orphaned (deleteBondSlot cfg s index) := by
  obtain ⟨hslots, hhosted, -⟩ := h.deleteBondSlot_eq index
  obtain ⟨e, he, hslot, hother⟩ :
      ∃ e ∈ s.slots, e.2 = index ∧ slotOwner s index ≠ some e.1 := by
    by_contra hnone
    refine hshared fun e he e' he' hslot hslot' => ?_
    have howner : ∀ e ∈ s.slots, e.2 = index → slotOwner s index = some e.1 := by
      intro e he hslot
      by_contra hne
      exact hnone ⟨e, he, hslot, hne⟩
    have hname := (howner e he hslot).symm.trans (howner e' he' hslot')
    exact List.inj_on_of_nodup_map h.mapped he he' (Option.some.inj hname)
  refine ⟨e.1, ?_, ?_⟩
  · rw [hhosted, List.mem_filter]
    exact ⟨(h.same _).mp (List.mem_map_of_mem he), by simpa using hother⟩
  · intro hstill
    rw [BondState.mapped, hslots] at hstill
    obtain ⟨e', he', hname⟩ := List.mem_map.mp hstill
    obtain ⟨hold, hkept⟩ := List.mem_filter.mp he'
    rw [List.inj_on_of_nodup_map h.mapped hold he hname] at hkept
    simp [hslot] at hkept

/-- No delete removes a bond that has no slot. -/
theorem Orphaned.deleteBondSlot (h : Orphaned s) (index : Nat) :
    Orphaned (deleteBondSlot cfg s index) := by
  obtain ⟨identity, hhosted, hgone⟩ := h
  unfold Bond.deleteBondSlot
  cases hfind : s.slots.find? fun e => e.2 = index with
  | none =>
      refine ⟨identity, ?_, ?_⟩
      · simpa [BondState.hosted] using hhosted
      · simpa [BondState.mapped] using hgone
  | some e =>
      obtain ⟨owner, slot⟩ := e
      obtain ⟨hmem, -⟩ := mem_of_find?_snd hfind
      have hne : identity ≠ owner := by
        rintro rfl
        exact hgone (List.mem_map_of_mem hmem)
      simp only [removeBondInformation]
      split
      · rename_i hremove
        split at hremove
        · cases hremove
        · refine ⟨identity, ?_, ?_⟩
          · simpa [BondState.hosted] using hhosted
          · simpa [BondState.mapped] using hgone
      · rename_i host hremove
        split at hremove
        · cases hremove
          refine ⟨identity, ?_, ?_⟩
          · simp only [BondState.hosted, completeBondDelete_host, clearBondSlot_host,
              hosted_filter]
            exact List.mem_filter.mpr ⟨hhosted, by simpa using hne⟩
          · simp only [BondState.mapped, completeBondDelete_slots, clearBondSlot_slots]
            exact fun hstill => hgone ((List.filter_sublist.map _).mem hstill)
        · cases hremove

end Delete

/-! ## Deleting every slot -/

section DeleteAll

theorem Matched.unshared_deleted (h : Matched cfg s) {i : Nat} (halone : Unshared s i) :
    Unshared (deleteBondSlot cfg s index) i := by
  intro e he e' he'
  rw [(h.deleteBondSlot_eq index).1] at he he'
  exact halone e (List.mem_of_mem_filter he) e' (List.mem_of_mem_filter he')

/-- A delete leaves the entries of the other slots. -/
theorem Matched.shared_deleted (h : Matched cfg s) {i : Nat} (hne : i ≠ index)
    (hshared : ¬ Unshared s i) : ¬ Unshared (deleteBondSlot cfg s index) i := by
  intro halone
  refine hshared fun e he e' he' hslot hslot' => ?_
  have hkept : ∀ e ∈ s.slots, e.2 = i → e ∈ (deleteBondSlot cfg s index).slots := by
    intro e he hslot
    rw [(h.deleteBondSlot_eq index).1, List.mem_filter]
    exact ⟨he, by simpa [hslot] using hne⟩
  exact halone e (hkept e he hslot) e' (hkept e' he' hslot') hslot hslot'

/-- The loop of `BCMD_DELETE_ALL` leaves a bond without a slot as soon as
one of its slots has two entries. -/
theorem orphaned_deleteAll {indices : List Nat} :
    ∀ {s : BondState K}, Matched cfg s → (∃ i ∈ indices, ¬ Unshared s i) →
      Orphaned (indices.foldl (deleteBondSlot cfg) s) := by
  induction indices with
  | nil =>
      intro s _ hshared
      obtain ⟨i, hi, -⟩ := hshared
      cases hi
  | cons index rest ih =>
      intro s h hshared
      by_cases halone : Unshared s index
      · obtain ⟨i, hi, hbad⟩ := hshared
        have hne : i ≠ index := by
          rintro rfl
          exact hbad halone
        have hrest : i ∈ rest := (List.mem_cons.mp hi).resolve_left hne
        exact ih (h.deleted halone) ⟨i, hrest, h.shared_deleted hne hbad⟩
      · rw [List.foldl_cons]
        exact List.foldlRecOn _ _ (h.orphaned_deleted halone) fun t ht j _ => ht.deleteBondSlot j

/-- The loop after `k` rounds. -/
structure Swept (cfg : RuntimeCfg) (k : Nat) (s : BondState K) : Prop extends Matched cfg s where
  alone : ∀ i < bondSlotCount cfg, Unshared s i
  above : ∀ e ∈ s.slots, k ≤ e.2
  cleared : ∀ i < k, s.storage i = []

theorem Swept.next {k : Nat} (h : Swept cfg k s) (hk : k < bondSlotCount cfg) :
    Swept cfg (k + 1) (deleteBondSlot cfg s k) := by
  obtain ⟨hslots, -, hstorage⟩ := h.deleteBondSlot_eq k
  refine ⟨h.deleted (h.alone k hk), fun i hi => h.unshared_deleted (h.alone i hi), ?_, ?_⟩
  · intro e he
    rw [hslots, List.mem_filter] at he
    have hge := h.above e he.1
    have hne : e.2 ≠ k := by simpa using he.2
    omega
  · intro i hi
    rw [hstorage, clearBondSlot_storage]
    cases hstore : cfg.callbacks.onBondStore with
    | false => exact h.unstored hstore i
    | true =>
        by_cases hik : i = k
        · simp [hik]
        · simpa [hik] using h.cleared i (by omega)

theorem Matched.swept (h : Matched cfg s) (halone : ∀ i < bondSlotCount cfg, Unshared s i) :
    ∀ k ≤ bondSlotCount cfg, Swept cfg k ((List.range k).foldl (deleteBondSlot cfg) s) := by
  intro k
  induction k with
  | zero =>
      intro _
      exact { h with alone := halone, above := fun _ _ => Nat.zero_le _, cleared := by simp }
  | succ k ih =>
      intro hk
      rw [List.range_succ, List.foldl_append]
      exact (ih (Nat.le_of_succ_le hk)).next hk

omit [DecidableEq K] in
theorem persistedBond_of_empty [HostKeys K] {storage : Nat → List UInt8} {i : Nat}
    (h : storage i = []) : (persistedBond storage i : Option (BondInformation K)) = none := by
  simp only [persistedBond, onBondLoad, h, List.take_nil]
  rfl

/-- Nothing is restored from a storage with every slot cleared. -/
theorem restoreBonds_cleared [HostKeys K] {storage : Nat → List UInt8}
    (h : ∀ i < bondSlotCount cfg, storage i = []) :
    restoreBonds cfg (BondState.boot storage : BondState K) = BondState.boot storage := by
  unfold restoreBonds
  split
  · refine List.foldlRecOn (motive := fun t => t = BondState.boot storage) _ _ rfl ?_
    rintro t rfl i hi
    have hnone := persistedBond_of_empty (K := K) (h i (List.mem_range.mp hi))
    simp only [restoreSlot, show (BondState.boot storage : BondState K).storage = storage from rfl,
      hnone]
  · rfl

end DeleteAll

/-! ## Runs -/

section Runs

variable [HostKeys K]

theorem matched_bondStep (op : BondOp K) (h : Matched cfg s) (hok : Consistent cfg s op) :
    Matched cfg (bondStep cfg s op) := by
  cases op with
  | paired bond => exact h.paired hok
  | delete index => exact h.deleted hok
  | deleteAll => exact (h.swept hok _ le_rfl).toMatched

/-- No other step keeps the tables in agreement. -/
theorem consistent_of_agrees (op : BondOp K) (h : Matched cfg s)
    (hnext : Agrees (bondStep cfg s op)) : Consistent cfg s op := by
  by_contra hbad
  apply hnext.not_orphaned
  cases op with
  | paired bond => exact h.orphaned_paired hbad
  | delete index => exact h.orphaned_deleted hbad
  | deleteAll =>
      apply orphaned_deleteAll h
      simpa [Consistent] using hbad

theorem deletesAll_of_consistent (op : BondOp K) (h : Matched cfg s)
    (hok : Consistent cfg s op) : DeletesAll cfg s op := by
  cases op with
  | paired bond => trivial
  | delete index => trivial
  | deleteAll =>
      have hswept := h.swept hok _ le_rfl
      have hslots : (bondStep cfg s .deleteAll).slots = [] := by
        refine List.eq_nil_iff_forall_not_mem.mpr fun e he => ?_
        exact Nat.not_lt.mpr (hswept.above e he) (hswept.inRange e he)
      have hhost : (bondStep cfg s .deleteAll).host = [] := by
        refine List.eq_nil_iff_forall_not_mem.mpr fun b hb => ?_
        have hmem := (hswept.same b.identity).mpr (List.mem_map_of_mem hb)
        obtain ⟨e, he, -⟩ := List.mem_map.mp hmem
        exact List.not_mem_nil (hslots ▸ he)
      have hrestored : restoreBonds cfg (BondState.boot (bondStep cfg s .deleteAll).storage)
          = (BondState.boot _ : BondState K) := restoreBonds_cleared hswept.cleared
      refine ⟨hslots, hhost, hswept.cleared, ?_, ?_⟩
      · rw [hrestored]
        rfl
      · rw [hrestored]
        rfl

/-- **The host's table and the slot map agree in every state, and
delete-all leaves nothing, exactly in the sessions** in which every new
bond is stored into a map with room for it and no slot with two entries is
deleted. -/
theorem agree_iff_consistent (cfg : RuntimeCfg) (ops : List (BondOp K)) :
    (Always (bondStep cfg) Agrees (BondState.boot fun _ => []) ops
        ∧ EachStep (bondStep cfg) (DeletesAll cfg) (BondState.boot fun _ => []) ops)
      ↔ EachStep (bondStep cfg) (Consistent cfg) (BondState.boot fun _ => []) ops := by
  have hiff := always_iff_eachStep (fun s (h : Matched cfg s) => h.agrees)
    (fun s op h hok => matched_bondStep op h hok)
    (fun s op h hnext => consistent_of_agrees op h hnext) ops _ matched_boot
  refine ⟨fun h => hiff.mp h.1, fun hok => ⟨hiff.mpr hok, ?_⟩⟩
  have hmatched : Always (bondStep cfg) (Matched cfg) _ ops :=
    EachStep.always (fun s op h hok => matched_bondStep op h hok) matched_boot hok
  exact EachStep.mono (P := Matched cfg) (fun s op h hok => deletesAll_of_consistent op h hok)
    hmatched hok

end Runs

/-! ## One slot, two peers -/

section OneSlot

/-- Room for one bond. -/
def oneSlotCfg : RuntimeCfg := { storingCfg with bondSlotCount := 1 }

/-- The second pairing leaves the first peer's bond with the host, where
delete-all does not find it. -/
theorem eviction_not_agreed :
    ¬ Always (bondStep oneSlotCfg) Agrees (BondState.boot fun _ => [])
        [.paired (peerBond 0xA0), .paired (peerBond 0xB0)] ∧
    ¬ EachStep (bondStep oneSlotCfg) (DeletesAll oneSlotCfg) (BondState.boot fun _ => [])
        [.paired (peerBond 0xA0), .paired (peerBond 0xB0), .deleteAll] := by
  constructor
  · intro ⟨_, _, hlast⟩
    have honce := hlast.mappedOnce (peerBond 0xA0) (by decide)
    exact absurd honce (by decide)
  · intro ⟨_, _, hdeletes, _⟩
    exact absurd hdeletes.2.1 (by decide)

end OneSlot

end RuntimeBle.Bond
