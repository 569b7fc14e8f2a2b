import RuntimeBle.Bond.Codec
import RuntimeBle.Bond.Coherence
import RuntimeBle.Lib.Bounded
import RuntimeBle.Lib.Dialogue

/-!
# Bond — Restore

`restore_bonds` as a dialogue: with the application, which is called for the
blob of each slot, and with the host, which takes a bond or does not. An
access out of range ends it with an error.

`restoreBonds` is the run in which the application reads its storage and the
host takes every bond.
-/

namespace RuntimeBle.Bond

open RuntimeBle.Lib

variable {K : Type}

/-! ## The dialogue -/

/-- `on_bond_load` with a buffer of zeros, and `add_bond_information`. -/
inductive RestoreQuery (K : Type) where
  | load (index : Nat)
  | add (bond : BondInformation K)

/-- The application leaves the buffer as it likes, and returns any length. -/
def RestoreQuery.Answer : RestoreQuery K → Type
  | load _ => Bytes bondBlobLen × Nat
  | add _ => Bool

/-- What restoring asks, and the map it comes to. -/
abbrev RestoreDialogue (K : Type) :=
  Dialogue (RestoreQuery K) RestoreQuery.Answer String (Except OutOfRange (SlotMap K))

/-- A line of its transcript. -/
abbrev RestoreLine (K : Type) := Dialogue.Line (RestoreQuery K) RestoreQuery.Answer String

/-- `&blob[..len]`. -/
def sliceTo (blob : List UInt8) (len : Nat) : Except OutOfRange (List UInt8) :=
  if len ≤ blob.length then .ok (blob.take len) else .error .outOfRange

/-- What is logged for a blob that is no bond. -/
def invalidBlobLine : String := "[security] ignored invalid bond blob"

section Asked

variable [HostKeys K]

/-- The rest of a round, with the answer of `on_bond_load`. -/
def restoreLoaded (index : Nat) (slots : SlotMap K) (blob : Bytes bondBlobLen) (returned : Nat) :
    RestoreDialogue K :=
  let len := min returned blob.size
  if len = 0 then .ret (.ok slots)
  else
    match sliceTo blob.toList len >>= readBond with
    | .error e => .ret (.error e)
    | .ok none => .emit invalidBlobLine (.ret (.ok slots))
    | .ok (some bond) =>
        .ask (.add bond) fun (isOk : Bool) =>
          .ret (.ok (if isOk then pushSlot slots (bond.identity, index) else slots))

/-- One turn of the loop over the slots. -/
def restoreRound (index : Nat) : Except OutOfRange (SlotMap K) → RestoreDialogue K
  | .error e => .ret (.error e)
  | .ok slots => .ask (.load index) fun (blob, returned) => restoreLoaded index slots blob returned

/-- `restore_bonds`, if the application loads bonds at all. -/
def restoreAsked (K : Type) [HostKeys K] (cfg : RuntimeCfg) : RestoreDialogue K :=
  if cfg.callbacks.onBondLoad then
    .forEach (List.range (bondSlotCount cfg)) (.ok []) restoreRound
  else .ret (.ok [])

end Asked

/-! ## What a run has -/

/-- The slot that a line asks for. -/
def queriedOf : RestoreLine K → Option Nat
  | .answered (.load index) _ => some index
  | _ => none

/-- The identity of a bond that the host has taken. -/
def acceptedOf : RestoreLine K → Option (Identity K)
  | .answered (.add bond) true => some bond.identity
  | _ => none

/-- A slot has been loaded, and its bond taken. -/
def Accepts [HostKeys K] (ls : List (RestoreLine K)) (identity : Identity K) (index : Nat) : Prop :=
  ∃ (blob : Bytes bondBlobLen) (returned : Nat) (bond : BondInformation K),
    deserializeBond (blob.toList.take returned) = some bond ∧ bond.identity = identity
    ∧ [.answered (.load index) (blob, returned), .answered (.add bond) true] <:+: ls

/-- A slot has been loaded, and its bond put to the host. -/
def Offers (ls : List (RestoreLine K)) (index : Nat) (blob : Bytes bondBlobLen) (returned : Nat)
    (bond : BondInformation K) : Prop :=
  ∃ isOk : Bool, [.answered (.load index) (blob, returned), .answered (.add bond) isOk] <:+: ls

/-- The slots `indices` are loaded once each and in their order; the bond of
each valid blob is put to the host; and the map has what the host has taken,
in the order it has, each under its slot. -/
structure Restored [HostKeys K] (indices : List Nat) (ls : List (RestoreLine K))
    (slots : SlotMap K) : Prop where
  queries : ls.filterMap queriedOf = indices
  offered : ∀ index blob returned bond, .answered (.load index) (blob, returned) ∈ ls →
    deserializeBond (blob.toList.take returned) = some bond → Offers ls index blob returned bond
  recorded : slots.map (·.1) = ls.filterMap acceptedOf
  entries : ∀ identity index, (identity, index) ∈ slots ↔ Accepts ls identity index
  increasing : slots.Pairwise fun e e' => e.2 < e'.2

/-! ## One round -/

section Rounds

/-- Two neighbours in a list that goes on with `c` are so before it, or not
before it. -/
theorem infix_pair_append {α : Type} {a b c : α} {l l' : List α} (hb : b ≠ c)
    (h : [a, b] <:+: l ++ c :: l') : [a, b] <:+: l ∨ [a, b] <:+: c :: l' := by
  induction l with
  | nil => exact .inr h
  | cons x l ih =>
      rcases List.infix_cons_iff.mp h with hhead | htail
      · refine .inl ?_
        obtain ⟨rfl, hnext⟩ := List.cons_prefix_cons.mp hhead
        cases l with
        | nil => exact absurd (List.cons_prefix_cons.mp hnext).1 hb
        | cons y l =>
            obtain ⟨rfl, -⟩ := List.cons_prefix_cons.mp hnext
            exact ⟨[], l, rfl⟩
      · rcases ih htail with hl | hl'
        · exact .inl (List.infix_cons hl)
        · exact .inr hl'

variable [HostKeys K] {indices : List Nat} {index : Nat} {ls ls' : List (RestoreLine K)}
  {slots added : SlotMap K} {blob : Bytes bondBlobLen} {returned : Nat} {identity : Identity K}

theorem Accepts.append_left (h : Accepts ls identity index) :
    Accepts (ls ++ ls') identity index := by
  obtain ⟨blob, returned, bond, hblob, hid, hls⟩ := h
  exact ⟨blob, returned, bond, hblob, hid, hls.trans (List.prefix_append ls ls').isInfix⟩

theorem Accepts.append_right (h : Accepts ls' identity index) :
    Accepts (ls ++ ls') identity index := by
  obtain ⟨blob, returned, bond, hblob, hid, hls⟩ := h
  exact ⟨blob, returned, bond, hblob, hid, hls.trans (List.suffix_append ls ls').isInfix⟩

omit [HostKeys K] in
theorem Offers.append_left {bond : BondInformation K} (h : Offers ls index blob returned bond) :
    Offers (ls ++ ls') index blob returned bond := by
  obtain ⟨isOk, hls⟩ := h
  exact ⟨isOk, hls.trans (List.prefix_append ls ls').isInfix⟩

omit [HostKeys K] in
theorem Offers.append_right {bond : BondInformation K} (h : Offers ls' index blob returned bond) :
    Offers (ls ++ ls') index blob returned bond := by
  obtain ⟨isOk, hls⟩ := h
  exact ⟨isOk, hls.trans (List.suffix_append ls ls').isInfix⟩

/-- A round begins with its query: no load is answered by the next one. -/
theorem accepts_append_iff {i : Nat} :
    Accepts (ls ++ .answered (.load i) (blob, returned) :: ls') identity index
      ↔ Accepts ls identity index
        ∨ Accepts (.answered (.load i) (blob, returned) :: ls') identity index := by
  constructor
  · rintro ⟨blob', returned', bond, hblob, hid, hls⟩
    rcases infix_pair_append (fun heq => by cases heq) hls with hls | hls
    · exact .inl ⟨blob', returned', bond, hblob, hid, hls⟩
    · exact .inr ⟨blob', returned', bond, hblob, hid, hls⟩
  · rintro (h | h)
    · exact h.append_left
    · exact h.append_right

theorem Restored.append {i : Nat} (h : Restored indices ls slots)
    (h' : Restored [i] (.answered (.load i) (blob, returned) :: ls') added)
    (hlt : ∀ e ∈ slots, e.2 < i) (hadded : ∀ e ∈ added, e.2 = i) :
    Restored (indices ++ [i]) (ls ++ .answered (.load i) (blob, returned) :: ls')
      (slots ++ added) where
  queries := by rw [List.filterMap_append, h.queries, h'.queries]
  offered index blob' returned' bond hmem hbond := by
    rcases List.mem_append.mp hmem with hmem | hmem
    · exact (h.offered index blob' returned' bond hmem hbond).append_left
    · exact (h'.offered index blob' returned' bond hmem hbond).append_right
  recorded := by rw [List.map_append, List.filterMap_append, h.recorded, h'.recorded]
  entries identity index := by
    rw [List.mem_append, accepts_append_iff, h.entries, h'.entries]
  increasing := by
    refine List.pairwise_append.mpr ⟨h.increasing, h'.increasing, fun e he e' he' => ?_⟩
    rw [hadded e' he']
    exact hlt e he

/-- The blob that is parsed, and that no access of it is out of range. -/
theorem slice_readBond :
    sliceTo blob.toList (min returned blob.size) >>= readBond
      = .ok (deserializeBond (blob.toList.take returned) : Option (BondInformation K)) := by
  have hlen : blob.toList.length = blob.size := Vector.length_toList ..
  have htake : blob.toList.take (min returned blob.size) = blob.toList.take returned := by
    rw [List.take_eq_take_iff, hlen, Nat.min_assoc, Nat.min_self]
  rw [sliceTo, if_pos (by rw [hlen]; exact Nat.min_le_right ..), htake]
  exact readBond_eq _

/-- It takes two lines to take a bond. -/
theorem not_accepts (h : ls.length < 2) (identity : Identity K) (i : Nat) :
    ¬ Accepts ls identity i := by
  rintro ⟨blob, returned, bond, -, -, hls⟩
  exact absurd hls.length_le (Nat.not_le.mpr h)

theorem restored_nothing (hqueries : ls.filterMap queriedOf = indices)
    (hoffered : ∀ index blob returned bond, .answered (.load index) (blob, returned) ∈ ls →
      deserializeBond (blob.toList.take returned) = some bond →
      Offers ls index blob returned bond)
    (hnone : ls.filterMap acceptedOf = []) (haccepts : ∀ identity i, ¬ Accepts ls identity i) :
    Restored indices ls ([] : SlotMap K) :=
  ⟨hqueries, hoffered, hnone.symm, fun identity i => by simp [haccepts], .nil⟩

/-- The one load of a round, whose blob is not valid. -/
theorem offered_of_invalid {lines : List (RestoreLine K)}
    (hbond : (deserializeBond (blob.toList.take returned) : Option (BondInformation K)) = none)
    (hlines : lines.filterMap queriedOf = []) :
    ∀ i blob' returned' bond, .answered (.load i) (blob', returned')
        ∈ (.answered (.load index) (blob, returned) :: lines : List (RestoreLine K)) →
      deserializeBond (blob'.toList.take returned') = some bond →
      Offers (.answered (.load index) (blob, returned) :: lines) i blob' returned' bond := by
  intro i blob' returned' bond hmem hsome
  rcases List.mem_cons.mp hmem with heq | hmem
  · cases heq
    rw [hbond] at hsome
    cases hsome
  · have hquery : i ∈ lines.filterMap queriedOf := List.mem_filterMap.mpr ⟨_, hmem, rfl⟩
    rw [hlines] at hquery
    cases hquery

/-- The one load of a round, whose bond is put to the host. -/
theorem offered_of_add {bond : BondInformation K} {isOk : Bool}
    (hbond : deserializeBond (blob.toList.take returned) = some bond) :
    ∀ i blob' returned' bond', .answered (.load i) (blob', returned')
        ∈ ([.answered (.load index) (blob, returned), .answered (.add bond) isOk]
            : List (RestoreLine K)) →
      deserializeBond (blob'.toList.take returned') = some bond' →
      Offers [.answered (.load index) (blob, returned), .answered (.add bond) isOk]
        i blob' returned' bond' := by
  intro i blob' returned' bond' hmem hsome
  rcases List.mem_cons.mp hmem with heq | hmem
  · cases heq
    cases hbond.symm.trans hsome
    exact ⟨isOk, List.infix_rfl⟩
  · cases List.mem_singleton.mp hmem

/-- What a round does: it begins with its load, and adds at most the entry of
its slot. -/
theorem restoreRound_ensures (hroom : slots.length < bondSlotCap) :
    (restoreRound index (.ok slots)).Ensures fun ls r =>
      ∃ (blob : Bytes bondBlobLen) (returned : Nat) (rest : List (RestoreLine K))
        (added : SlotMap K),
        ls = .answered (.load index) (blob, returned) :: rest ∧ r = .ok (slots ++ added)
        ∧ Restored [index] ls added ∧ (added.map (·.2)).Sublist [index] := by
  refine .ask fun (blob, returned) => ?_
  show (restoreLoaded index slots blob returned).Ensures _
  rw [restoreLoaded]
  split
  · rename_i hempty
    -- the length is cut to the buffer, and 0 all the same: nothing was returned
    have hsize : blob.size = 53 := rfl
    have hreturned : returned = 0 := by omega
    subst hreturned
    refine .ret ⟨blob, 0, [], [], rfl, ?_,
      restored_nothing rfl (offered_of_invalid rfl rfl) rfl (not_accepts (by simp)),
      .cons _ .slnil⟩
    rw [List.append_nil]
  · rw [slice_readBond]
    cases hbond : (deserializeBond (blob.toList.take returned) : Option (BondInformation K)) with
    | none =>
        -- no bond: one line, and no question
        refine .emit (.ret ⟨blob, returned, [.said invalidBlobLine], [], rfl, ?_,
          restored_nothing rfl (offered_of_invalid hbond rfl) rfl ?_, .cons _ .slnil⟩)
        · rw [List.append_nil]
        · rintro identity i ⟨blob', returned', bond, -, -, hls⟩
          have heq := hls.eq_of_length rfl
          cases heq
    | some bond =>
        -- a bond: it is put to the host, which takes it or not
        refine .ask fun isOk => .ret ?_
        cases isOk with
        | false =>
            refine ⟨blob, returned, [.answered (.add bond) false], [], rfl, ?_,
              restored_nothing rfl (offered_of_add hbond) rfl ?_, .cons _ .slnil⟩
            · simp
            · rintro identity i ⟨blob', returned', bond', -, -, hls⟩
              have heq := hls.eq_of_length rfl
              cases heq
        | true =>
            refine ⟨blob, returned, [.answered (.add bond) true], [(bond.identity, index)], rfl,
              ?_, ⟨rfl, offered_of_add hbond, rfl, fun identity i => ?_,
                List.pairwise_singleton ..⟩, .refl _⟩
            · exact congrArg Except.ok (if_pos hroom)
            · constructor
              · intro hmem
                cases List.mem_singleton.mp hmem
                exact ⟨blob, returned, bond, hbond, rfl, List.infix_rfl⟩
              · rintro ⟨blob', returned', bond', -, rfl, hls⟩
                have heq := hls.eq_of_length rfl
                cases heq
                exact List.mem_singleton_self _

end Rounds

/-! ## The whole of it -/

theorem restored_nil [HostKeys K] : Restored [] ([] : List (RestoreLine K)) [] :=
  restored_nothing rfl (fun _ _ _ _ hmem => absurd hmem List.not_mem_nil) rfl
    (not_accepts (by simp))

/-- The loop over the slots: those that have an entry are among the loaded
ones, in their order, so that the map has room for one more. -/
theorem restoreLoop_ensures [HostKeys K] (cfg : RuntimeCfg) :
    (Dialogue.forEach (List.range (bondSlotCount cfg)) (Except.ok []) restoreRound).Ensures
      fun ls r => ∃ slots : SlotMap K, r = .ok slots ∧
        Restored (List.range (bondSlotCount cfg)) ls slots ∧
        (slots.map (·.2)).Sublist (List.range (bondSlotCount cfg)) := by
  refine Dialogue.Ensures.forEach
    (fun done ls r => ∃ slots : SlotMap K, r = Except.ok slots ∧ Restored done ls slots ∧
      (slots.map (·.2)).Sublist done) ⟨[], rfl, restored_nil, .slnil⟩ ?_
  rintro done index left ls _ hrange ⟨slots, rfl, hrestored, hsub⟩
  have hlt : ∀ i ∈ done, i < index := by
    have hsorted := List.pairwise_lt_range (n := bondSlotCount cfg)
    rw [hrange] at hsorted
    exact fun i hi => (List.pairwise_append.mp hsorted).2.2 i hi index List.mem_cons_self
  have hroom : slots.length < bondSlotCap := by
    have hlen := congrArg List.length hrange
    have hle := hsub.length_le
    have hcap := bondSlotCount_le_cap cfg
    simp only [List.length_range, List.length_append, List.length_cons, List.length_map]
      at hlen hle
    omega
  refine (restoreRound_ensures hroom).mono ?_
  rintro ls' _ ⟨blob, returned, rest, added, rfl, rfl, hround, hadded⟩
  refine ⟨slots ++ added, rfl, hrestored.append hround ?_ ?_, ?_⟩
  · exact fun e he => hlt _ (hsub.subset (List.mem_map_of_mem he))
  · exact fun e he => List.mem_singleton.mp (hadded.subset (List.mem_map_of_mem he))
  · rw [List.map_append]
    exact hsub.append hadded

/-- **Restore copes with any storage.** Whatever the application and the
host answer, no access is out of range, the slots are loaded once each in
their order, the bond of each valid blob is put to the host, and the map has
exactly what the host has taken. -/
theorem restore_robust [HostKeys K] (cfg : RuntimeCfg) {ls : List (RestoreLine K)}
    {r : Except OutOfRange (SlotMap K)} (h : (restoreAsked K cfg).Plays ls (.ret r)) :
    ∃ slots, r = .ok slots ∧ slots.length ≤ bondSlotCap ∧
      Restored (if cfg.callbacks.onBondLoad then List.range (bondSlotCount cfg) else []) ls slots
      := by
  unfold restoreAsked at h
  split at h
  · rename_i hset
    rw [if_pos hset]
    obtain ⟨slots, hslots, hrestored, hsub⟩ := restoreLoop_ensures cfg ls r h
    have hlen := hsub.length_le
    have hcap := bondSlotCount_le_cap cfg
    rw [List.length_map, List.length_range] at hlen
    exact ⟨slots, hslots, Nat.le_trans hlen hcap, hrestored⟩
  · rename_i hunset
    obtain ⟨rfl, rfl⟩ := Dialogue.plays_ret h
    rw [if_neg hunset]
    exact ⟨[], rfl, Nat.zero_le _, restored_nil⟩

/-! ## From a storage -/

/-- The application copies a slot of its storage, as much as the buffer
holds, and the host takes every bond. -/
def storageAnswers (storage : Nat → List UInt8) : (q : RestoreQuery K) → q.Answer
  | .load index => (Vector.ofFn fun i => (storage index).getD i 0, (storage index).length)
  | .add _ => true

section Storage

variable [HostKeys K] {storage : Nat → List UInt8}

theorem take_copied (bytes : List UInt8) :
    (Vector.ofFn fun i : Fin bondBlobLen => bytes.getD i 0).toList.take bytes.length
      = bytes.take bondBlobLen := by
  refine List.ext_getElem ?_ fun i hi hi' => ?_
  · simp [Nat.min_comm]
  · have hlen : i < bytes.length := by
      simp only [List.length_take] at hi'
      omega
    simp [List.getElem_take, hlen]

theorem run_restoreLoaded (index : Nat) (slots : SlotMap K) (blob : Bytes bondBlobLen)
    (returned : Nat) :
    ((restoreLoaded index slots blob returned).run (storageAnswers storage)).2
      = .ok (match (deserializeBond (blob.toList.take returned) : Option (BondInformation K)) with
        | none => slots
        | some bond => pushSlot slots (bond.identity, index)) := by
  rw [restoreLoaded]
  split
  · rename_i hempty
    have hreturned : returned = 0 := by
      have hsize : blob.size = 53 := rfl
      omega
    rw [hreturned]
    rfl
  · rw [slice_readBond]
    cases (deserializeBond (blob.toList.take returned) : Option (BondInformation K)) <;> rfl

variable [DecidableEq K]

theorem restoreSlot_storage (s : BondState K) (index : Nat) :
    (restoreSlot s index).storage = s.storage := by
  unfold restoreSlot
  split <;> rfl

theorem run_restoreRound {s : BondState K} (hs : s.storage = storage) (index : Nat) :
    ((restoreRound index (.ok s.slots)).run (storageAnswers storage)).2
      = .ok (restoreSlot s index).slots := by
  have hbond : (deserializeBond ((Vector.ofFn fun i : Fin bondBlobLen =>
      (storage index).getD i 0).toList.take (storage index).length) : Option (BondInformation K))
      = persistedBond s.storage index := by
    rw [take_copied, persistedBond, onBondLoad, hs]
  apply (run_restoreLoaded index s.slots _ _).trans
  rw [hbond, restoreSlot]
  cases (persistedBond s.storage index : Option (BondInformation K)) <;> rfl

/-- **`restoreBonds` is a run of it.** -/
theorem restore_from_storage (cfg : RuntimeCfg) :
    ((restoreAsked K cfg).run (storageAnswers storage)).2
      = .ok (restoreBonds cfg (BondState.boot storage : BondState K)).slots := by
  have hrounds : ∀ (indices : List Nat) (s : BondState K), s.storage = storage →
      indices.foldl (fun (r : Except OutOfRange (SlotMap K)) index =>
          ((restoreRound index r).run (storageAnswers storage)).2) (.ok s.slots)
        = .ok (indices.foldl restoreSlot s).slots := by
    intro indices
    induction indices with
    | nil => intro s _; rfl
    | cons index indices ih =>
        intro s hs
        rw [List.foldl_cons, List.foldl_cons, run_restoreRound hs index]
        exact ih _ ((restoreSlot_storage s index).trans hs)
  unfold restoreAsked restoreBonds
  split
  · rw [Dialogue.run_forEach]
    exact hrounds _ (BondState.boot storage) rfl
  · rfl

end Storage

/-- The bond of the one slot that is filled is back under it. -/
theorem restore_robust_gap :
    let run := (restoreAsked IdentityKey storingCfg).run (storageAnswers gapStorage)
    run.2 = .ok [((peerBond 0xA0).identity, 1)] ∧
      Restored [0, 1, 2, 3] run.1 [((peerBond 0xA0).identity, 1)] := by
  intro run
  have hslots : run.2 = .ok [((peerBond 0xA0).identity, 1)] := by
    refine (restore_from_storage storingCfg).trans (congrArg Except.ok ?_)
    decide
  obtain ⟨slots, hrun, -, hrestored⟩ := restore_robust storingCfg
    (Dialogue.plays_run (storageAnswers gapStorage) (restoreAsked IdentityKey storingCfg))
  cases hslots.symm.trans hrun
  exact ⟨hslots, hrestored⟩

end RuntimeBle.Bond
