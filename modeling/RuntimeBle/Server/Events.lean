import Mathlib.Data.Nat.Bitwise
import RuntimeBle.Bond.Blob
import RuntimeBle.Lib.Assoc
import RuntimeBle.Server.Numbering

/-!
# Server — Events

The branches of `connection_task` for what a peer writes and reads: which
callback of the application they end in, and with what.

`GattEvent::Write` and `Read` only reach the loop for attributes that the
peer may write or read. The reply to a write is the host's own.
-/

namespace RuntimeBle.Server

open RuntimeBle.Lib
open RuntimeBle.Bond (u16FromLeBytes)

/-! ## The branches -/

/-- The GATT events, as `connection_task` gets them. -/
inductive GattEvent where
  | write (handle : UInt16) (offset : Nat) (data : List UInt8)
  | read (handle : UInt16)
  | other
deriving DecidableEq

/-- A callback that is made. Those for reads are passed a buffer of
`maxLen` bytes. -/
inductive ServerCallback where
  | onData (data : List UInt8)
  | onWrite (chr : UInt16) (data : List UInt8)
  | onWriteExt (chr offset : UInt16) (data : List UInt8)
  | onSubscription (chr : UInt16) (notifyEnabled indicateEnabled : UInt8)
  | onDescriptorWrite (handle chr : UInt16) (desc : UInt8) (data : List UInt8)
  | onDescriptorWriteExt (handle chr : UInt16) (desc : UInt8) (offset : UInt16)
      (data : List UInt8)
  | onReadValue (chr : UInt16) (maxLen : Nat)
  | onDescriptorReadValue (handle chr : UInt16) (desc : UInt8) (maxLen : Nat)
deriving DecidableEq

/-- The loop over `gatt.chars` from the `i`-th on: `idx` and `sub_idx`. -/
def writeSearch (h : UInt16) (i : Nat) : List Characteristic → Nat × Nat
  | [] => (noIndex, noIndex)
  | c :: cs =>
      if c.handle = h then (i, noIndex)
      else if c.cccdHandle = some h then (noIndex, i)
      else writeSearch h (i + 1) cs

/-- The loop over `gatt.chars` for a read. -/
def readSearch (h : UInt16) (i : Nat) : List Characteristic → Nat
  | [] => noIndex
  | c :: cs => if c.handle = h then i else readSearch h (i + 1) cs

/-- The descriptor with the handle, if there is one. -/
def findDescriptor (g : Gatt) (h : UInt16) : Option DescMeta :=
  g.descriptors.find? fun d => d.handle = h

/-- `notify_enabled` and `indicate_enabled`. -/
def cccdEnabled (data : List UInt8) : UInt8 × UInt8 :=
  match data with
  | lo :: hi :: _ =>
      let cccd := u16FromLeBytes lo hi
      (if cccd &&& 0x0001 ≠ 0 then 1 else 0, if cccd &&& 0x0002 ≠ 0 then 1 else 0)
  | _ => (0, 0)

section Branches

variable (b : Build) (callbacks : RuntimeBleCallbacks) (g : Gatt)

/-- A write event: which callback is made, and with what. -/
def gattWrite (h : UInt16) (off : Nat) (data : List UInt8) : List ServerCallback :=
  let idx := (writeSearch h 0 g.chars).1
  let subIdx := (writeSearch h 0 g.chars).2
  let descMeta := if idx = noIndex ∧ subIdx = noIndex then findDescriptor g h else none
  -- what `with_data` leaves behind; it is not called for a handle that is not found
  let offset := UInt16.ofNat (min off 0xffff)
  let buf := data.take (min data.length b.valueLen)
  if idx ≠ noIndex then
    if idx = g.nusRx then
      if callbacks.onData then [.onData buf] else []
    else if callbacks.onWriteExt then [.onWriteExt (UInt16.ofNat idx) offset buf]
    else if callbacks.onWrite then [.onWrite (UInt16.ofNat idx) buf]
    else []
  else if subIdx ≠ noIndex then
    if callbacks.onSubscription then
      [.onSubscription (UInt16.ofNat subIdx) (cccdEnabled data).1 (cccdEnabled data).2]
    else []
  else
    match descMeta with
    | some d =>
        if callbacks.onDescriptorWriteExt then
          [.onDescriptorWriteExt d.handle d.chr d.desc offset buf]
        else if callbacks.onDescriptorWrite then [.onDescriptorWrite d.handle d.chr d.desc buf]
        else []
    | none => []

/-- `accept_unprocessed` with these bytes, or `accept`. -/
inductive ReadReply where
  | unprocessed (data : List UInt8)
  | fromTable
deriving DecidableEq

/-- The answer is what a callback leaves in its buffer, and what it
returns. -/
def gattRead (answer : ServerCallback → Bytes b.valueLen × Nat) (h : UInt16) :
    List ServerCallback × ReadReply :=
  let idx := readSearch h 0 g.chars
  let asked (callback : ServerCallback) : List ServerCallback × ReadReply :=
    let out := answer callback
    ([callback], .unprocessed (out.1.toList.take (min out.2 b.valueLen)))
  if idx ≠ noIndex then
    if callbacks.onReadValue then asked (.onReadValue (UInt16.ofNat idx) b.valueLen)
    else ([], .fromTable)
  else
    match findDescriptor g h with
    | some d =>
        if callbacks.onDescriptorReadValue then
          asked (.onDescriptorReadValue d.handle d.chr d.desc b.valueLen)
        else ([], .fromTable)
    | none => ([], .fromTable)

/-- The callbacks of an event. -/
def gattEvent (answer : ServerCallback → Bytes b.valueLen × Nat) :
    GattEvent → List ServerCallback
  | .write h off data => gattWrite b callbacks g h off data
  | .read h => (gattRead b callbacks g answer h).1
  | .other => []

end Branches

/-! ## What a handle names -/

/-- The attributes that concern the application: the value and the CCCD of
characteristic `i`, and its descriptor `j`. -/
inductive Target where
  | value (i : Nat)
  | cccd (i : Nat)
  | descriptor (i j : Nat)
deriving DecidableEq

/-- The characteristic it belongs to. -/
def Target.index : Target → Nat
  | value i | cccd i | descriptor i _ => i

/-- The place of the attribute within the table, for the characteristic
`e` it belongs to. -/
def Target.placeIn (e : Placed) : Target → Option Nat
  | value _ => some (e.2 + 1)
  | cccd _ => if hasCccd (mapProps e.1.props) then some (e.2 + 2) else none
  | descriptor _ j =>
      if j < (e.1.descriptors.getD []).length then some (e.descBase + j) else none

/-- The handle is that of the attribute. -/
def Names (T : Trouble) (placed : List Placed) (h : UInt16) (t : Target) : Prop :=
  ∃ e p, placed[t.index]? = some e ∧ t.placeIn e = some p ∧ h = T.handleOf p

/-- The two low bits of a CCCD that was written. -/
def cccdBits (data : List UInt8) : UInt8 × UInt8 :=
  match data with
  | lo :: _ :: _ => (UInt8.ofNat (lo.toNat % 2), UInt8.ofNat (lo.toNat / 2 % 2))
  | _ => (0, 0)

section Expected

variable (b : Build) (callbacks : RuntimeBleCallbacks)

/-- The callback for a write to the attribute; `nus` tells that the built-in
service is in use, the first characteristic of which is its RX. -/
def writeCallback (nus : Bool) (h : UInt16) (off : Nat) (data : List UInt8) :
    Target → Option ServerCallback
  | .value i =>
      let data := data.take b.valueLen
      if nus = true ∧ i = 0 then
        if callbacks.onData then some (.onData data) else none
      else if callbacks.onWriteExt then
        some (.onWriteExt (UInt16.ofNat i) (UInt16.ofNat (min off 0xffff)) data)
      else if callbacks.onWrite then some (.onWrite (UInt16.ofNat i) data)
      else none
  | .cccd i =>
      if callbacks.onSubscription then
        some (.onSubscription (UInt16.ofNat i) (cccdBits data).1 (cccdBits data).2)
      else none
  | .descriptor i j =>
      let data := data.take b.valueLen
      if callbacks.onDescriptorWriteExt then
        some (.onDescriptorWriteExt h (UInt16.ofNat i) (UInt8.ofNat j)
          (UInt16.ofNat (min off 0xffff)) data)
      else if callbacks.onDescriptorWrite then
        some (.onDescriptorWrite h (UInt16.ofNat i) (UInt8.ofNat j) data)
      else none

/-- The callback for a read of the attribute. -/
def readCallback (h : UInt16) : Target → Option ServerCallback
  | .value i =>
      if callbacks.onReadValue then some (.onReadValue (UInt16.ofNat i) b.valueLen) else none
  | .cccd _ => none
  | .descriptor i j =>
      if callbacks.onDescriptorReadValue then
        some (.onDescriptorReadValue h (UInt16.ofNat i) (UInt8.ofNat j) b.valueLen)
      else none

end Expected

/-! ## Places -/

section Places

variable {T : Trouble} {b : Build} {g : Gatt} {placed : List Placed}

/-- The attribute is one of its characteristic's, behind the declaration. -/
theorem Target.placeIn_bounds {e : Placed} {t : Target} {p : Nat} (h : t.placeIn e = some p) :
    e.2 + 1 ≤ p ∧ p < e.2 + charAttributes e.1 := by
  cases t with
  | value i =>
      cases h
      simp only [charAttributes]
      omega
  | cccd i =>
      simp only [Target.placeIn] at h
      split at h
      · rename_i hc
        cases h
        simp only [charAttributes, hc, ↓reduceIte]
        omega
      · cases h
  | descriptor i j =>
      simp only [Target.placeIn] at h
      split at h
      · rename_i hj
        cases h
        simp only [Placed.descBase, charAttributes]
        omega
      · cases h

/-- Two attributes of one characteristic have two places. -/
theorem Target.eq_of_placeIn {e : Placed} {t t' : Target} {p : Nat} (h : t.placeIn e = some p)
    (h' : t'.placeIn e = some p) (hindex : t.index = t'.index) : t = t' := by
  cases t <;> cases t' <;>
    simp only [Target.placeIn, Placed.descBase, Target.index, Option.ite_none_right_eq_some,
      Option.some.injEq] at h h' hindex <;> grind

/-- An index is less than the place of its characteristic's value. -/
theorem Listed.index_le (h : Listed T g placed) :
    ∀ {i : Nat} {e : Placed}, placed[i]? = some e → i ≤ e.2 := by
  have hapart := List.pairwise_iff_getElem.mp h.apart
  intro i
  induction i with
  | zero => exact fun _ => Nat.zero_le _
  | succ i ih =>
      intro e he
      obtain ⟨hlt, rfl⟩ := List.getElem?_eq_some_iff.mp he
      have hprev := ih (List.getElem?_eq_getElem (Nat.lt_of_succ_lt hlt))
      have hbefore := hapart i (i + 1) (Nat.lt_of_succ_lt hlt) hlt (Nat.lt_succ_self i)
      simp only [charAttributes] at hbefore
      omega

theorem Listed.place_lt (h : Listed T g placed) {e : Placed} {t : Target} {p : Nat}
    (he : placed[t.index]? = some e) (ht : t.placeIn e = some p) : p < g.table.length :=
  Nat.lt_of_lt_of_le (Target.placeIn_bounds ht).2 (h.within e (List.mem_of_getElem? he))

/-- An attribute is known by its place. -/
theorem Listed.target_unique (h : Listed T g placed) {e e' : Placed} {t t' : Target} {p : Nat}
    (he : placed[t.index]? = some e) (he' : placed[t'.index]? = some e')
    (ht : t.placeIn e = some p) (ht' : t'.placeIn e' = some p) : t = t' := by
  have hbounds := Target.placeIn_bounds ht
  have hbounds' := Target.placeIn_bounds ht'
  obtain ⟨hlt, rfl⟩ := List.getElem?_eq_some_iff.mp he
  obtain ⟨hlt', rfl⟩ := List.getElem?_eq_some_iff.mp he'
  have hapart := List.pairwise_iff_getElem.mp h.apart
  rcases Nat.lt_trichotomy t.index t'.index with hi | hi | hi
  · have := hapart _ _ hlt hlt' hi
    omega
  · refine Target.eq_of_placeIn ht ?_ hi
    simpa only [hi] using ht'
  · have := hapart _ _ hlt' hlt hi
    omega

end Places

/-! ## The searches -/

section Search

variable {h : UInt16} {cs : List Characteristic}

/-- The handle is that of the value or of the CCCD. -/
def Characteristic.Has (c : Characteristic) (h : UInt16) : Prop :=
  c.handle = h ∨ c.cccdHandle = some h

theorem writeSearch_eq {c : Characteristic} (hhit : c.Has h) :
    ∀ {cs : List Characteristic} {i k : Nat}, cs[i]? = some c →
      (∀ j < i, ∀ c', cs[j]? = some c' → ¬ c'.Has h) →
      writeSearch h k cs = if c.handle = h then (k + i, noIndex) else (noIndex, k + i) := by
  intro cs
  induction cs with
  | nil => exact fun hc => nomatch hc
  | cons c₀ cs ih =>
      intro i k hc hfirst
      cases i with
      | zero =>
          cases hc
          rw [writeSearch]
          split
          · rfl
          · rename_i hvalue
            rw [if_pos (hhit.resolve_left hvalue)]
            rfl
      | succ i =>
          have hskip := hfirst 0 (Nat.succ_pos i) c₀ rfl
          rw [writeSearch, if_neg fun heq => hskip (.inl heq), if_neg fun heq => hskip (.inr heq)]
          have hrest := ih (i := i) (k := k + 1) hc fun j hj c' hc' =>
            hfirst (j + 1) (Nat.succ_lt_succ hj) c' hc'
          rw [hrest, Nat.add_assoc, Nat.add_comm 1 i]

theorem writeSearch_none (hnone : ∀ c ∈ cs, ¬ c.Has h) :
    ∀ k, writeSearch h k cs = (noIndex, noIndex) := by
  induction cs with
  | nil => exact fun _ => rfl
  | cons c cs ih =>
      intro k
      have hskip := hnone c List.mem_cons_self
      rw [writeSearch, if_neg fun heq => hskip (.inl heq), if_neg fun heq => hskip (.inr heq)]
      exact ih (fun c' hc' => hnone c' (List.mem_cons_of_mem _ hc')) (k + 1)

theorem readSearch_eq {c : Characteristic} (hhit : c.handle = h) :
    ∀ {cs : List Characteristic} {i k : Nat}, cs[i]? = some c →
      (∀ j < i, ∀ c', cs[j]? = some c' → c'.handle ≠ h) → readSearch h k cs = k + i := by
  intro cs
  induction cs with
  | nil => exact fun hc => nomatch hc
  | cons c₀ cs ih =>
      intro i k hc hfirst
      cases i with
      | zero =>
          cases hc
          exact if_pos hhit
      | succ i =>
          rw [readSearch, if_neg (hfirst 0 (Nat.succ_pos i) c₀ rfl)]
          have hrest := ih (i := i) (k := k + 1) hc fun j hj c' hc' =>
            hfirst (j + 1) (Nat.succ_lt_succ hj) c' hc'
          rw [hrest, Nat.add_assoc, Nat.add_comm 1 i]

theorem readSearch_none (hnone : ∀ c ∈ cs, c.handle ≠ h) : ∀ k, readSearch h k cs = noIndex := by
  induction cs with
  | nil => exact fun _ => rfl
  | cons c cs ih =>
      intro k
      rw [readSearch, if_neg (hnone c List.mem_cons_self)]
      exact ih (fun c' hc' => hnone c' (List.mem_cons_of_mem _ hc')) (k + 1)

end Search

/-! ## The searches and what a handle names -/

section Named

variable {T : Trouble} {b : Build} {g : Gatt} {placed : List Placed} {h : UInt16}

/-- No two attributes of the table have one handle. -/
def DistinctHandles (T : Trouble) (n : Nat) : Prop :=
  ∀ i < n, ∀ j < n, T.handleOf i = T.handleOf j → i = j

theorem names_value {i : Nat} {e : Placed} (he : placed[i]? = some e) :
    Names T placed h (.value i) ↔ (e.record T).handle = h := by
  constructor
  · rintro ⟨e', p, he', hp, rfl⟩
    cases he.symm.trans he'
    cases hp
    rfl
  · intro heq
    exact ⟨e, _, he, rfl, heq.symm⟩

theorem names_cccd {i : Nat} {e : Placed} (he : placed[i]? = some e) :
    Names T placed h (.cccd i) ↔ (e.record T).cccdHandle = some h := by
  have hrecord : (e.record T).cccdHandle
      = if hasCccd (mapProps e.1.props) then some (T.handleOf (e.2 + 2)) else none := rfl
  rw [hrecord]
  constructor
  · rintro ⟨e', p, he', hp, rfl⟩
    cases he.symm.trans he'
    simp only [Target.placeIn] at hp
    split at hp
    · cases hp
      rename_i hc
      exact if_pos hc
    · cases hp
  · intro heq
    split at heq
    · rename_i hc
      cases heq
      exact ⟨e, _, he, if_pos hc, rfl⟩
    · cases heq

variable (hlisted : Listed T g placed) (hdistinct : DistinctHandles T g.table.length)

include hlisted hdistinct

theorem names_unique {t t' : Target} (ht : Names T placed h t) (ht' : Names T placed h t') :
    t = t' := by
  obtain ⟨e, p, he, hp, rfl⟩ := ht
  obtain ⟨e', p', he', hp', heq⟩ := ht'
  have hsame := hdistinct p (hlisted.place_lt he hp) p' (hlisted.place_lt he' hp') heq
  subst hsame
  exact hlisted.target_unique he he' hp hp'

omit hdistinct in
theorem getElem?_chars_of_placed {i : Nat} {e : Placed} (he : placed[i]? = some e) :
    g.chars[i]? = some (e.record T) := by
  rw [hlisted.chars, List.getElem?_map, he]
  rfl

omit hdistinct in
theorem getElem?_chars {i : Nat} {c : Characteristic} (hc : g.chars[i]? = some c) :
    ∃ e, placed[i]? = some e ∧ c = e.record T := by
  rw [hlisted.chars, List.getElem?_map] at hc
  obtain ⟨e, he, rfl⟩ := Option.map_eq_some_iff.mp hc
  exact ⟨e, he, rfl⟩

omit hdistinct in
/-- A characteristic that has the handle is named by it. -/
theorem names_of_has {i : Nat} {c : Characteristic} (hc : g.chars[i]? = some c) (hhas : c.Has h) :
    Names T placed h (.value i) ∨ Names T placed h (.cccd i) := by
  obtain ⟨e, he, rfl⟩ := getElem?_chars hlisted hc
  exact hhas.imp (names_value he).mpr (names_cccd he).mpr

theorem writeSearch_value {i : Nat} (hi : Names T placed h (.value i)) :
    writeSearch h 0 g.chars = (i, noIndex) ∧ readSearch h 0 g.chars = i := by
  obtain ⟨e, p, he, hp, -⟩ := id hi
  have hhandle := (names_value he).mp hi
  have hc : g.chars[i]? = some (e.record T) := getElem?_chars_of_placed hlisted he
  have hfirst : ∀ j < i, ∀ c', g.chars[j]? = some c' → ¬ c'.Has h := by
    intro j hj c' hc' hhas
    rcases names_of_has hlisted hc' hhas with hname | hname
    · cases names_unique hlisted hdistinct hname hi
      exact Nat.lt_irrefl _ hj
    · cases names_unique hlisted hdistinct hname hi
  constructor
  · rw [writeSearch_eq (.inl hhandle) hc hfirst, if_pos hhandle, Nat.zero_add]
  · rw [readSearch_eq hhandle hc fun j hj c' hc' heq => hfirst j hj c' hc' (.inl heq),
      Nat.zero_add]

theorem writeSearch_cccd {i : Nat} (hi : Names T placed h (.cccd i)) :
    writeSearch h 0 g.chars = (noIndex, i) := by
  obtain ⟨e, p, he, hp, -⟩ := id hi
  have hcccd := (names_cccd he).mp hi
  have hc : g.chars[i]? = some (e.record T) := getElem?_chars_of_placed hlisted he
  have hfirst : ∀ j < i, ∀ c', g.chars[j]? = some c' → ¬ c'.Has h := by
    intro j hj c' hc' hhas
    rcases names_of_has hlisted hc' hhas with hname | hname
    · cases names_unique hlisted hdistinct hname hi
    · cases names_unique hlisted hdistinct hname hi
      exact Nat.lt_irrefl _ hj
  have hvalue : (e.record T).handle ≠ h := by
    intro heq
    cases names_unique hlisted hdistinct ((names_value he).mpr heq) hi
  rw [writeSearch_eq (.inr hcccd) hc hfirst, if_neg hvalue, Nat.zero_add]

omit hdistinct in
theorem writeSearch_other (hvalue : ∀ i, ¬ Names T placed h (.value i))
    (hcccd : ∀ i, ¬ Names T placed h (.cccd i)) :
    writeSearch h 0 g.chars = (noIndex, noIndex) := by
  refine writeSearch_none (fun c hc hhas => ?_) 0
  obtain ⟨i, hi⟩ := List.getElem?_of_mem hc
  exact (names_of_has hlisted hi hhas).elim (hvalue i) (hcccd i)

omit hdistinct in
theorem readSearch_other (hvalue : ∀ i, ¬ Names T placed h (.value i)) :
    readSearch h 0 g.chars = noIndex := by
  refine readSearch_none (fun c hc heq => ?_) 0
  obtain ⟨i, hi⟩ := List.getElem?_of_mem hc
  obtain ⟨e, he, rfl⟩ := getElem?_chars hlisted hi
  exact hvalue i ((names_value he).mpr heq)

variable (hsize : g.table.length ≤ 255)

include hsize

omit hdistinct in
/-- The index of what is named is less than its place in the table. -/
theorem index_lt_of_names {t : Target} (ht : Names T placed h t) : t.index < 255 := by
  obtain ⟨e, p, he, hp, -⟩ := ht
  have hle := hlisted.index_le he
  have hlt := hlisted.place_lt he hp
  have hplace := (Target.placeIn_bounds hp).1
  omega

omit hdistinct in
theorem index_ne_noIndex {t : Target} (ht : Names T placed h t) : t.index ≠ noIndex := by
  have hindex := index_lt_of_names hlisted hsize ht
  unfold noIndex
  omega

omit hdistinct in
/-- What is kept of the descriptors is what their handles name. -/
theorem mem_descriptors {d : DescMeta} :
    d ∈ g.descriptors ↔ ∃ i j, Names T placed d.handle (.descriptor i j)
      ∧ d.chr = UInt16.ofNat i ∧ d.desc = UInt8.ofNat j := by
  have hmin : ∀ {i j : Nat} {e : Placed}, placed[i]? = some e →
      j < (e.1.descriptors.getD []).length → min j 0xff = j := by
    intro i j e he hj
    have hlt := hlisted.place_lt (t := .descriptor i j) he (if_pos hj)
    simp only [Placed.descBase] at hlt
    omega
  rw [hlisted.descriptors, List.mem_flatMap]
  constructor
  · rintro ⟨⟨e, i⟩, hei, hd⟩
    obtain ⟨⟨dd, j⟩, hdj, rfl⟩ := List.mem_map.mp hd
    have he : placed[i]? = some e := List.mem_zipIdx_iff_getElem?.mp hei
    have hj : j < (e.1.descriptors.getD []).length := by simpa using (List.mem_zipIdx hdj).2.1
    refine ⟨i, j, ⟨e, _, he, if_pos hj, rfl⟩, rfl, ?_⟩
    show UInt8.ofNat (min j 0xff) = _
    rw [hmin he hj]
  · rintro ⟨i, j, ⟨e, p, he, hp, hhandle⟩, hchr, hdesc⟩
    simp only [Target.placeIn, Option.ite_none_right_eq_some, Option.some.injEq] at hp
    obtain ⟨hj, rfl⟩ := hp
    refine ⟨(e, i), List.mem_zipIdx_iff_getElem?.mpr he, List.mem_map.mpr ⟨(_, j),
      List.mem_zipIdx_iff_getElem?.mpr (List.getElem?_eq_getElem hj), ?_⟩⟩
    obtain ⟨handle, chr, desc⟩ := d
    simp only [descRecord, DescMeta.mk.injEq] at *
    exact ⟨hhandle.symm, hchr.symm, by rw [hmin he hj]; exact hdesc.symm⟩

theorem findDescriptor_descriptor {i j : Nat} (hij : Names T placed h (.descriptor i j)) :
    findDescriptor g h = some { handle := h, chr := UInt16.ofNat i, desc := UInt8.ofNat j } := by
  refine find?_eq_some_of_unique ?_ rfl ?_
  · exact (mem_descriptors hlisted hsize).mpr ⟨i, j, hij, rfl, rfl⟩
  · rintro ⟨handle, chr, desc⟩ hd rfl
    obtain ⟨i', j', hname, hchr, hdesc⟩ := (mem_descriptors hlisted hsize).mp hd
    cases names_unique hlisted hdistinct hname hij
    rw [DescMeta.mk.injEq]
    exact ⟨rfl, hchr, hdesc⟩

omit hdistinct in
theorem findDescriptor_other (hdesc : ∀ i j, ¬ Names T placed h (.descriptor i j)) :
    findDescriptor g h = none := by
  refine find?_eq_none_of_forall fun d hd heq => ?_
  obtain ⟨i, j, hname, -⟩ := (mem_descriptors hlisted hsize).mp hd
  exact hdesc i j (heq ▸ hname)

end Named

/-! ## The NUS index -/

section NusRx

variable {T : Trouble} {b : Build} {g g' : Gatt}

theorem push_nusRx {a : Attribute} (h : g.push b a = .ok g') : g'.nusRx = g.nusRx := by
  unfold Gatt.push at h
  split at h
  · cases h
    rfl
  · cases h

theorem foldlM_nusRx {α : Type} {f : Gatt → α → Except Fault Gatt}
    (hf : ∀ {g g' : Gatt} {a : α}, f g a = .ok g' → g'.nusRx = g.nusRx) {as : List α}
    {g g' : Gatt} (h : as.foldlM f g = .ok g') : g'.nusRx = g.nusRx := by
  have htrans : ∀ {g g' g'' : Gatt}, g'.nusRx = g.nusRx → g''.nusRx = g'.nusRx →
      g''.nusRx = g.nusRx := fun h h' => h'.trans h
  exact foldlM_eq_ok (R := fun _ g g' => g'.nusRx = g.nusRx) (fun _ => 0) (fun _ => rfl) htrans
    (fun _ _ _ _ => hf) h

theorem addDescriptor_nusRx {chr : Nat} {d : RuntimeBleDescDef × Nat}
    (h : addDescriptor T b chr g d = .ok g') : g'.nusRx = g.nusRx := by
  obtain ⟨g₁, hpush, hset⟩ := bind_eq_ok h
  have h₁ : g₁.nusRx = g.nusRx := by
    unfold pushDescriptor at hpush
    dsimp only at hpush
    split at hpush
    · exact push_nusRx (g := { g with stores := g.stores + 1 }) hpush
    · exact push_nusRx hpush
  cases hset
  exact h₁

theorem addCharacteristic_nusRx {c : RuntimeBleCharDef}
    (h : addCharacteristic T b g c = .ok g') : g'.nusRx = g.nusRx := by
  obtain ⟨g₁, hdecl, h⟩ := bind_eq_ok h
  obtain ⟨g₂, hvalue, h⟩ := bind_eq_ok h
  obtain ⟨g₃, hcccd, h⟩ := bind_eq_ok h
  obtain ⟨g₄, hdescs, h⟩ := bind_eq_ok h
  cases h
  have h₂ : g₂.nusRx = g₁.nusRx := push_nusRx (g := { g₁ with stores := g₁.stores + 1 }) hvalue
  have h₃ : g₃.nusRx = g₂.nusRx := by
    unfold pushCccd at hcccd
    split at hcccd
    · exact push_nusRx hcccd
    · cases hcccd
      rfl
  have h₄ : g₄.nusRx = g₃.nusRx := foldlM_nusRx addDescriptor_nusRx hdescs
  exact h₄.trans (h₃.trans (h₂.trans (push_nusRx hdecl)))

theorem addUserService_nusRx {s : RuntimeBleServiceDef}
    (h : addUserService T b g s = .ok g') : g'.nusRx = g.nusRx := by
  obtain ⟨g₁, hservice, hchars⟩ := bind_eq_ok h
  have h₁ : g₁.nusRx = g.nusRx := push_nusRx hservice
  exact (foldlM_nusRx addCharacteristic_nusRx hchars).trans h₁

/-- The index of the RX is that of the first characteristic with the
built-in service, and none otherwise. -/
theorem nusRx_of_buildGatt {cfg : RuntimeCfg} {name : List UInt8}
    (h : buildGatt T b cfg name = .ok g) :
    g.nusRx = if cfg.services.getD [] = [] then 0 else noIndex := by
  obtain ⟨g₁, hgap, hservices⟩ := bind_eq_ok h
  have hstart : g₁.nusRx = noIndex ∧ g₁.chars = [] := by
    simp only [gapBuild] at hgap
    split at hgap
    · cases hgap
    · exact ⟨foldlM_nusRx push_nusRx hgap, (gap_eq_ok hgap).1.chars⟩
  have hnus : addNus T b g₁ = .ok g → g.nusRx = 0 := by
    intro hadd
    obtain ⟨g₂, hservice, hadd⟩ := bind_eq_ok hadd
    obtain ⟨g₃, hrx, htx⟩ := bind_eq_ok hadd
    have hchars : g₂.chars = [] := (push_eq_ok hservice).chars.trans hstart.2
    have h₃ : g₃.nusRx = g₂.chars.length :=
      addCharacteristic_nusRx (g := { g₂ with nusRx := g₂.chars.length }) hrx
    have h₄ : g.nusRx = g₃.nusRx :=
      addCharacteristic_nusRx (g := { g₃ with nusTx := g₃.chars.length }) htx
    rw [h₄, h₃, hchars]
    rfl
  unfold addServices at hservices
  cases hcfg : cfg.services with
  | none =>
      rw [hcfg] at hservices
      exact hnus hservices
  | some services =>
      rw [hcfg] at hservices
      cases services with
      | nil => exact hnus hservices
      | cons s rest =>
          rw [foldlM_nusRx addUserService_nusRx hservices, hstart.1]
          rfl

end NusRx

/-! ## Events and callbacks -/

section Callbacks

variable {T : Trouble} {b : Build} {callbacks : RuntimeBleCallbacks} {g : Gatt} {h : UInt16}
  {off : Nat} {data : List UInt8}

theorem take_min_length (n : Nat) : data.take (min data.length n) = data.take n := by
  rw [List.take_eq_take_iff]
  omega

/-- The bits that `u16::from_le_bytes` finds are those of the first byte. -/
theorem cccdEnabled_eq : cccdEnabled data = cccdBits data := by
  match data with
  | [] => rfl
  | [lo] => rfl
  | lo :: hi :: rest =>
      have hlo : lo.toNat < 256 := lo.toNat_lt
      have hhi : hi.toNat < 256 := hi.toNat_lt
      have hcccd : (u16FromLeBytes lo hi).toNat = lo.toNat + 256 * hi.toNat := by
        rw [u16FromLeBytes, UInt16.toNat_ofNat', Nat.mod_eq_of_lt (by omega)]
      have hbit : ∀ (x k : UInt16) (n : Nat), k.toNat = 2 ^ n →
          (x &&& k ≠ 0 ↔ x.toNat / 2 ^ n % 2 = 1) := by
        intro x k n hk
        rw [ne_eq, ← UInt16.toNat_inj, UInt16.toNat_and, hk, Nat.and_two_pow]
        show ¬ _ = 0 ↔ _
        rw [Nat.testBit_eq_decide_div_mod_eq]
        have hpos : 0 < 2 ^ n := Nat.two_pow_pos n
        by_cases hodd : x.toNat / 2 ^ n % 2 = 1
        · simp [hodd]
        · simp [hodd]
      have hnotify := hbit (u16FromLeBytes lo hi) 0x0001 0 rfl
      have hindicate := hbit (u16FromLeBytes lo hi) 0x0002 1 rfl
      have hfirst : (lo.toNat + 256 * hi.toNat) / 2 ^ 0 % 2 = lo.toNat % 2 := by omega
      have hsecond : (lo.toNat + 256 * hi.toNat) / 2 ^ 1 % 2 = lo.toNat / 2 % 2 := by omega
      have hofNat : ∀ n, (if n % 2 = 1 then 1 else 0) = UInt8.ofNat (n % 2) := by
        intro n
        rcases Nat.mod_two_eq_zero_or_one n with hn | hn
        · rw [hn]
          rfl
        · rw [hn]
          rfl
      rw [hcccd, hfirst] at hnotify
      rw [hcccd, hsecond] at hindicate
      simp only [cccdEnabled, cccdBits, hnotify, hindicate, hofNat]

/-- The callbacks for an attribute that a handle names. -/
theorem gattWrite_of_names {placed : List Placed} {cfg : RuntimeCfg} {name : List UInt8}
    (hbuild : buildGatt T b cfg name = .ok g) (hlisted : Listed T g placed)
    (hdistinct : DistinctHandles T g.table.length) (hsize : g.table.length ≤ 255) {t : Target}
    (ht : Names T placed h t) :
    gattWrite b callbacks g h off data
      = (writeCallback b callbacks (cfg.services.getD [] = []) h off data t).toList := by
  have hindex : t.index ≠ noIndex := index_ne_noIndex hlisted hsize ht
  unfold gattWrite
  rw [take_min_length]
  cases t with
  | value i =>
      have hnus : i = g.nusRx ↔ cfg.services.getD [] = [] ∧ i = 0 := by
        rw [nusRx_of_buildGatt hbuild]
        split
        · rename_i hservices
          exact (and_iff_right hservices).symm
        · rename_i hservices
          exact iff_of_false hindex fun hboth => hservices hboth.1
      have hi : i ≠ noIndex := hindex
      rw [(writeSearch_value hlisted hdistinct ht).1]
      simp only [writeCallback, decide_eq_true_eq, ← hnus]
      rw [if_pos hi]
      split_ifs <;> rfl
  | cccd i =>
      rw [writeSearch_cccd hlisted hdistinct ht, cccdEnabled_eq]
      simp only [writeCallback]
      have hi : i ≠ noIndex := hindex
      rw [if_neg (not_not_intro rfl), if_pos hi]
      split_ifs <;> rfl
  | descriptor i j =>
      have hnot : ∀ {t'}, Names T placed h t' → t' = .descriptor i j :=
        fun ht' => names_unique hlisted hdistinct ht' ht
      have hfind := findDescriptor_descriptor hlisted hdistinct hsize ht
      rw [writeSearch_other hlisted (fun k hk => nomatch hnot hk) fun k hk => nomatch hnot hk]
      simp only [writeCallback, ne_eq, not_true_eq_false, ↓reduceIte, and_self, hfind]
      split_ifs <;> rfl

theorem gattRead_of_names {placed : List Placed} {answer : ServerCallback → Bytes b.valueLen × Nat}
    (hlisted : Listed T g placed) (hdistinct : DistinctHandles T g.table.length)
    (hsize : g.table.length ≤ 255) {t : Target} (ht : Names T placed h t) :
    (gattRead b callbacks g answer h).1 = (readCallback b callbacks h t).toList := by
  have hindex : t.index ≠ noIndex := index_ne_noIndex hlisted hsize ht
  have hnot : ∀ {t'}, Names T placed h t' → t' = t :=
    fun ht' => names_unique hlisted hdistinct ht' ht
  unfold gattRead
  cases t with
  | value i =>
      have hi : i ≠ noIndex := hindex
      rw [(writeSearch_value hlisted hdistinct ht).2]
      simp only [readCallback, if_pos hi]
      split_ifs <;> rfl
  | cccd i =>
      have hfind := findDescriptor_other hlisted hsize fun k l hk => nomatch hnot hk
      rw [readSearch_other hlisted fun k hk => nomatch hnot hk]
      simp only [ne_eq, not_true_eq_false, ↓reduceIte, hfind]
      rfl
  | descriptor i j =>
      have hfind := findDescriptor_descriptor hlisted hdistinct hsize ht
      rw [readSearch_other hlisted fun k hk => nomatch hnot hk]
      simp only [readCallback, ne_eq, not_true_eq_false, ↓reduceIte, hfind]
      split_ifs <;> rfl

/-- **Events reach their callback.** In a GATT that is built with distinct
handles, a write and a read make the callback of the attribute that the
handle names, if it is set, and no other; the indices are not truncated. -/
theorem events_reach_their_callback (T : Trouble) (b : Build) (cfg : RuntimeCfg)
    (name : List UInt8) (g : Gatt) (hbuild : buildGatt T b cfg name = .ok g)
    (hdistinct : DistinctHandles T b.attMax) :
    ∃ placed, Listed T g placed ∧ placed.map (·.1) = declared (effectiveServices cfg.services)
      ∧ (∀ h off data, (gattWrite b cfg.callbacks g h off data).length ≤ 1)
      ∧ (∀ h t, Names T placed h t →
          t.index < 65536 ∧ (∀ i j, t = .descriptor i j → j < 256)
          ∧ (∀ off data, gattWrite b cfg.callbacks g h off data
              = (writeCallback b cfg.callbacks (cfg.services.getD [] = []) h off data t).toList)
          ∧ ∀ answer, (gattRead b cfg.callbacks g answer h).1
              = (readCallback b cfg.callbacks h t).toList)
      ∧ ∀ h, (∀ t, ¬ Names T placed h t) →
          (∀ off data, gattWrite b cfg.callbacks g h off data = [])
          ∧ ∀ answer, (gattRead b cfg.callbacks g answer h).1 = [] := by
  obtain ⟨placed, hlisted, hmap⟩ := listed_of_buildGatt hbuild
  have hle := length_table_le hbuild
  -- 255 is `NO_INDEX`, and the table stays below it
  have hattMax : b.attMax ≤ 64 := by
    unfold Build.attMax
    split <;> omega
  have hsize : g.table.length ≤ 255 := by omega
  have hhandles : DistinctHandles T g.table.length := fun i hi j hj =>
    hdistinct i (Nat.lt_of_lt_of_le hi hle) j (Nat.lt_of_lt_of_le hj hle)
  have hother : ∀ h, (∀ t, ¬ Names T placed h t) →
      (∀ off data, gattWrite b cfg.callbacks g h off data = [])
      ∧ ∀ answer, (gattRead b cfg.callbacks g answer h).1 = [] := by
    intro h hnone
    have hfind := findDescriptor_other hlisted hsize fun i j => hnone (.descriptor i j)
    constructor
    · intro off data
      unfold gattWrite
      rw [writeSearch_other hlisted (fun i => hnone (.value i)) fun i => hnone (.cccd i)]
      simp only [ne_eq, not_true_eq_false, ↓reduceIte, and_self, hfind]
    · intro answer
      unfold gattRead
      rw [readSearch_other hlisted fun i => hnone (.value i)]
      simp only [ne_eq, not_true_eq_false, ↓reduceIte, hfind]
  refine ⟨placed, hlisted, hmap, ?_, ?_, hother⟩
  · intro h off data
    -- one target, or none
    by_cases hnamed : ∃ t, Names T placed h t
    · obtain ⟨t, ht⟩ := hnamed
      rw [gattWrite_of_names hbuild hlisted hhandles hsize ht, Option.length_toList]
      split <;> omega
    · rw [(hother h fun t ht => hnamed ⟨t, ht⟩).1]
      exact Nat.zero_le 1
  · intro h t ht
    refine ⟨?_, ?_, fun off data => gattWrite_of_names hbuild hlisted hhandles hsize ht,
      fun answer => gattRead_of_names hlisted hhandles hsize ht⟩
    · have hindex := index_lt_of_names hlisted hsize ht
      omega
    · rintro i j rfl
      obtain ⟨e, p, he, hp, -⟩ := ht
      have hlt := hlisted.place_lt he hp
      simp only [Target.placeIn, Placed.descBase, Option.ite_none_right_eq_some,
        Option.some.injEq] at hp
      omega

theorem distinct_countingHost {n : Nat} (hn : n ≤ 65535) : DistinctHandles countingHost n := by
  intro i hi j hj heq
  have heq := congrArg UInt16.toNat heq
  simp only [countingHost, UInt16.toNat_ofNat'] at heq
  omega

/-- The built-in service, with callbacks for data, writes, subscriptions and
reads. -/
def eventsCfg : RuntimeCfg where
  callbacks := { onData := true, onWrite := true, onSubscription := true, onReadValue := true }

/-- In the built-in service the RX stands at 6, and the TX at 8. -/
theorem placed_nus {placed : List Placed} (hlisted : Listed countingHost g placed)
    (hbuild : buildGatt countingHost {} eventsCfg [] = .ok g)
    (hmap : placed.map (·.1) = [nusRxDef, nusTxDef]) : placed = [(nusRxDef, 6), (nusTxDef, 8)] := by
  have htable : g.table.length = 11 ∧ g.chars.map (·.handle) = [8, 10] := by
    cases hbuild
    decide
  have hattributes : charAttributes nusRxDef = 2 ∧ charAttributes nusTxDef = 3 := by decide
  obtain ⟨⟨_, rx⟩, rest, rfl, rfl, hrest⟩ := List.map_eq_cons_iff.mp hmap
  obtain ⟨⟨_, tx⟩, rest, rfl, rfl, hnil⟩ := List.map_eq_cons_iff.mp hrest
  obtain rfl := List.map_eq_nil_iff.mp hnil
  have hsize := hlisted.within _ (List.mem_cons_of_mem _ (.head _))
  have hapart := (List.pairwise_cons.mp hlisted.apart).1 _ (.head _)
  rw [hlisted.chars] at htable
  have hhandles := List.cons.inj htable.2
  have hrx : UInt16.ofNat (rx + 1 + 1) = 8 := hhandles.1
  have htx : UInt16.ofNat (tx + 1 + 1) = 10 := (List.cons.inj hhandles.2).1
  simp only [← UInt16.toNat_inj, UInt16.toNat_ofNat', UInt16.reduceToNat] at hrx htx
  simp only [hattributes, htable] at hsize hapart
  obtain rfl : rx = 6 := by omega
  obtain rfl : tx = 8 := by omega
  rfl

theorem handle_of_names_nus {t : Target}
    (ht : Names countingHost [(nusRxDef, 6), (nusTxDef, 8)] h t) : h = 8 ∨ h = 10 ∨ h = 11 := by
  obtain ⟨e, p, he, hp, rfl⟩ := ht
  have hindex : t.index < 2 := (List.getElem?_eq_some_iff.mp he).1
  cases t with
  | value i =>
      match i, hindex with
      | 0, _ =>
          cases he
          cases hp
          exact .inl rfl
      | 1, _ =>
          cases he
          cases hp
          exact .inr (.inl rfl)
  | cccd i =>
      match i, hindex with
      | 0, _ =>
          cases he
          cases hp
      | 1, _ =>
          cases he
          cases hp
          exact .inr (.inr rfl)
  | descriptor i j =>
      match i, hindex with
      | 0, _ =>
          cases he
          cases hp
      | 1, _ =>
          cases he
          cases hp

/-- A write to the RX is data, one to the CCCD of the TX a subscription, and
other handles make no callback. -/
theorem events_reach_their_callback_nus :
    ∃ g, buildGatt countingHost {} eventsCfg [] = .ok g
      ∧ (∀ off data, gattWrite {} eventsCfg.callbacks g 8 off data = [.onData (data.take 128)])
      ∧ (∀ off, gattWrite {} eventsCfg.callbacks g 11 off [1, 0] = [.onSubscription 1 1 0])
      ∧ (∀ answer, (gattRead {} eventsCfg.callbacks g answer 8).1 = [.onReadValue 0 128])
      ∧ ∀ h off data, h ≠ 8 → h ≠ 10 → h ≠ 11 →
          gattWrite {} eventsCfg.callbacks g h off data = [] := by
  obtain ⟨placed, hlisted, hmap, -, hnamed, hother⟩ :=
    events_reach_their_callback countingHost {} eventsCfg [] _ rfl
      (distinct_countingHost (by decide))
  obtain rfl := placed_nus hlisted rfl hmap
  obtain ⟨-, -, hrx, hread⟩ := hnamed 8 (.value 0) ⟨(nusRxDef, 6), 7, rfl, rfl, rfl⟩
  obtain ⟨-, -, hcccd, -⟩ := hnamed 11 (.cccd 1) ⟨(nusTxDef, 8), 10, rfl, rfl, rfl⟩
  refine ⟨_, rfl, hrx, fun off => hcccd off [1, 0], hread, ?_⟩
  intro h off data h8 h10 h11
  apply (hother h _).1 off data
  intro t ht
  rcases handle_of_names_nus ht with heq | heq | heq
  · exact h8 heq
  · exact h10 heq
  · exact h11 heq

end Callbacks

end RuntimeBle.Server
