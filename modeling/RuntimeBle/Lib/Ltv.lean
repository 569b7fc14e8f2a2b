import Mathlib.Data.List.Basic

/-!
# Lib — Ltv

Records of a length, a type and data, one behind the other. The length
byte counts the type and the data.

A `Writer` appends records to a buffer of limited capacity, and refuses
the ones that do not fit. `Emits` says what a program does that writes
with it; the rules follow the program.
-/

namespace RuntimeBle.Lib.Ltv

/-- A type and its data. -/
structure Record where
  ty : UInt8
  data : List UInt8
deriving DecidableEq

/-- The bytes of a record, its length byte included. -/
def Record.size (r : Record) : Nat := r.data.length + 2

/-- The length byte counts the type too. -/
def Record.encode (r : Record) : List UInt8 := UInt8.ofNat (r.data.length + 1) :: r.ty :: r.data

/-- The bytes of a sequence. -/
def size : List Record → Nat
  | [] => 0
  | r :: rs => r.size + size rs

/-- The records one behind the other. -/
def encode (rs : List Record) : List UInt8 := rs.flatMap Record.encode

@[simp] theorem length_encode_record (r : Record) : r.encode.length = r.size := rfl

theorem length_encode (rs : List Record) : (encode rs).length = size rs := by
  induction rs with
  | nil => rfl
  | cons r rs ih =>
      show (r.encode ++ encode rs).length = r.size + size rs
      rw [List.length_append, ih, length_encode_record]

@[simp] theorem size_append (rs rs' : List Record) : size (rs ++ rs') = size rs + size rs' := by
  induction rs with
  | nil => simp [size]
  | cons r rs ih => simp only [List.cons_append, size, ih, Nat.add_assoc]

theorem encode_append (rs rs' : List Record) : encode (rs ++ rs') = encode rs ++ encode rs' :=
  List.flatMap_append

theorem size_le_of_mem {r : Record} {rs : List Record} (h : r ∈ rs) : r.size ≤ size rs := by
  induction rs with
  | nil => cases h
  | cons r' rs ih =>
      rw [size]
      rcases List.mem_cons.mp h with rfl | hrest
      · omega
      · have := ih hrest
        omega

/-! ## Reading -/

/-- The first record and what is behind it; `none` when the bytes end
within it. -/
def readRecord : List UInt8 → Option (Record × List UInt8)
  | len :: ty :: rest =>
      if 0 < len.toNat ∧ len.toNat - 1 ≤ rest.length then
        some ({ ty, data := rest.take (len.toNat - 1) }, rest.drop (len.toNat - 1))
      else none
  | _ => none

/-- At most `fuel` records. -/
def decodeFuel : Nat → List UInt8 → Option (List Record)
  | _, [] => some []
  | 0, _ :: _ => none
  | fuel + 1, bytes => do
      let (r, rest) ← readRecord bytes
      return r :: (← decodeFuel fuel rest)

/-- Read records until the bytes are used up; no record is empty. -/
def decode (bytes : List UInt8) : Option (List Record) := decodeFuel bytes.length bytes

/-- The length byte has not wrapped. -/
def Record.Fits (r : Record) : Prop := r.data.length ≤ 254

theorem Record.Fits.lengthByte {r : Record} (h : r.Fits) : r.data.length + 1 < 256 := by
  unfold Record.Fits at h
  omega

theorem readRecord_encode {r : Record} (h : r.Fits) (rest : List UInt8) :
    readRecord (r.encode ++ rest) = some (r, rest) := by
  have hlen : (UInt8.ofNat (r.data.length + 1)).toNat = r.data.length + 1 := by
    rw [UInt8.toNat_ofNat', Nat.mod_eq_of_lt h.lengthByte]
  have hin : 0 < r.data.length + 1 ∧ r.data.length + 1 - 1 ≤ (r.data ++ rest).length := by
    rw [List.length_append]
    omega
  have hcons : r.encode ++ rest
      = UInt8.ofNat (r.data.length + 1) :: r.ty :: (r.data ++ rest) := rfl
  rw [hcons, readRecord, hlen, if_pos hin, Nat.add_sub_cancel, List.take_left, List.drop_left]

theorem decodeFuel_encode {rs : List Record} (h : ∀ r ∈ rs, r.Fits) :
    ∀ {fuel : Nat}, size rs ≤ fuel → decodeFuel fuel (encode rs) = some rs := by
  induction rs with
  | nil =>
      intro fuel _
      cases fuel <;> rfl
  | cons r rs ih =>
      intro fuel hfuel
      obtain ⟨fuel, rfl⟩ : ∃ n, fuel = n + 1 := by
        refine ⟨fuel - 1, ?_⟩
        simp only [size, Record.size] at hfuel
        omega
      have hread := readRecord_encode (h r List.mem_cons_self) (encode rs)
      have hrest : decodeFuel fuel (encode rs) = some rs := by
        refine ih (fun r' hr' => h r' (List.mem_cons_of_mem _ hr')) ?_
        simp only [size, Record.size] at hfuel
        omega
      show decodeFuel (fuel + 1) (r.encode ++ encode rs) = _
      have hcons : r.encode ++ encode rs
          = UInt8.ofNat (r.data.length + 1) :: (r.ty :: r.data ++ encode rs) := rfl
      rw [hcons] at hread ⊢
      simp only [decodeFuel, hread]
      simp [hrest]

/-- **Reading undoes writing.** -/
theorem decode_encode {rs : List Record} (h : ∀ r ∈ rs, r.Fits) :
    decode (encode rs) = some rs :=
  decodeFuel_encode h (Nat.le_of_eq (length_encode rs).symm)

/-! ## Writing -/

/-- A buffer of `cap` bytes: what it holds, and how a record is added. -/
structure Writer (σ : Type) where
  cap : Nat
  Holds : σ → List UInt8 → Prop
  push : σ → Record → Option σ
  push_eq : ∀ {s : σ} {bytes : List UInt8} (r : Record), Holds s bytes →
    if bytes.length + r.size ≤ cap then ∃ t, push s r = some t ∧ Holds t (bytes ++ r.encode)
    else push s r = none

variable {σ : Type} {W : Writer σ} {f g : σ → Option σ} {rs rs' : List Record}

/-- `f` writes the records, or stops when they do not fit. -/
def Emits (W : Writer σ) (rs : List Record) (f : σ → Option σ) : Prop :=
  ∀ (s : σ) (bytes : List UInt8), W.Holds s bytes → bytes.length ≤ W.cap →
    if bytes.length + size rs ≤ W.cap then ∃ t, f s = some t ∧ W.Holds t (bytes ++ encode rs)
    else f s = none

theorem Emits.some {s : σ} {bytes : List UInt8} (h : Emits W rs f) (hs : W.Holds s bytes)
    (hfit : bytes.length + size rs ≤ W.cap) :
    ∃ t, f s = some t ∧ W.Holds t (bytes ++ encode rs) := by
  have := h s bytes hs (by omega)
  rwa [if_pos hfit] at this

theorem Emits.none {s : σ} {bytes : List UInt8} (h : Emits W rs f) (hs : W.Holds s bytes)
    (hcap : bytes.length ≤ W.cap) (hfull : ¬ bytes.length + size rs ≤ W.cap) : f s = none := by
  have := h s bytes hs hcap
  rwa [if_neg hfull] at this

theorem emits_push (r : Record) : Emits W [r] fun s => W.push s r := by
  intro s bytes hs _
  have := W.push_eq r hs
  simpa [size, encode] using this

theorem emits_nothing : Emits W [] some := by
  intro s bytes hs hcap
  simpa [size, encode, hcap] using hs

theorem Emits.bind (hf : Emits W rs f) (hg : Emits W rs' g) :
    Emits W (rs ++ rs') fun s => f s >>= g := by
  intro s bytes hs hcap
  rw [size_append]
  by_cases hfirst : bytes.length + size rs ≤ W.cap
  · obtain ⟨t, ht, hholds⟩ := hf.some hs hfirst
    have hlen : (bytes ++ encode rs).length = bytes.length + size rs := by
      rw [List.length_append, length_encode]
    have hnext := hg t _ hholds (by omega)
    rw [hlen, Nat.add_assoc, List.append_assoc, ← encode_append] at hnext
    simpa [ht] using hnext
  · rw [if_neg (by omega)]
    simp [hf.none hs hcap hfirst]

/-- A check beforehand that only refuses what would not fit. -/
theorem Emits.guard {p : Prop} [Decidable p] (h : Emits W rs f) (hp : p → W.cap < size rs) :
    Emits W rs fun s => if p then Option.none else f s := by
  intro s bytes hs hcap
  by_cases hcond : p
  · have := hp hcond
    rw [if_neg (by omega)]
    simp [hcond]
  · simpa [hcond] using h s bytes hs hcap

/-- A part that is written on a condition. -/
theorem Emits.when {p : Prop} [Decidable p] (h : p → Emits W rs f) :
    Emits W (if p then rs else []) fun s => if p then f s else Option.some s := by
  by_cases hcond : p
  · simpa [hcond] using h hcond
  · simpa [hcond] using emits_nothing

end RuntimeBle.Lib.Ltv
