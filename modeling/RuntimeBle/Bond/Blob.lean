import RuntimeBle.Config

/-!
# Bond — Blob

The 53-byte blob a bond is persisted as. `serializeBond` lays the fields
out at fixed offsets; `deserializeBond` reads them back, and also accepts
the 42-byte layout of version 1, which ends after the IRK.

Every read of `deserializeBond` is an in-range access by construction:
an index or a slice carries the proof that the length check above it
covers the range.
-/

namespace RuntimeBle.Bond

/-! ## The host's bond record -/

/-- What the code relies on of the host crate's identity resolving keys
(`IdentityResolvingKey`) and of `BondInformation::new`: a key survives its
little-endian encoding, some byte strings are no key, and a new bond has
fixed legacy-pairing fields. -/
class HostKeys (K : Type) where
  toLeBytes : K → Bytes 16
  fromLeBytes : Bytes 16 → Option K
  fromLeBytes_toLeBytes : ∀ k, fromLeBytes (toLeBytes k) = some k
  newEdiv : UInt16
  newRand : Bytes 8
  newEncryptionKeyLen : UInt8

/-- `Address`: the raw `AddrKind` byte and the six address bytes. -/
structure Address where
  kind : UInt8
  addr : Bytes 6
deriving DecidableEq

/-- The identity of a peer: its address, and the key that resolves it. -/
structure Identity (K : Type) where
  addr : Address
  irk : Option K
deriving DecidableEq

/-- The security levels of trouble-host. -/
inductive SecurityLevel where
  | noEncryption
  | encrypted
  | encryptedAuthenticated
deriving DecidableEq

/-- `BondInformation`; the long term key is held as its little-endian bytes. -/
structure BondInformation (K : Type) where
  ltk : Bytes 16
  identity : Identity K
  isBonded : Bool
  securityLevel : SecurityLevel
  ediv : UInt16
  rand : Bytes 8
  encryptionKeyLen : UInt8
deriving DecidableEq

variable {K : Type} [HostKeys K]

/-- `BondInformation::new`: what is not given is of the host crate. -/
def BondInformation.new (identity : Identity K) (ltk : Bytes 16) (level : SecurityLevel)
    (isBonded : Bool) : BondInformation K :=
  { ltk, identity, isBonded, securityLevel := level
    ediv := HostKeys.newEdiv K
    rand := HostKeys.newRand K
    encryptionKeyLen := HostKeys.newEncryptionKeyLen K }

/-! ## Field encodings -/

def bondBlobLen : Nat := 53
def bondBlobVersion : UInt8 := 2
def bondBlobVersionLegacy : UInt8 := 1

/-- `security_level_to_c`. -/
def securityLevelToC : SecurityLevel → UInt8
  | .encryptedAuthenticated => 2
  | .encrypted => 1
  | .noEncryption => 0

/-- `c_to_security_level`: any other number is no level. -/
def cToSecurityLevel (level : UInt8) : Option SecurityLevel :=
  if level = 0 then some .noEncryption
  else if level = 1 then some .encrypted
  else if level = 2 then some .encryptedAuthenticated
  else none

@[simp] theorem cToSecurityLevel_securityLevelToC (l : SecurityLevel) :
    cToSecurityLevel (securityLevelToC l) = some l := by
  cases l <;> rfl

/-- `to_le_bytes`. -/
def u16ToLeBytes (x : UInt16) : List UInt8 :=
  [UInt8.ofNat x.toNat, UInt8.ofNat (x.toNat / 256)]

/-- `from_le_bytes`. -/
def u16FromLeBytes (lo hi : UInt8) : UInt16 := UInt16.ofNat (lo.toNat + 256 * hi.toNat)

theorem u16FromLeBytes_toLeBytes (x : UInt16) :
    u16FromLeBytes (UInt8.ofNat x.toNat) (UInt8.ofNat (x.toNat / 256)) = x := by
  have hx : x.toNat < 65536 := x.toNat_lt
  apply UInt16.toNat_inj.mp
  simp only [u16FromLeBytes, UInt8.toNat_ofNat', UInt16.toNat_ofNat']
  omega

/-- `u8::from(is_bonded) | u8::from(irk.is_some()) << 1`. -/
def blobFlags (isBonded hasIrk : Bool) : UInt8 :=
  isBonded.toUInt8 ||| hasIrk.toUInt8 <<< 1

@[simp] theorem blobFlags_bonded (isBonded hasIrk : Bool) :
    (blobFlags isBonded hasIrk &&& 0x01 != 0) = isBonded := by
  cases isBonded <;> cases hasIrk <;> rfl

@[simp] theorem blobFlags_irk (isBonded hasIrk : Bool) :
    (blobFlags isBonded hasIrk &&& 0x02 != 0) = hasIrk := by
  cases isBonded <;> cases hasIrk <;> rfl

/-- The IRK field. The buffer is zero-filled first, so a bond without an
IRK has sixteen zeros there. -/
def irkField : Option K → Bytes 16
  | some irk => HostKeys.toLeBytes irk
  | none => Vector.replicate 16 0

/-! ## The blob -/

/-- `serialize_bond`: the fields at their offsets. -/
def serializeBond (bond : BondInformation K) : List UInt8 :=
  -- offsets 0, 1, 2, 3
  [bondBlobVersion, blobFlags bond.isBonded bond.identity.irk.isSome,
    securityLevelToC bond.securityLevel, bond.identity.addr.kind]
  -- 4..10, 10..26, 26..42, 42..44, 44..52, 52
  ++ bond.identity.addr.addr.toList
  ++ bond.ltk.toList
  ++ (irkField bond.identity.irk).toList
  ++ u16ToLeBytes bond.ediv
  ++ bond.rand.toList
  ++ [bond.encryptionKeyLen]

/-- `blob[i..i + n]`, copied into an array. -/
def slice (blob : List UInt8) (i n : Nat) (h : i + n ≤ blob.length) : Bytes n :=
  ⟨((blob.drop i).take n).toArray, by simp; omega⟩

/-- `deserialize_bond`: the length, the version and the level are tested. -/
def deserializeBond (blob : List UInt8) : Option (BondInformation K) :=
  if h : blob.length < 42 then none
  else
    have hlen : 42 ≤ blob.length := by omega
    let version := blob[0]
    if version ≠ bondBlobVersion ∧ version ≠ bondBlobVersionLegacy then none
    else if h53 : version = bondBlobVersion ∧ blob.length < bondBlobLen then none
    else
      match cToSecurityLevel blob[2] with
      | none => none
      | some level =>
          let irk : Option K :=
            if blob[1] &&& 0x02 != 0 then
              HostKeys.fromLeBytes (slice blob 26 16 (by omega))
            else none
          let bond := BondInformation.new
            { addr := { kind := blob[3], addr := slice blob 4 6 (by omega) }, irk }
            (slice blob 10 16 (by omega)) level (blob[1] &&& 0x01 != 0)
          if hv : version = bondBlobVersion then
            have hfull : 53 ≤ blob.length := by
              simp only [hv, true_and, bondBlobLen] at h53
              omega
            some
              { bond with
                ediv := u16FromLeBytes blob[42] blob[43]
                rand := slice blob 44 8 (by omega)
                encryptionKeyLen := blob[52] }
          else some bond

/-! ## Round trip -/

/-- A field that is what the blob goes on with at its offset is read back. -/
theorem slice_of_drop {blob c : List UInt8} {i n : Nat} (v : Bytes n)
    (hb : blob.drop i = v.toList ++ c) (h : i + n ≤ blob.length) :
    slice blob i n h = v := by
  apply Vector.toList_inj.mp
  simp [slice, Vector.toList, hb]

/-- Behind that field the blob goes on with the rest. -/
theorem drop_field {blob c : List UInt8} {i n : Nat} {v : Bytes n}
    (hb : blob.drop i = v.toList ++ c) : blob.drop (i + n) = c := by
  rw [← List.drop_drop, hb]
  exact List.drop_left' v.length_toList

/-- `slice_of_drop` for one byte. -/
theorem getElem_of_drop {blob c : List UInt8} {i : Nat} {x : UInt8}
    (hb : blob.drop i = x :: c) (h : i < blob.length) : blob[i] = x := by
  have hcons := List.drop_eq_getElem_cons h
  rw [hb] at hcons
  exact (List.cons.inj hcons).1.symm

@[simp] theorem length_serializeBond (bond : BondInformation K) :
    (serializeBond bond).length = bondBlobLen := by
  simp [serializeBond, u16ToLeBytes, bondBlobLen]

/-- A bond's flags say whether its IRK field is to be read. -/
theorem fromLeBytes_irkField (irk : Option K) :
    (if irk.isSome then HostKeys.fromLeBytes (irkField irk) else none) = irk := by
  cases irk with
  | none => rfl
  | some irk => exact HostKeys.fromLeBytes_toLeBytes irk

/-- **A persisted bond is read back as it was.** -/
theorem deserializeBond_serializeBond (bond : BondInformation K) :
    deserializeBond (serializeBond bond) = some bond := by
  obtain ⟨ltk, ⟨⟨kind, addr⟩, irk⟩, isBonded, level, ediv, rand, keyLen⟩ := bond
  generalize hb : serializeBond (K := K) _ = blob
  have hlen : blob.length = 53 := by rw [← hb]; simp [bondBlobLen]
  simp only [serializeBond, u16ToLeBytes, List.append_assoc] at hb
  -- what the blob goes on with at each offset
  have d4 := congrArg (List.drop 4) hb.symm
  have d10 := drop_field d4
  have d26 := drop_field d10
  have d42 := drop_field d26
  have d44 := congrArg (List.drop 2) d42
  rw [List.drop_drop] at d44
  have d52 := drop_field d44
  have h0 : blob[0] = bondBlobVersion := by simp [← hb]
  have h1 : blob[1] = blobFlags isBonded irk.isSome := by simp [← hb]
  have h2 : blob[2] = securityLevelToC level := by simp [← hb]
  have h3 : blob[3] = kind := by simp [← hb]
  have h42 : blob[42] = UInt8.ofNat ediv.toNat := getElem_of_drop d42 _
  have h43 : blob[43] = UInt8.ofNat (ediv.toNat / 256) := by
    refine getElem_of_drop (c := rand.toList ++ [keyLen]) ?_ _
    rw [← List.drop_drop (i := 1) (j := 42), d42]
    rfl
  have hediv : u16FromLeBytes blob[42] blob[43] = ediv := by
    rw [h42, h43, u16FromLeBytes_toLeBytes]
  have h52 : blob[52] = keyLen := getElem_of_drop d52 _
  simp [deserializeBond, hlen, bondBlobLen, h0, h1, h2, h3, slice_of_drop _ d4,
    slice_of_drop _ d10, slice_of_drop _ d26, fromLeBytes_irkField, hediv,
    slice_of_drop _ d44, h52, BondInformation.new]

end RuntimeBle.Bond
