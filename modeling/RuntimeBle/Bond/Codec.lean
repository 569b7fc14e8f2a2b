import RuntimeBle.Bond.Blob

/-!
# Bond — Codec

The blob codec as a whole: encoding and decoding undo each other on the
canonical blobs, what is accepted, and the legacy layout as a prefix of the
current one.

`readBond` is `deserialize_bond` once more, with accesses that fail out of
range; it never does, and decodes to the same bond.
-/

namespace RuntimeBle.Bond

variable {K : Type} [HostKeys K]

/-! ## Accesses that can fail -/

/-- An index behind the end of the blob. -/
inductive OutOfRange where
  | outOfRange

/-- `blob[i]`. -/
def byteAt (blob : List UInt8) (i : Nat) : Except OutOfRange UInt8 :=
  if h : i < blob.length then .ok blob[i] else .error .outOfRange

/-- `copy_from_slice(&blob[i..i + n])` into an array. -/
def bytesAt (blob : List UInt8) (i n : Nat) : Except OutOfRange (Bytes n) :=
  if h : i + n ≤ blob.length then .ok (slice blob i n h) else .error .outOfRange

/-- The fields of version 2. -/
def readTail (blob : List UInt8) (bond : BondInformation K) :
    Except OutOfRange (BondInformation K) := do
  let lo ← byteAt blob 42
  let hi ← byteAt blob 43
  let rand ← bytesAt blob 44 8
  let keyLen ← byteAt blob 52
  return { bond with ediv := u16FromLeBytes lo hi, rand, encryptionKeyLen := keyLen }

/-- The key behind its flag, each byte fetched where it lies. -/
def readIrk (K : Type) [HostKeys K] (blob : List UInt8) : Except OutOfRange (Option K) := do
  if (← byteAt blob 1) &&& 0x02 != 0 then
    return HostKeys.fromLeBytes (← bytesAt blob 26 16)
  else return none

/-- The fields behind the tests. -/
def readFields (blob : List UInt8) (level : SecurityLevel) :
    Except OutOfRange (BondInformation K) := do
  let addr ← bytesAt blob 4 6
  let ltk ← bytesAt blob 10 16
  let irk ← readIrk K blob
  let kind ← byteAt blob 3
  let flags ← byteAt blob 1
  let bond := BondInformation.new { addr := { kind, addr }, irk } ltk level (flags &&& 0x01 != 0)
  if (← byteAt blob 0) = bondBlobVersion then readTail blob bond else return bond

/-- `deserialize_bond`, with every index checked. -/
def readBond (blob : List UInt8) : Except OutOfRange (Option (BondInformation K)) := do
  if blob.length < 42 then return none
  else if (← byteAt blob 0) ≠ bondBlobVersion ∧ (← byteAt blob 0) ≠ bondBlobVersionLegacy then
    return none
  else if (← byteAt blob 0) = bondBlobVersion ∧ blob.length < bondBlobLen then return none
  else
    match cToSecurityLevel (← byteAt blob 2) with
    | none => return none
    | some level => return some (← readFields blob level)

@[simp] theorem ok_bind {α β : Type} (a : α) (f : α → Except OutOfRange β) :
    (Except.ok a >>= f) = f a := rfl

@[simp] theorem byteAt_eq {blob : List UInt8} {i : Nat} (h : i < blob.length) :
    byteAt blob i = .ok blob[i] := dif_pos h

@[simp] theorem bytesAt_eq {blob : List UInt8} {i n : Nat} (h : i + n ≤ blob.length) :
    bytesAt blob i n = .ok (slice blob i n h) := dif_pos h

omit [HostKeys K] in
theorem readTail_eq {blob : List UInt8} (h42 : 42 < blob.length) (h43 : 43 < blob.length)
    (h44 : 44 + 8 ≤ blob.length) (h52 : 52 < blob.length) (bond : BondInformation K) :
    readTail blob bond = .ok
      { bond with
        ediv := u16FromLeBytes blob[42] blob[43]
        rand := slice blob 44 8 h44
        encryptionKeyLen := blob[52] } := by
  simp only [readTail, byteAt_eq h42, byteAt_eq h43, bytesAt_eq h44, byteAt_eq h52, ok_bind]
  rfl

theorem readIrk_eq {blob : List UInt8} (h : 42 ≤ blob.length) :
    readIrk K blob = .ok
      (if blob[1] &&& 0x02 != 0 then HostKeys.fromLeBytes (slice blob 26 16 (by omega))
        else none) := by
  simp (disch := omega) only [readIrk, byteAt_eq, bytesAt_eq, ok_bind]
  split <;> rfl

/-- **`deserialize_bond` makes no access out of range**, whatever the blob. -/
theorem readBond_eq (blob : List UInt8) :
    readBond blob = .ok (deserializeBond blob : Option (BondInformation K)) := by
  unfold readBond deserializeBond
  by_cases h42 : blob.length < 42
  · simp only [h42, ↓reduceIte, ↓reduceDIte]
    rfl
  have hlen : 42 ≤ blob.length := by omega
  simp (disch := omega) only [h42, ↓reduceIte, ↓reduceDIte, byteAt_eq, ok_bind]
  split
  · rfl
  split
  · rfl
  rename_i hshort
  cases cToSecurityLevel blob[2] with
  | none => rfl
  | some level =>
      simp (disch := omega) only [readFields, readIrk_eq, byteAt_eq, bytesAt_eq, ok_bind]
      by_cases hv : blob[0] = bondBlobVersion
      · have hfull : 53 ≤ blob.length := by
          simp only [hv, true_and, bondBlobLen] at hshort
          omega
        rw [if_pos hv, dif_pos hv,
          readTail_eq (by omega) (by omega) (by omega) (by omega)]
        rfl
      · simp only [hv, ↓reduceIte, ↓reduceDIte]
        rfl

/-! ## What is accepted -/

/-- The layouts `deserialize_bond` knows, by version byte and length. -/
def KnownLayout (blob : List UInt8) : Prop :=
  (blob[0]? = some bondBlobVersionLegacy ∧ 42 ≤ blob.length)
    ∨ (blob[0]? = some bondBlobVersion ∧ 53 ≤ blob.length)

theorem cToSecurityLevel_eq_some {x : UInt8} {level : SecurityLevel} :
    cToSecurityLevel x = some level ↔ x = securityLevelToC level := by
  constructor
  · intro h
    simp only [cToSecurityLevel] at h
    split at h
    · cases h
      assumption
    split at h
    · cases h
      assumption
    split at h
    · cases h
      assumption
    · cases h
  · rintro rfl
    exact cToSecurityLevel_securityLevelToC level

theorem isSome_deserializeBond (blob : List UInt8) :
    (deserializeBond blob : Option (BondInformation K)).isSome
      ↔ KnownLayout blob ∧ ∃ level, blob[2]? = some (securityLevelToC level) := by
  unfold deserializeBond
  by_cases h42 : blob.length < 42
  · have hshort : ¬ KnownLayout blob := by
      intro h
      rcases h with ⟨-, h⟩ | ⟨-, h⟩ <;> omega
    simp [h42, hshort]
  have hlen : 42 ≤ blob.length := by omega
  have h0 : blob[0]? = some blob[0] := List.getElem?_eq_getElem _
  have h2 : blob[2]? = some blob[2] := List.getElem?_eq_getElem _
  simp only [h42, ↓reduceDIte, KnownLayout, h0, h2, Option.some.injEq]
  split
  · rename_i hversion
    simp [hversion.1, hversion.2]
  split
  · rename_i hshort
    have hne : bondBlobVersion ≠ bondBlobVersionLegacy := by decide
    have h53 : ¬ 53 ≤ blob.length := Nat.not_le.mpr hshort.2
    simp [hshort.1, hne, h53]
  rename_i hversion hshort
  have hknown : blob[0] = bondBlobVersionLegacy ∧ 42 ≤ blob.length
      ∨ blob[0] = bondBlobVersion ∧ 53 ≤ blob.length := by
    by_cases hv : blob[0] = bondBlobVersion
    · exact .inr ⟨hv, Nat.le_of_not_lt fun h => hshort ⟨hv, h⟩⟩
    · exact .inl ⟨Decidable.byContradiction fun hl => hversion ⟨hv, hl⟩, hlen⟩
  cases hlevel : cToSecurityLevel blob[2] with
  | none =>
      have hunknown : ∀ level, blob[2] ≠ securityLevelToC level := by
        intro level heq
        rw [heq, cToSecurityLevel_securityLevelToC] at hlevel
        cases hlevel
      simp [hunknown]
  | some level =>
      have hexists : ∃ level, blob[2] = securityLevelToC level :=
        ⟨level, cToSecurityLevel_eq_some.mp hlevel⟩
      simp only [hknown, hexists, and_true, iff_true]
      split <;> rfl

/-! ## Canonical blobs -/

/-- Version 2 with its reserved bits clear, and an IRK field that is the
encoding of a key or, without the IRK flag, zero. -/
structure Canonical (K : Type) [HostKeys K] (blob : List UInt8) : Prop where
  length : blob.length = bondBlobLen
  version : blob[0]? = some bondBlobVersion
  reserved : ∀ flags, blob[1]? = some flags → flags &&& 0xfc = 0
  irk : ∀ flags, blob[1]? = some flags →
    if flags &&& 0x02 != 0 then ∃ k : K, (blob.drop 26).take 16 = (HostKeys.toLeBytes k).toList
    else (blob.drop 26).take 16 = List.replicate 16 0

theorem blobFlags_of_reserved {flags : UInt8} (h : flags &&& 0xfc = 0) :
    blobFlags (flags &&& 0x01 != 0) (flags &&& 0x02 != 0) = flags := by
  have hbits : ∀ bits : BitVec 8, bits &&& 0xfc = 0 →
      bits = 0 ∨ bits = 1 ∨ bits = 2 ∨ bits = 3 := by
    decide
  have hcases : flags = 0 ∨ flags = 1 ∨ flags = 2 ∨ flags = 3 := by
    rcases hbits flags.toBitVec (congrArg UInt8.toBitVec h) with h | h | h | h
    · exact .inl (UInt8.toBitVec_inj.mp h)
    · exact .inr (.inl (UInt8.toBitVec_inj.mp h))
    · exact .inr (.inr (.inl (UInt8.toBitVec_inj.mp h)))
    · exact .inr (.inr (.inr (UInt8.toBitVec_inj.mp h)))
  rcases hcases with rfl | rfl | rfl | rfl <;> rfl

theorem u16ToLeBytes_fromLeBytes (lo hi : UInt8) :
    u16ToLeBytes (u16FromLeBytes lo hi) = [lo, hi] := by
  have hlo : lo.toNat < 256 := lo.toNat_lt
  have hhi : hi.toNat < 256 := hi.toNat_lt
  have h1 : UInt8.ofNat ((lo.toNat + 256 * hi.toNat) % 65536) = lo := by
    apply UInt8.toNat_inj.mp
    simp only [UInt8.toNat_ofNat']
    omega
  have h2 : UInt8.ofNat ((lo.toNat + 256 * hi.toNat) % 65536 / 256) = hi := by
    apply UInt8.toNat_inj.mp
    simp only [UInt8.toNat_ofNat']
    omega
  simp [u16ToLeBytes, u16FromLeBytes, h1, h2]

/-- A slice with what follows it. -/
theorem slice_append_drop {blob : List UInt8} {i n : Nat} (h : i + n ≤ blob.length) :
    (slice blob i n h).toList ++ blob.drop (i + n) = blob.drop i := by
  rw [← List.drop_drop]
  simp only [slice, Vector.toList]
  exact List.take_append_drop n _

/-- The IRK field of a canonical blob is that of a key, or of none. -/
theorem Canonical.exists_irk {blob : List UInt8} (hc : Canonical K blob)
    (h1 : 1 < blob.length) (h42 : 26 + 16 ≤ blob.length) :
    ∃ irk : Option K, irk.isSome = (blob[1] &&& 0x02 != 0) ∧
      irkField irk = slice blob 26 16 h42 := by
  have hirk := hc.irk blob[1] (List.getElem?_eq_getElem h1)
  cases hflag : blob[1] &&& 0x02 != 0 with
  | true =>
      simp only [hflag, ↓reduceIte] at hirk
      obtain ⟨k, hk⟩ := hirk
      refine ⟨some k, rfl, Vector.toList_inj.mp ?_⟩
      simpa [slice, irkField, Vector.toList] using hk.symm
  | false =>
      simp only [hflag, Bool.false_eq_true, ↓reduceIte] at hirk
      refine ⟨none, rfl, Vector.toList_inj.mp ?_⟩
      simpa [slice, irkField, Vector.toList] using hirk.symm

/-- A canonical blob that is accepted is the blob of some bond. -/
theorem exists_serializeBond {blob : List UInt8} (hc : Canonical K blob)
    (h : (deserializeBond blob : Option (BondInformation K)).isSome) :
    ∃ bond : BondInformation K, serializeBond bond = blob := by
  obtain ⟨-, level, hlevel⟩ := (isSome_deserializeBond blob).mp h
  have hlen : blob.length = 53 := hc.length
  obtain ⟨irk, hsome, hfield⟩ := hc.exists_irk (by omega) (by omega)
  have h0 : blob[0] = bondBlobVersion :=
    Option.some.inj ((List.getElem?_eq_getElem _).symm.trans hc.version)
  have h1 := blobFlags_of_reserved (hc.reserved blob[1] (List.getElem?_eq_getElem _))
  have h2 : blob[2] = securityLevelToC level :=
    Option.some.inj ((List.getElem?_eq_getElem _).symm.trans hlevel)
  refine ⟨
    { ltk := slice blob 10 16 (by omega)
      identity := { addr := { kind := blob[3], addr := slice blob 4 6 (by omega) }, irk }
      isBonded := blob[1] &&& 0x01 != 0
      securityLevel := level
      ediv := u16FromLeBytes blob[42] blob[43]
      rand := slice blob 44 8 (by omega)
      encryptionKeyLen := blob[52] }, ?_⟩
  have hlast : blob.drop 52 = [blob[52]] := by
    rw [List.drop_eq_getElem_cons (by omega), List.drop_of_length_le (by omega)]
  have hediv : blob.drop 42 = [blob[42], blob[43]] ++ blob.drop 44 := by
    rw [List.drop_eq_getElem_cons (by omega), List.drop_eq_getElem_cons (by omega)]
    rfl
  have hhead : blob = blob[0] :: blob[1] :: blob[2] :: blob[3] :: blob.drop 4 := by
    rw [← List.drop_eq_getElem_cons, ← List.drop_eq_getElem_cons, ← List.drop_eq_getElem_cons,
      ← List.drop_eq_getElem_cons, List.drop_zero]
  -- the fields in their order, from the last one to the first
  calc serializeBond _
      = [bondBlobVersion, blobFlags (blob[1] &&& 0x01 != 0) irk.isSome, securityLevelToC level,
          blob[3]] ++ ((slice blob 4 6 (by omega)).toList ++ ((slice blob 10 16 (by omega)).toList
            ++ ((irkField irk).toList ++ (u16ToLeBytes (u16FromLeBytes blob[42] blob[43])
              ++ ((slice blob 44 8 (by omega)).toList ++ [blob[52]]))))) := by
        simp only [serializeBond, List.append_assoc]
    _ = blob[0] :: blob[1] :: blob[2] :: blob[3] :: blob.drop 4 := by
        rw [hsome, h1, h0, h2, hfield, u16ToLeBytes_fromLeBytes, ← hlast, slice_append_drop,
          ← hediv, slice_append_drop, slice_append_drop, slice_append_drop]
        rfl
    _ = blob := hhead.symm

/-- **Decoding a canonical blob and encoding it again gives the blob.** -/
theorem serializeBond_deserializeBond {blob : List UInt8} (hc : Canonical K blob)
    {bond : BondInformation K} (h : deserializeBond blob = some bond) :
    serializeBond bond = blob := by
  obtain ⟨bond', hblob⟩ := exists_serializeBond (K := K) hc (by rw [h]; rfl)
  have hback := deserializeBond_serializeBond bond'
  rw [hblob, h] at hback
  rw [Option.some.inj hback, hblob]

/-! ## The legacy layout -/

/-- What both layouts hold. -/
def BondInformation.pairing (bond : BondInformation K) :
    Identity K × Bytes 16 × SecurityLevel × Bool :=
  (bond.identity, bond.ltk, bond.securityLevel, bond.isBonded)

/-- The same out of the bytes after the version. -/
def pairingOf (K : Type) [HostKeys K] (body : List UInt8) (h : body.length = 41) :
    Option (Identity K × Bytes 16 × SecurityLevel × Bool) :=
  (cToSecurityLevel body[1]).map fun level =>
    let irk := if body[0] &&& 0x02 != 0 then HostKeys.fromLeBytes (slice body 25 16 (by omega))
      else none
    ({ addr := { kind := body[2], addr := slice body 3 6 (by omega) }, irk },
      slice body 9 16 (by omega), level, body[0] &&& 0x01 != 0)

theorem slice_cons_append {version : UInt8} {body extra : List UInt8} {i n : Nat}
    (h : i + n ≤ body.length) (h' : i + 1 + n ≤ (version :: (body ++ extra)).length) :
    slice (version :: (body ++ extra)) (i + 1) n h' = slice body i n h := by
  apply Vector.toList_inj.mp
  have hdrop : i ≤ body.length := by omega
  have htake : n ≤ (body.drop i).length := by
    rw [List.length_drop]
    omega
  simp only [slice, Vector.toList, List.drop_succ_cons, List.drop_append_of_le_length hdrop,
    List.take_append_of_le_length htake]

theorem pairing_deserializeBond {version : UInt8} {body extra : List UInt8}
    (hbody : body.length = 41)
    (hversion : version = bondBlobVersionLegacy
      ∨ version = bondBlobVersion ∧ 11 ≤ extra.length) :
    (deserializeBond (version :: (body ++ extra))).map BondInformation.pairing
      = pairingOf K body hbody := by
  have hlen : 42 ≤ (version :: (body ++ extra)).length := by
    simp only [List.length_cons, List.length_append]
    omega
  have hfull :
      ¬ (version = bondBlobVersion ∧ (version :: (body ++ extra)).length < bondBlobLen) := by
    rintro ⟨rfl, hshort⟩
    simp only [List.length_cons, List.length_append, bondBlobLen] at hshort
    rcases hversion with h | h
    · exact absurd h (by decide)
    · omega
  have hknown : ¬ (version ≠ bondBlobVersion ∧ version ≠ bondBlobVersionLegacy) := by
    rintro ⟨h2, h1⟩
    exact hversion.elim h1 fun h => h2 h.1
  have haddr : slice (version :: (body ++ extra)) 4 6 (by omega) = slice body 3 6 (by omega) :=
    slice_cons_append ..
  have hltk : slice (version :: (body ++ extra)) 10 16 (by omega) = slice body 9 16 (by omega) :=
    slice_cons_append ..
  have hirk : slice (version :: (body ++ extra)) 26 16 (by omega) = slice body 25 16 (by omega) :=
    slice_cons_append ..
  have h1 : (version :: (body ++ extra))[1] = body[0] := by
    rw [List.getElem_cons_succ, List.getElem_append_left]
  have h2 : (version :: (body ++ extra))[2] = body[1] := by
    rw [List.getElem_cons_succ, List.getElem_append_left]
  have h3 : (version :: (body ++ extra))[3] = body[2] := by
    rw [List.getElem_cons_succ, List.getElem_append_left]
  unfold deserializeBond pairingOf
  simp only [Nat.not_lt.mpr hlen, ↓reduceDIte, List.getElem_cons_zero, hknown, ↓reduceIte, hfull,
    h1, h2, h3, haddr, hltk, hirk]
  cases cToSecurityLevel body[1] with
  | none => rfl
  | some level =>
      simp only
      split <;> rfl

/-- **A legacy blob gives what the current layout gives**, up to the fields
it does not have. -/
theorem deserializeBond_legacy {body old new : List UInt8} (hbody : body.length = 41)
    (hnew : 11 ≤ new.length) :
    (deserializeBond (bondBlobVersionLegacy :: (body ++ old))).map
        (BondInformation.pairing (K := K))
      = (deserializeBond (bondBlobVersion :: (body ++ new))).map BondInformation.pairing := by
  rw [pairing_deserializeBond hbody (.inl rfl), pairing_deserializeBond hbody (.inr ⟨rfl, hnew⟩)]

/-- **The bond blob codec.** Encoding then decoding is the identity on
bonds, decoding then encoding on the canonical blobs; no access is out of
range; only the two known layouts with a known security level are
accepted; and a legacy blob gives what the current one does. -/
theorem bond_codec (K : Type) [HostKeys K] :
    (∀ bond : BondInformation K, deserializeBond (serializeBond bond) = some bond)
    ∧ (∀ (blob : List UInt8) (bond : BondInformation K), Canonical K blob →
        deserializeBond blob = some bond → serializeBond bond = blob)
    ∧ (∀ blob : List UInt8,
        readBond blob = .ok (deserializeBond blob : Option (BondInformation K)))
    ∧ (∀ blob : List UInt8, (deserializeBond blob : Option (BondInformation K)).isSome
        ↔ KnownLayout blob ∧ ∃ level, blob[2]? = some (securityLevelToC level))
    ∧ (∀ body old new : List UInt8, body.length = 41 → 11 ≤ new.length →
        (deserializeBond (bondBlobVersionLegacy :: (body ++ old))).map
            (BondInformation.pairing (K := K))
          = (deserializeBond (bondBlobVersion :: (body ++ new))).map BondInformation.pairing) :=
  ⟨deserializeBond_serializeBond, fun _ _ hc h => serializeBond_deserializeBond hc h,
    readBond_eq, isSome_deserializeBond, fun _ _ _ hbody hnew => deserializeBond_legacy hbody hnew⟩

end RuntimeBle.Bond
