import RuntimeBle.Adv.Payload
import RuntimeBle.Lib.Utf8

/-!
# Adv — Names

What the device name does to the two builders: they agree but for the
empty name, and the name that is shortened may be cut in the middle of a
character.
-/

namespace RuntimeBle.Adv

open RuntimeBle.Lib Ltv

/-- `&adv[..adv_len]`. -/
def AdvBuf.payload (s : AdvBuf) : List UInt8 := s.dst.toList.take s.pos

theorem AdvBuf.Holds.payload {s : AdvBuf} {bytes : List UInt8} (h : s.Holds bytes) :
    s.payload = bytes := by
  rw [AdvBuf.payload, h.2, h.1, List.take_left]

section Names

variable (genericPowerDevice : UInt16) (cfg : RuntimeCfg) (flags : UInt8)
  (manufacturerData name : List UInt8)

/-- What the fields before the name take. -/
def usedBytes : Nat := size (askedAds genericPowerDevice cfg flags manufacturerData)

theorem size_payloadAdsExt :
    size (payloadAdsExt genericPowerDevice cfg flags manufacturerData name)
      = usedBytes genericPowerDevice cfg flags manufacturerData
        + if name ≠ [] then name.length + 2 else 0 := by
  rw [payloadAdsExt, size_append]
  split <;> rfl

variable {genericPowerDevice cfg flags manufacturerData name}

/-- What a legacy payload that is built holds. -/
theorem payload_of_built {t : AdvBuf}
    (h : buildAdvPayload genericPowerDevice cfg flags manufacturerData name
      (Vector.replicate 31 0) = some t) :
    t.payload = encode (payloadAds genericPowerDevice cfg flags manufacturerData name)
    ∧ decode t.payload = some (payloadAds genericPowerDevice cfg flags manufacturerData name) := by
  have hholds := (isSome_iff_of_ite (buildAdvPayload_eq _ _ _ _ _)).2 t h
  have hdecode := (adv_payloads_exact _ _ _ _ _).2.1 t h
  exact ⟨hholds.payload, hdecode.2.1⟩

theorem built_iff :
    (buildAdvPayload genericPowerDevice cfg flags manufacturerData name
        (Vector.replicate 31 0)).isSome
      ↔ usedBytes genericPowerDevice cfg flags manufacturerData ≤ 28
        ∨ (usedBytes genericPowerDevice cfg flags manufacturerData ≤ 29 ∧ name = []) :=
  (isSome_iff_of_ite (buildAdvPayload_eq _ _ _ _ _)).1

theorem builtExt_eq (hfit : size (payloadAdsExt genericPowerDevice cfg flags manufacturerData name)
      ≤ 255) :
    buildAdvPayloadExt genericPowerDevice cfg flags manufacturerData name []
      = some (encode (payloadAdsExt genericPowerDevice cfg flags manufacturerData name)) := by
  have heq := buildAdvPayloadExt_eq genericPowerDevice cfg flags manufacturerData name
  rw [if_pos hfit] at heq
  obtain ⟨bytes, hbytes, rfl⟩ := heq
  exact hbytes

theorem builtExt_some {bytes : List UInt8}
    (h : buildAdvPayloadExt genericPowerDevice cfg flags manufacturerData name [] = some bytes) :
    bytes = encode (payloadAdsExt genericPowerDevice cfg flags manufacturerData name) :=
  (isSome_iff_of_ite (buildAdvPayloadExt_eq _ _ _ _ _)).2 bytes h

/-- None of the fields before the name is a Local Name. -/
theorem not_name_of_mem_askedAds {r : Record}
    (h : r ∈ askedAds genericPowerDevice cfg flags manufacturerData) :
    r.ty ≠ 0x08 ∧ r.ty ≠ 0x09 := by
  have hwhen : ∀ {p : Prop} [Decidable p] {a : Record},
      (r ∈ if p then [a] else []) → r = a := by
    intro p _ a hr
    split at hr
    · exact List.mem_singleton.mp hr
    · cases hr
  simp only [askedAds, List.mem_append, List.mem_singleton] at h
  rcases h with rfl | hman | huuid | hdata | happearance | hpower
  · exact ⟨nofun, nofun⟩
  · rw [hwhen hman]
    exact ⟨nofun, nofun⟩
  · unfold serviceUuidAds at huuid
    split at huuid
    · cases huuid
    · rw [hwhen huuid]
      dsimp only
      split <;> decide
  · unfold serviceDataAds at hdata
    split at hdata
    · rw [hwhen hdata]
      dsimp only
      split <;> decide
    · cases hdata
  · rw [hwhen happearance]
    exact ⟨nofun, nofun⟩
  · rw [hwhen hpower]
    exact ⟨nofun, nofun⟩

/-! ## The empty name -/

/-- The builders agree: what fits into a legacy payload is the same there,
and what a legacy payload holds with its name whole is the same in an
extended one. -/
def BuildersAgree (genericPowerDevice : UInt16) (cfg : RuntimeCfg) (flags : UInt8)
    (manufacturerData name : List UInt8) : Prop :=
  (∀ bytes, buildAdvPayloadExt genericPowerDevice cfg flags manufacturerData name [] = some bytes →
    bytes.length ≤ 31 →
    ∃ t, buildAdvPayload genericPowerDevice cfg flags manufacturerData name
      (Vector.replicate 31 0) = some t ∧ t.payload = bytes)
  ∧ ∀ t, buildAdvPayload genericPowerDevice cfg flags manufacturerData name
      (Vector.replicate 31 0) = some t →
    (∀ rs, decode t.payload = some rs → ∀ r ∈ rs, r.ty ≠ 0x08) →
    buildAdvPayloadExt genericPowerDevice cfg flags manufacturerData name [] = some t.payload

theorem agree_of_name (hname : name ≠ []) :
    BuildersAgree genericPowerDevice cfg flags manufacturerData name := by
  have hsize := size_payloadAdsExt genericPowerDevice cfg flags manufacturerData name
  rw [if_pos hname] at hsize
  -- with its name whole, a legacy payload asks for the same
  have hsame : usedBytes genericPowerDevice cfg flags manufacturerData + 2 + name.length ≤ 31 →
      payloadAds genericPowerDevice cfg flags manufacturerData name
        = payloadAdsExt genericPowerDevice cfg flags manufacturerData name := by
    intro hwhole
    rw [payloadAds, payloadAdsExt, if_pos hname, nameAd]
    exact congrArg (_ ++ [·]) (if_pos hwhole)
  constructor
  · intro bytes hbytes hlen
    have hbytes := builtExt_some hbytes
    rw [hbytes, length_encode, hsize] at hlen
    have hbuilt : (buildAdvPayload genericPowerDevice cfg flags manufacturerData name
        (Vector.replicate 31 0)).isSome := by
      refine built_iff.mpr (.inl ?_)
      have := List.length_pos_iff.mpr hname
      omega
    obtain ⟨t, ht⟩ := Option.isSome_iff_exists.mp hbuilt
    refine ⟨t, ht, ?_⟩
    rw [(payload_of_built ht).1, hbytes, hsame (by omega)]
  · intro t ht hwhole
    obtain ⟨hpayload, hdecode⟩ := payload_of_built ht
    have hlen : usedBytes genericPowerDevice cfg flags manufacturerData + 2 + name.length ≤ 31 := by
      apply Decidable.byContradiction
      intro hlong
      refine hwhole _ hdecode
        (nameAd (usedBytes genericPowerDevice cfg flags manufacturerData) name) ?_ ?_
      · exact List.mem_append_right _ List.mem_cons_self
      · rw [nameAd, if_neg hlong]
    rw [builtExt_eq (by rw [hsize]; omega), hpayload, hsame hlen]

theorem agree_of_full (hfull : 31 < usedBytes genericPowerDevice cfg flags manufacturerData) :
    BuildersAgree genericPowerDevice cfg flags manufacturerData name := by
  constructor
  · intro bytes hbytes hlen
    rw [builtExt_some hbytes, length_encode, size_payloadAdsExt] at hlen
    omega
  · intro t ht _
    have := built_iff.mp (Option.isSome_iff_exists.mpr ⟨t, ht⟩)
    omega

/-- Without a name a legacy payload has an empty structure for it, or does
not fit because of it. -/
theorem not_agree_of_empty
    (hfit : usedBytes genericPowerDevice cfg flags manufacturerData ≤ 31) :
    ¬ BuildersAgree genericPowerDevice cfg flags manufacturerData [] := by
  intro hagree
  have hsize : size (payloadAdsExt genericPowerDevice cfg flags manufacturerData [])
      = usedBytes genericPowerDevice cfg flags manufacturerData := by
    rw [size_payloadAdsExt]
    rfl
  obtain ⟨t, ht, hpayload⟩ := hagree.1 _ (builtExt_eq (by omega)) (by
    rw [length_encode]
    omega)
  have hlen := congrArg List.length hpayload
  rw [(payload_of_built ht).1, length_encode, length_encode, hsize, payloadAds, size_append] at hlen
  have hname : 2 ≤ size [nameAd (usedBytes genericPowerDevice cfg flags manufacturerData) []] :=
    Nat.le_add_left 2 _
  have hused : size (askedAds genericPowerDevice cfg flags manufacturerData)
      = usedBytes genericPowerDevice cfg flags manufacturerData := rfl
  rw [hused] at hlen
  omega

/-- **The builders agree but for the empty name**: there the legacy builder
adds a structure that the extended one leaves out. -/
theorem builders_agree_iff (genericPowerDevice : UInt16) (cfg : RuntimeCfg) (flags : UInt8)
    (manufacturerData name : List UInt8) :
    BuildersAgree genericPowerDevice cfg flags manufacturerData name
      ↔ name ≠ [] ∨ 31 < usedBytes genericPowerDevice cfg flags manufacturerData := by
  constructor
  · intro hagree
    by_cases hname : name = []
    · subst hname
      refine .inr (Nat.not_le.mp fun hfit => ?_)
      exact not_agree_of_empty hfit hagree
    · exact .inl hname
  · rintro (hname | hfull)
    · exact agree_of_name hname
    · exact agree_of_full hfull

/-- A zeroed configuration with an empty name: five bytes against three. -/
theorem builders_differ_on_empty_name :
    ¬ BuildersAgree 0x0500 {} 0x06 [] [] := by
  intro hagree
  obtain ⟨t, ht, hpayload⟩ := hagree.1 [0x02, 0x01, 0x06] (by decide) (by decide)
  have hbuilt : (buildAdvPayload 0x0500 {} 0x06 [] [] (Vector.replicate 31 0)).map AdvBuf.payload
      = some [0x02, 0x01, 0x06, 0x01, 0x09] := by decide
  rw [ht, Option.map_some, hpayload] at hbuilt
  cases hbuilt

/-! ## The cut name -/

/-- The payload ends with its only Local Name, which is a text, and the
device name or its beginning. -/
def NamesText (name payload : List UInt8) : Prop :=
  ∃ rs r, decode payload = some (rs ++ [r])
    ∧ (r.ty = 0x09 ∨ r.ty = 0x08)
    ∧ Utf8.Valid r.data
    ∧ r.data <+: name
    ∧ ∀ r' ∈ rs, r'.ty ≠ 0x08 ∧ r'.ty ≠ 0x09

/-- Behind `used` bytes the name fits whole, or not even a byte of it does,
or a character begins where it is cut. -/
def CutsCleanly (used : Nat) (name : List UInt8) : Prop :=
  used + 2 + name.length ≤ 31 ∨ 28 < used ∨ ∃ c, name[29 - used]? = some c ∧ c.IsUTF8FirstByte

theorem namesText_iff {t : AdvBuf}
    (h : buildAdvPayload genericPowerDevice cfg flags manufacturerData name
      (Vector.replicate 31 0) = some t) :
    NamesText name t.payload
      ↔ Utf8.Valid
          (nameAd (usedBytes genericPowerDevice cfg flags manufacturerData) name).data := by
  have hdecode := (payload_of_built h).2
  constructor
  · rintro ⟨rs, r, hrs, -, hvalid, -⟩
    have hsame := Option.some.inj (hdecode.symm.trans hrs)
    obtain ⟨-, hlast⟩ := List.append_inj' hsame rfl
    rwa [← List.singleton_inj.mp hlast] at hvalid
  · intro hvalid
    refine ⟨_, _, hdecode, ?_, hvalid, ?_, fun r' => not_name_of_mem_askedAds⟩
    · unfold nameAd
      split
      · exact .inl rfl
      · exact .inr rfl
    · unfold nameAd
      split
      · exact List.prefix_refl name
      · exact List.take_prefix _ name

/-- **Where the name stays a text**: the legacy builder keeps it one when
it is not cut, or cut between two characters. -/
theorem legacy_name_text_iff (genericPowerDevice : UInt16) (cfg : RuntimeCfg) (flags : UInt8)
    (manufacturerData name : List UInt8) (hname : Utf8.Valid name) :
    (∀ t, buildAdvPayload genericPowerDevice cfg flags manufacturerData name
        (Vector.replicate 31 0) = some t → NamesText name t.payload)
      ↔ CutsCleanly (usedBytes genericPowerDevice cfg flags manufacturerData) name := by
  constructor
  · intro htext
    by_cases hwhole : usedBytes genericPowerDevice cfg flags manufacturerData + 2 + name.length ≤ 31
    · exact .inl hwhole
    by_cases hused : 28 < usedBytes genericPowerDevice cfg flags manufacturerData
    · exact .inr (.inl hused)
    obtain ⟨t, ht⟩ := Option.isSome_iff_exists.mp (built_iff.mpr (.inl (Nat.not_lt.mp hused)))
    have hvalid := (namesText_iff ht).mp (htext t ht)
    have hin : 29 - usedBytes genericPowerDevice cfg flags manufacturerData < name.length := by
      omega
    rw [nameAd, if_neg hwhole, Nat.sub_right_comm] at hvalid
    exact .inr (.inr ⟨_, List.getElem?_eq_getElem hin,
      (Utf8.valid_take_iff hname (List.getElem?_eq_getElem hin)).mp hvalid⟩)
  · intro hclean t ht
    rw [namesText_iff ht, nameAd]
    split
    · exact hname
    · rename_i hlong
      rw [Nat.sub_right_comm]
      rcases hclean with hwhole | hused | ⟨c, hc, hfirst⟩
      · exact absurd hwhole hlong
      · rcases built_iff.mp (Option.isSome_iff_exists.mpr ⟨t, ht⟩) with hle | ⟨hle, rfl⟩
        · omega
        · rw [List.take_nil]
          exact Utf8.valid_nil
      · exact (Utf8.valid_take_iff hname hc).mpr hfirst

/-- `a` and thirteen times `ä`: 27 bytes, of which 26 fit behind the flags. -/
def umlauts : List UInt8 := 0x61 :: (List.replicate 13 [0xc3, 0xa4]).flatten

theorem valid_umlauts : Utf8.Valid umlauts := ⟨'a' :: List.replicate 13 'ä', by decide⟩

theorem legacy_name_text_umlauts :
    Utf8.Valid umlauts
      ∧ ((∀ t, buildAdvPayload 0x0500 {} 0x06 [] umlauts (Vector.replicate 31 0) = some t →
            NamesText umlauts t.payload)
          ↔ CutsCleanly (usedBytes 0x0500 {} 0x06 []) umlauts) :=
  ⟨valid_umlauts, legacy_name_text_iff 0x0500 {} 0x06 [] umlauts valid_umlauts⟩

/-- The last `ä` is split. -/
theorem legacy_name_splits_umlaut :
    Utf8.Valid umlauts
      ∧ ¬ ∀ t, buildAdvPayload 0x0500 {} 0x06 [] umlauts (Vector.replicate 31 0) = some t →
          NamesText umlauts t.payload := by
  refine ⟨valid_umlauts, fun htext => ?_⟩
  have hbuilt : (buildAdvPayload 0x0500 {} 0x06 [] umlauts (Vector.replicate 31 0)).isSome :=
    built_iff.mpr (.inl (by decide))
  obtain ⟨t, ht⟩ := Option.isSome_iff_exists.mp hbuilt
  have hvalid : Utf8.Valid (umlauts.take 26) := (namesText_iff ht).mp (htext t ht)
  have hfirst := (Utf8.valid_take_iff (c := 0xa4) valid_umlauts (by decide)).mp hvalid
  revert hfirst
  decide

end Names

end RuntimeBle.Adv
