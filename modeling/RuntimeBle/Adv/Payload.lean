import RuntimeBle.Bond.Blob
import RuntimeBle.Lib.Ltv

/-!
# Adv — Payload

The two builders of advertising data: `build_adv_payload` into an array of
31 bytes, `build_adv_payload_ext` into a vector of up to 255. Both go
through the same fields of the configuration; they differ in the buffer, in
the room for the parts that are put together first, and in the name.

The appearance that stands for none is a constant of the host crate,
`genericPowerDevice`. An early return of `None` is all that is left of a
half-written buffer.
-/

namespace RuntimeBle.Adv

open RuntimeBle.Lib Ltv
open RuntimeBle.Bond (u16ToLeBytes)

/-! ## The buffers -/

def extAdvDataMax : Nat := 255

/-- `dst` and `pos`. -/
structure AdvBuf where
  dst : Bytes 31
  pos : Nat
deriving DecidableEq

/-- `dst[i..i + src.len()].copy_from_slice(src)`. -/
def copyAt {n : Nat} (dst : Bytes n) (i : Nat) (src : List UInt8) (h : i + src.length ≤ n) :
    Bytes n :=
  ⟨(dst.toList.take i ++ src ++ dst.toList.drop (i + src.length)).toArray, by simp; omega⟩

/-- `push_ad`: length, type and data behind what is there. -/
def pushAd (s : AdvBuf) (r : Record) : Option AdvBuf :=
  if h : s.pos + (r.data.length + 2) > 31 ∨ r.data.length > 254 then none
  else
    have hfit : s.pos + (r.data.length + 2) ≤ 31 := by omega
    let dst := copyAt s.dst s.pos [UInt8.ofNat (r.data.length + 1)] (by simp; omega)
    let dst := copyAt dst (s.pos + 1) [r.ty] (by simp; omega)
    let dst := copyAt dst (s.pos + 2) r.data (by omega)
    some { dst, pos := s.pos + (r.data.length + 2) }

/-- `heapless::Vec<u8, EXT_ADV_DATA_MAX>`. -/
abbrev ExtAdvData := List UInt8

/-- `heapless::Vec::extend_from_slice`, and `push` for one byte. -/
def extend (dst : ExtAdvData) (data : List UInt8) : Option ExtAdvData :=
  if dst.length + data.length ≤ extAdvDataMax then some (dst ++ data) else none

/-- `push_ad_ext`: the same, on a vector. -/
def pushAdExt (dst : ExtAdvData) (r : Record) : Option ExtAdvData :=
  if r.data.length > 254 ∨ dst.length + (r.data.length + 2) > extAdvDataMax then none
  else do
    let dst ← extend dst [UInt8.ofNat (r.data.length + 1)]
    let dst ← extend dst [r.ty]
    extend dst r.data

/-! ## The builders -/

section Builders

variable {σ : Type} (push : σ → Record → Option σ) (room : Nat)

/-- The manufacturer data; the identifier and the data are put together
in a buffer of `room` bytes. -/
def pushManufacturer (cfg : RuntimeCfg) (manufacturerData : List UInt8) (s : σ) : Option σ :=
  if cfg.manufacturerId ≠ 0 ∨ manufacturerData ≠ [] then
    if 2 + manufacturerData.length > room then none
    else push s { ty := 0xff, data := u16ToLeBytes cfg.manufacturerId ++ manufacturerData }
  else some s

/-- The UUID as the complete list of its length. -/
def pushServiceUuid (cfg : RuntimeCfg) (s : σ) : Option σ :=
  match cfg.advServiceUuid with
  | none => some s
  | some uuid =>
      if uuid.length = 2 ∨ uuid.length = 16 then
        push s { ty := if uuid.length = 2 then 0x03 else 0x07, data := uuid }
      else some s

/-- The service data, put together like the manufacturer data. -/
def pushServiceData (cfg : RuntimeCfg) (s : σ) : Option σ :=
  match cfg.advServiceDataUuid, cfg.advServiceData with
  | some uuid, some data =>
      if 0 < data.length ∧ (uuid.length = 2 ∨ uuid.length = 16) then
        if uuid.length + data.length > room then none
        else push s { ty := if uuid.length = 2 then 0x16 else 0x21, data := uuid ++ data }
      else some s
  | _, _ => some s

/-- The appearance, where one is to be advertised. -/
def pushAppearance (genericPowerDevice : UInt16) (cfg : RuntimeCfg) (s : σ) : Option σ :=
  if cfg.advAppearance ≠ 0 then
    let appearance := if cfg.appearance = 0 then genericPowerDevice else cfg.appearance
    push s { ty := 0x19, data := u16ToLeBytes appearance }
  else some s

/-- The level, where it is to be advertised. -/
def pushTxPower (cfg : RuntimeCfg) (s : σ) : Option σ :=
  if cfg.advTxPowerPresent ≠ 0 then push s { ty := 0x0a, data := [cfg.advTxPowerDbm.toUInt8] }
  else some s

/-- What the builders have in common: everything but the name. -/
def pushFields (genericPowerDevice : UInt16) (cfg : RuntimeCfg) (flags : UInt8)
    (manufacturerData : List UInt8) (s : σ) : Option σ := do
  let s ← push s { ty := 0x01, data := [flags] }
  let s ← pushManufacturer push room cfg manufacturerData s
  let s ← pushServiceUuid push cfg s
  let s ← pushServiceData push room cfg s
  let s ← pushAppearance push genericPowerDevice cfg s
  pushTxPower push cfg s

end Builders

/-- The name, shortened when it does not fit. -/
def pushName (name : List UInt8) (s : AdvBuf) : Option AdvBuf :=
  match pushAd s { ty := 0x09, data := name } with
  | some s => some s
  | none =>
      let avail := 31 - s.pos
      if avail < 3 then none
      else pushAd s { ty := 0x08, data := name.take (min name.length (avail - 2)) }

/-- `build_adv_payload`: the name last, cut to what is left. -/
def buildAdvPayload (genericPowerDevice : UInt16) (cfg : RuntimeCfg) (flags : UInt8)
    (manufacturerData name : List UInt8) (dst : Bytes 31) : Option AdvBuf := do
  let s ← pushFields pushAd 29 genericPowerDevice cfg flags manufacturerData { dst, pos := 0 }
  pushName name s

/-- `build_adv_payload_ext`: the name last, and whole. -/
def buildAdvPayloadExt (genericPowerDevice : UInt16) (cfg : RuntimeCfg) (flags : UInt8)
    (manufacturerData name : List UInt8) (dst : ExtAdvData) : Option ExtAdvData := do
  let dst ← pushFields pushAdExt extAdvDataMax genericPowerDevice cfg flags manufacturerData dst
  if name ≠ [] then pushAdExt dst { ty := 0x09, data := name } else some dst

/-! ## What the configuration asks for -/

/-- The structures that the fields stand for: manufacturer data. -/
def manufacturerAds (cfg : RuntimeCfg) (manufacturerData : List UInt8) : List Record :=
  if cfg.manufacturerId ≠ 0 ∨ manufacturerData ≠ [] then
    [{ ty := 0xff, data := u16ToLeBytes cfg.manufacturerId ++ manufacturerData }]
  else []

/-- A service UUID of a length that there is. -/
def serviceUuidAds (cfg : RuntimeCfg) : List Record :=
  match cfg.advServiceUuid with
  | none => []
  | some uuid =>
      if uuid.length = 2 ∨ uuid.length = 16 then
        [{ ty := if uuid.length = 2 then 0x03 else 0x07, data := uuid }]
      else []

/-- Data behind such a UUID. -/
def serviceDataAds (cfg : RuntimeCfg) : List Record :=
  match cfg.advServiceDataUuid, cfg.advServiceData with
  | some uuid, some data =>
      if 0 < data.length ∧ (uuid.length = 2 ∨ uuid.length = 16) then
        [{ ty := if uuid.length = 2 then 0x16 else 0x21, data := uuid ++ data }]
      else []
  | _, _ => []

/-- The appearance. -/
def appearanceAds (genericPowerDevice : UInt16) (cfg : RuntimeCfg) : List Record :=
  if cfg.advAppearance ≠ 0 then
    let appearance := if cfg.appearance = 0 then genericPowerDevice else cfg.appearance
    [{ ty := 0x19, data := u16ToLeBytes appearance }]
  else []

/-- The transmission power. -/
def txPowerAds (cfg : RuntimeCfg) : List Record :=
  if cfg.advTxPowerPresent ≠ 0 then [{ ty := 0x0a, data := [cfg.advTxPowerDbm.toUInt8] }] else []

/-- The AD structures before the name, in their order. -/
def askedAds (genericPowerDevice : UInt16) (cfg : RuntimeCfg) (flags : UInt8)
    (manufacturerData : List UInt8) : List Record :=
  [{ ty := 0x01, data := [flags] }] ++ (manufacturerAds cfg manufacturerData ++
    (serviceUuidAds cfg ++ (serviceDataAds cfg ++
      (appearanceAds genericPowerDevice cfg ++ txPowerAds cfg))))

/-- The name behind `used` bytes: whole, or the prefix that fits. -/
def nameAd (used : Nat) (name : List UInt8) : Record :=
  if used + 2 + name.length ≤ 31 then { ty := 0x09, data := name }
  else { ty := 0x08, data := name.take (31 - used - 2) }

/-- What a legacy payload asks for, with as much of the name as fits. -/
def payloadAds (genericPowerDevice : UInt16) (cfg : RuntimeCfg) (flags : UInt8)
    (manufacturerData name : List UInt8) : List Record :=
  let asked := askedAds genericPowerDevice cfg flags manufacturerData
  asked ++ [nameAd (size asked) name]

/-- What an extended payload asks for. -/
def payloadAdsExt (genericPowerDevice : UInt16) (cfg : RuntimeCfg) (flags : UInt8)
    (manufacturerData name : List UInt8) : List Record :=
  askedAds genericPowerDevice cfg flags manufacturerData
    ++ if name ≠ [] then [{ ty := 0x09, data := name }] else []

/-! ## The buffers are writers -/

theorem copyAt_toList {n i : Nat} {dst : Bytes n} {bytes src : List UInt8}
    (hdst : dst.toList = bytes ++ List.replicate (n - bytes.length) 0) (hi : i = bytes.length)
    (h : i + src.length ≤ n) :
    (copyAt dst i src h).toList
      = (bytes ++ src) ++ List.replicate (n - (bytes ++ src).length) 0 := by
  subst hi
  have htake : dst.toList.take bytes.length = bytes := by
    rw [hdst, List.take_left]
  have hdrop : dst.toList.drop (bytes.length + src.length)
      = List.replicate (n - (bytes ++ src).length) 0 := by
    rw [hdst, ← List.drop_drop, List.drop_left, List.drop_replicate, List.length_append,
      Nat.sub_sub]
  show dst.toList.take bytes.length ++ src ++ dst.toList.drop (bytes.length + src.length) = _
  rw [htake, hdrop]

/-- The array holds `bytes`, and zeros behind them. -/
def AdvBuf.Holds (s : AdvBuf) (bytes : List UInt8) : Prop :=
  s.pos = bytes.length ∧ s.dst.toList = bytes ++ List.replicate (31 - bytes.length) 0

theorem AdvBuf.Holds.length_le {s : AdvBuf} {bytes : List UInt8} (h : s.Holds bytes) :
    bytes.length ≤ 31 := by
  have hlen := congrArg List.length h.2
  simp only [Vector.length_toList, List.length_append, List.length_replicate] at hlen
  omega

theorem pushAd_some {s : AdvBuf} {bytes : List UInt8} {r : Record} (h : s.Holds bytes)
    (hfit : bytes.length + (r.data.length + 2) ≤ 31) :
    ∃ t, pushAd s r = some t ∧ t.Holds (bytes ++ r.encode) := by
  obtain ⟨hpos, hdst⟩ := h
  have hroom : ¬ (s.pos + (r.data.length + 2) > 31 ∨ r.data.length > 254) := by omega
  refine ⟨_, dif_neg hroom, ?_, ?_⟩
  · simp only [List.length_append, length_encode_record, Record.size, hpos]
  · have hbytes : bytes ++ r.encode
        = bytes ++ [UInt8.ofNat (r.data.length + 1)] ++ [r.ty] ++ r.data := by
      simp [Record.encode]
    have h1 : s.pos + [UInt8.ofNat (r.data.length + 1)].length ≤ 31 := by
      show s.pos + 1 ≤ 31
      omega
    have h2 : s.pos + 1 + [r.ty].length ≤ 31 := by
      show s.pos + 1 + 1 ≤ 31
      omega
    have h3 : s.pos + 2 + r.data.length ≤ 31 := by omega
    rw [hbytes]
    refine copyAt_toList (copyAt_toList (copyAt_toList hdst hpos h1) ?_ h2) ?_ h3
    · simp [hpos]
    · simp [hpos]

theorem pushAd_none {s : AdvBuf} {bytes : List UInt8} {r : Record} (h : s.Holds bytes)
    (hfull : 31 < bytes.length + (r.data.length + 2)) : pushAd s r = none := by
  obtain ⟨hpos, -⟩ := h
  exact dif_pos (.inl (by omega))

/-- `push_ad` as a writer of 31 bytes. -/
def adWriter : Writer AdvBuf where
  cap := 31
  Holds := AdvBuf.Holds
  push := pushAd
  push_eq r h := by
    split
    · rename_i hfit
      exact pushAd_some h hfit
    · rename_i hfull
      exact pushAd_none h (Nat.not_le.mp hfull)

theorem extend_of_fits {dst : ExtAdvData} {data : List UInt8}
    (h : dst.length + data.length ≤ extAdvDataMax) : extend dst data = some (dst ++ data) :=
  if_pos h

theorem pushAdExt_eq {dst bytes : ExtAdvData} (r : Record) (h : dst = bytes) :
    if bytes.length + r.size ≤ extAdvDataMax then
      ∃ t, pushAdExt dst r = some t ∧ t = bytes ++ r.encode
    else pushAdExt dst r = none := by
  subst h
  have hsize : r.size = r.data.length + 2 := rfl
  split
  · have hroom : ¬ (r.data.length > 254 ∨ dst.length + (r.data.length + 2) > extAdvDataMax) := by
      simp only [extAdvDataMax] at *
      omega
    refine ⟨_, ?_, rfl⟩
    rw [pushAdExt, if_neg hroom]
    show ((extend dst [UInt8.ofNat (r.data.length + 1)]).bind fun dst =>
      (extend dst [r.ty]).bind fun dst => extend dst r.data) = _
    rw [extend_of_fits (by simp only [List.length_singleton]; omega), Option.bind_some,
      extend_of_fits (by simp only [List.length_append, List.length_singleton]; omega),
      Option.bind_some,
      extend_of_fits (by simp only [List.length_append, List.length_singleton]; omega),
      List.append_assoc, List.append_assoc]
    rfl
  · exact if_pos (by omega)

/-- `push_ad_ext` as a writer of a vector. -/
def extWriter : Writer ExtAdvData where
  cap := extAdvDataMax
  Holds dst bytes := dst = bytes
  push := pushAdExt
  push_eq := pushAdExt_eq

/-! ## The fields -/

section Fields

variable {σ : Type} {W : Writer σ} {room : Nat} {cfg : RuntimeCfg}

/-- The room for the parts never decides: what does not fit there does not
fit into the buffer either. -/
theorem emits_manufacturer (hroom : W.cap ≤ room + 2) (manufacturerData : List UInt8) :
    Emits W (manufacturerAds cfg manufacturerData)
      (pushManufacturer W.push room cfg manufacturerData) := by
  refine Emits.when fun _ => (emits_push _).guard fun hlong => ?_
  simp only [size, Record.size, u16ToLeBytes, List.length_append, List.length_cons,
    List.length_nil]
  omega

theorem emits_serviceUuid : Emits W (serviceUuidAds cfg) (pushServiceUuid W.push cfg) := by
  unfold serviceUuidAds pushServiceUuid
  cases cfg.advServiceUuid with
  | none => exact emits_nothing
  | some uuid => exact Emits.when fun _ => emits_push _

theorem emits_serviceData (hroom : W.cap ≤ room + 2) :
    Emits W (serviceDataAds cfg) (pushServiceData W.push room cfg) := by
  unfold serviceDataAds pushServiceData
  cases cfg.advServiceDataUuid with
  | none => exact emits_nothing
  | some uuid =>
      cases cfg.advServiceData with
      | none => exact emits_nothing
      | some data =>
          refine Emits.when fun _ => (emits_push _).guard fun hlong => ?_
          simp only [size, Record.size, List.length_append]
          omega

theorem emits_appearance (genericPowerDevice : UInt16) :
    Emits W (appearanceAds genericPowerDevice cfg) (pushAppearance W.push genericPowerDevice cfg) :=
  Emits.when fun _ => emits_push _

theorem emits_txPower : Emits W (txPowerAds cfg) (pushTxPower W.push cfg) :=
  Emits.when fun _ => emits_push _

theorem emits_fields (hroom : W.cap ≤ room + 2) (genericPowerDevice : UInt16) (flags : UInt8)
    (manufacturerData : List UInt8) :
    Emits W (askedAds genericPowerDevice cfg flags manufacturerData)
      (pushFields W.push room genericPowerDevice cfg flags manufacturerData) :=
  (emits_push _).bind <| (emits_manufacturer hroom _).bind <| emits_serviceUuid.bind <|
    (emits_serviceData hroom).bind <| (emits_appearance _).bind emits_txPower

end Fields

/-! ## The name -/

theorem pushName_eq {s : AdvBuf} {bytes : List UInt8} (name : List UInt8) (h : s.Holds bytes) :
    if bytes.length ≤ 28 ∨ (bytes.length ≤ 29 ∧ name = []) then
      ∃ t, pushName name s = some t ∧ t.Holds (bytes ++ (nameAd bytes.length name).encode)
    else pushName name s = none := by
  have hle := h.length_le
  unfold pushName
  by_cases hfit : bytes.length + 2 + name.length ≤ 31
  · have hroom : bytes.length ≤ 28 ∨ (bytes.length ≤ 29 ∧ name = []) := by
      cases name with
      | nil => exact .inr ⟨by omega, rfl⟩
      | cons c cs =>
          simp only [List.length_cons] at hfit
          exact .inl (by omega)
    obtain ⟨t, ht, hholds⟩ := pushAd_some (r := { ty := 0x09, data := name }) h
      (show bytes.length + (name.length + 2) ≤ 31 by omega)
    rw [if_pos hroom, nameAd, if_pos hfit]
    exact ⟨t, by rw [ht], hholds⟩
  · have hwhole := pushAd_none (r := { ty := 0x09, data := name }) h
      (show 31 < bytes.length + (name.length + 2) by omega)
    simp only [hwhole, h.1, nameAd, if_neg hfit]
    by_cases hroom : bytes.length ≤ 28
    · have hmin : min name.length (31 - bytes.length - 2) = 31 - bytes.length - 2 := by omega
      rw [if_pos (.inl hroom), if_neg (by omega), hmin]
      apply pushAd_some h
      rw [List.length_take]
      omega
    · have hnot : ¬ (bytes.length ≤ 28 ∨ (bytes.length ≤ 29 ∧ name = [])) := by
        rintro (hle | ⟨hle, rfl⟩)
        · exact hroom hle
        · simp only [List.length_nil] at hfit
          omega
      rw [if_neg hnot, if_pos (by omega)]

/-! ## The payloads -/

section Payloads

variable (genericPowerDevice : UInt16) (cfg : RuntimeCfg) (flags : UInt8)
  (manufacturerData name : List UInt8)

theorem holds_zeroed : AdvBuf.Holds { dst := Vector.replicate 31 0, pos := 0 } [] :=
  ⟨rfl, Vector.toList_replicate⟩

theorem buildAdvPayload_eq :
    let asked := askedAds genericPowerDevice cfg flags manufacturerData
    let built := buildAdvPayload genericPowerDevice cfg flags manufacturerData name
      (Vector.replicate 31 0)
    if size asked ≤ 28 ∨ (size asked ≤ 29 ∧ name = []) then
      ∃ t, built = some t ∧
        t.Holds (encode (payloadAds genericPowerDevice cfg flags manufacturerData name))
    else built = none := by
  intro asked built
  have hfields : Emits adWriter asked
      (pushFields pushAd 29 genericPowerDevice cfg flags manufacturerData) :=
    emits_fields (Nat.le_refl 31) _ _ _
  by_cases hfit : size asked ≤ 31
  · obtain ⟨s, hs, hholds⟩ := hfields.some holds_zeroed
      (show 0 + size asked ≤ 31 by omega)
    have hholds : s.Holds (encode asked) := hholds
    have hname := pushName_eq name hholds
    have hbuilt : built = pushName name s := by
      show (pushFields pushAd 29 _ _ _ _ _).bind _ = _
      rw [show pushFields pushAd 29 genericPowerDevice cfg flags manufacturerData
        { dst := Vector.replicate 31 0, pos := 0 } = some s from hs]
      rfl
    rw [length_encode] at hname
    rw [hbuilt, payloadAds, encode_append]
    simpa [encode] using hname
  · have hnone := hfields.none holds_zeroed (Nat.zero_le 31)
      (show ¬ 0 + size asked ≤ 31 by omega)
    rw [if_neg (by omega)]
    show (pushFields pushAd 29 _ _ _ _ _).bind _ = _
    rw [show pushFields pushAd 29 genericPowerDevice cfg flags manufacturerData
      { dst := Vector.replicate 31 0, pos := 0 } = none from hnone]
    rfl

theorem buildAdvPayloadExt_eq :
    let ads := payloadAdsExt genericPowerDevice cfg flags manufacturerData name
    let built := buildAdvPayloadExt genericPowerDevice cfg flags manufacturerData name []
    if size ads ≤ 255 then ∃ bytes, built = some bytes ∧ bytes = encode ads
    else built = none := by
  intro ads built
  have hfields : Emits extWriter (askedAds genericPowerDevice cfg flags manufacturerData)
      (pushFields pushAdExt extAdvDataMax genericPowerDevice cfg flags manufacturerData) :=
    emits_fields (Nat.le_add_right 255 2) _ _ _
  have hall : Emits extWriter ads fun dst =>
      buildAdvPayloadExt genericPowerDevice cfg flags manufacturerData name dst :=
    hfields.bind (Emits.when fun _ => emits_push _)
  split
  · rename_i hfit
    obtain ⟨bytes, hbytes, hholds⟩ := hall.some (show extWriter.Holds [] [] from rfl)
      (show 0 + size ads ≤ 255 by omega)
    exact ⟨bytes, hbytes, hholds⟩
  · rename_i hfull
    exact hall.none (show extWriter.Holds [] [] from rfl) (Nat.zero_le 255)
      (show ¬ 0 + size ads ≤ 255 by omega)

theorem isSome_iff_of_ite {α : Type} {p : Prop} [Decidable p] {x : Option α} {q : α → Prop}
    (h : if p then ∃ t, x = some t ∧ q t else x = none) :
    (x.isSome ↔ p) ∧ ∀ t, x = some t → q t := by
  by_cases hp : p
  · rw [if_pos hp] at h
    obtain ⟨t, rfl, ht⟩ := h
    refine ⟨iff_of_true rfl hp, fun t' ht' => ?_⟩
    cases ht'
    exact ht
  · rw [if_neg hp] at h
    subst h
    refine ⟨iff_of_false (fun h => nomatch h) hp, fun t ht => ?_⟩
    cases ht

/-- **The payload builders are exact**: they succeed when the structures
fit, and then what they leave decodes to these structures, each with the
length it has. -/
theorem adv_payloads_exact :
    ((buildAdvPayload genericPowerDevice cfg flags manufacturerData name
        (Vector.replicate 31 0)).isSome
      ↔ size (askedAds genericPowerDevice cfg flags manufacturerData) ≤ 28
        ∨ (size (askedAds genericPowerDevice cfg flags manufacturerData) ≤ 29 ∧ name = []))
    ∧ (∀ t, buildAdvPayload genericPowerDevice cfg flags manufacturerData name
          (Vector.replicate 31 0) = some t →
        t.pos ≤ 31
        ∧ decode (t.dst.toList.take t.pos)
          = some (payloadAds genericPowerDevice cfg flags manufacturerData name)
        ∧ t.dst.toList.drop t.pos = List.replicate (31 - t.pos) 0
        ∧ ∀ r ∈ payloadAds genericPowerDevice cfg flags manufacturerData name,
            r.data.length + 1 < 256)
    ∧ ((buildAdvPayloadExt genericPowerDevice cfg flags manufacturerData name []).isSome
      ↔ size (askedAds genericPowerDevice cfg flags manufacturerData)
        + (if name ≠ [] then name.length + 2 else 0) ≤ 255)
    ∧ ∀ bytes, buildAdvPayloadExt genericPowerDevice cfg flags manufacturerData name []
          = some bytes →
        decode bytes = some (payloadAdsExt genericPowerDevice cfg flags manufacturerData name)
        ∧ ∀ r ∈ payloadAdsExt genericPowerDevice cfg flags manufacturerData name,
            r.data.length + 1 < 256 := by
  obtain ⟨hiff, hbuilt⟩ := isSome_iff_of_ite
    (buildAdvPayload_eq genericPowerDevice cfg flags manufacturerData name)
  obtain ⟨hiffExt, hbuiltExt⟩ := isSome_iff_of_ite
    (buildAdvPayloadExt_eq genericPowerDevice cfg flags manufacturerData name)
  -- at most 255 bytes in all, so each length goes in its byte
  have hfits : ∀ {rs : List Record}, size rs ≤ 255 → ∀ r ∈ rs, r.Fits := by
    intro rs hsize r hr
    have hle := size_le_of_mem hr
    simp only [Record.size, Record.Fits] at hle ⊢
    omega
  have hsizeExt : size (payloadAdsExt genericPowerDevice cfg flags manufacturerData name)
      = size (askedAds genericPowerDevice cfg flags manufacturerData)
        + if name ≠ [] then name.length + 2 else 0 := by
    rw [payloadAdsExt, size_append]
    split <;> rfl
  refine ⟨hiff, fun t ht => ?_, hsizeExt ▸ hiffExt, fun bytes hb => ?_⟩
  · have hholds := hbuilt t ht
    have hlength := hholds.length_le
    have hpos := hholds.1
    have hnamed := hfits (Nat.le_trans (length_encode _ ▸ hlength) (by decide))
    refine ⟨hpos ▸ hlength, ?_, ?_, fun r hr => (hnamed r hr).lengthByte⟩
    · rw [hholds.2, hpos, List.take_left, decode_encode hnamed]
    · rw [hholds.2, hpos, List.drop_left]
  · have hnamed := hfits (hiffExt.mp (Option.isSome_iff_exists.mpr ⟨bytes, hb⟩))
    exact ⟨by rw [hbuiltExt bytes hb, decode_encode hnamed],
      fun r hr => (hnamed r hr).lengthByte⟩

end Payloads

end RuntimeBle.Adv
