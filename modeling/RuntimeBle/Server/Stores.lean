import RuntimeBle.Server.Numbering

/-!
# Server — Stores

The value buffers `build_gatt` takes from the heap: one for each call of
`alloc_store`, numbered in the order of the calls. `stores` collects them
for the teardown; the attribute table borrows them. That these are the same
is what `Borrows` keeps along the nested loops.
-/

namespace RuntimeBle.Server

open RuntimeBle.Lib

/-! ## The calls of `alloc_store` -/

/-- The value buffers of a descriptor: one if it can be written. -/
def descStores (d : RuntimeBleDescDef) : Nat := if descriptorIsWritable d.permissions then 1 else 0

/-- Those of a characteristic: its value's, and its descriptors'. -/
def charStores (c : RuntimeBleCharDef) : Nat := 1 + ((c.descriptors.getD []).map descStores).sum

/-- Those of a service. -/
def serviceStores (s : RuntimeBleServiceDef) : Nat := ((s.chars.getD []).map charStores).sum

/-- `alloc_stores`: how many buffers the services need. -/
def allocStores (services : Option (List RuntimeBleServiceDef)) : Nat :=
  match services with
  | none | some [] => charStores nusRxDef + charStores nusTxDef
  | some services => (services.map serviceStores).sum

/-! ## What the table borrows -/

/-- The number of the buffer that an attribute borrows. -/
def Attribute.store? : Attribute → Option Nat
  | .value _ _ _ store | .descriptor _ _ store _ => some store
  | _ => none

/-- The buffers that are borrowed, in the order of the table. -/
def Gatt.borrowed (g : Gatt) : List Nat := g.table.filterMap Attribute.store?

/-- From `g` to `g'` the table has got `n` attributes with a buffer each, and
`stores` these buffers. -/
structure Borrows (n : Nat) (g g' : Gatt) : Prop where
  stores : g'.stores = g.stores + n
  borrowed : g'.borrowed = g.borrowed ++ List.range' g.stores n
  appearance : g'.appearanceStore = g.appearanceStore

variable {T : Trouble} {b : Build} {g g' g'' : Gatt} {m n : Nat}

theorem Borrows.refl (g : Gatt) : Borrows 0 g g where
  stores := rfl
  borrowed := by simp
  appearance := rfl

theorem Borrows.trans (h : Borrows m g g') (h' : Borrows n g' g'') : Borrows (m + n) g g'' where
  stores := by
    rw [h'.stores, h.stores]
    omega
  borrowed := by
    rw [h'.borrowed, h.borrowed, h.stores, List.append_assoc, List.range'_append_1]
  appearance := h'.appearance.trans h.appearance

theorem borrows_foldlM {α : Type} {f : Gatt → α → Except Fault Gatt} (n : α → Nat) {as : List α}
    (hf : ∀ a ∈ as, ∀ g g', f g a = .ok g' → Borrows (n a) g g') (h : as.foldlM f g = .ok g') :
    Borrows (as.map n).sum g g' :=
  foldlM_eq_ok n Borrows.refl Borrows.trans hf h

/-- An attribute without a buffer. -/
theorem push_plain {a : Attribute} (ha : a.store? = none) (h : g.push b a = .ok g') :
    Borrows 0 g g' := by
  unfold Gatt.push at h
  split at h
  · cases h
    refine ⟨rfl, ?_, rfl⟩
    simp [Gatt.borrowed, ha]
  · cases h

/-- An attribute with the buffer `alloc_store` has just returned. -/
theorem push_store {a : Attribute} (ha : a.store? = some g.stores)
    (h : ({ g with stores := g.stores + 1 }).push b a = .ok g') : Borrows 1 g g' := by
  unfold Gatt.push at h
  split at h
  · cases h
    refine ⟨rfl, ?_, rfl⟩
    simp [Gatt.borrowed, ha]
  · cases h

theorem borrows_addDescriptor {chr : Nat} {d : RuntimeBleDescDef × Nat}
    (h : addDescriptor T b chr g d = .ok g') : Borrows (descStores d.1) g g' := by
  obtain ⟨g₁, hpush, hset⟩ := bind_eq_ok h
  have h₁ : Borrows (descStores d.1) g g₁ := by
    unfold pushDescriptor at hpush
    dsimp only at hpush
    unfold descStores
    split at hpush
    · rename_i hw
      rw [if_pos hw]
      exact push_store rfl hpush
    · rename_i hw
      rw [if_neg hw]
      exact push_plain rfl hpush
  cases hset
  exact ⟨h₁.stores, h₁.borrowed, h₁.appearance⟩

/-- The loop over the descriptors of a characteristic. -/
theorem borrows_descriptors {chr : Nat} {ds : List RuntimeBleDescDef}
    (h : ds.zipIdx.foldlM (addDescriptor T b chr) g = .ok g') :
    Borrows (ds.map descStores).sum g g' := by
  have hloop := borrows_foldlM (fun d : RuntimeBleDescDef × Nat => descStores d.1)
    (fun _ _ _ _ => borrows_addDescriptor) h
  have hmap : ds.zipIdx.map (fun d => descStores d.1) = ds.map descStores := by
    show ds.zipIdx.map (descStores ∘ Prod.fst) = ds.map descStores
    rw [← List.map_map, List.zipIdx_map_fst]
  rw [hmap] at hloop
  exact hloop

theorem borrows_addCharacteristic {c : RuntimeBleCharDef}
    (h : addCharacteristic T b g c = .ok g') : Borrows (charStores c) g g' := by
  obtain ⟨g₁, hdecl, h⟩ := bind_eq_ok h
  obtain ⟨g₂, hvalue, h⟩ := bind_eq_ok h
  obtain ⟨g₃, hcccd, h⟩ := bind_eq_ok h
  obtain ⟨g₄, hdescs, h⟩ := bind_eq_ok h
  cases h
  have h₁ : Borrows 0 g g₁ := push_plain rfl hdecl
  have h₂ : Borrows 1 g₁ g₂ := push_store rfl hvalue
  have h₃ : Borrows 0 g₂ g₃ := by
    unfold pushCccd at hcccd
    split at hcccd
    · exact push_plain rfl hcccd
    · cases hcccd
      exact .refl g₂
  have h₄ := ((h₁.trans h₂).trans h₃).trans (borrows_descriptors hdescs)
  rw [Nat.zero_add, Nat.add_zero] at h₄
  exact ⟨h₄.stores, h₄.borrowed, h₄.appearance⟩

theorem borrows_addUserService {s : RuntimeBleServiceDef}
    (h : addUserService T b g s = .ok g') : Borrows (serviceStores s) g g' := by
  obtain ⟨g₁, hservice, hchars⟩ := bind_eq_ok h
  have h₁ : Borrows 0 g g₁ := push_plain rfl hservice
  rw [← Nat.zero_add (serviceStores s)]
  exact h₁.trans (borrows_foldlM charStores (fun _ _ _ _ => borrows_addCharacteristic) hchars)

theorem borrows_addNus (h : addNus T b g = .ok g') :
    Borrows (charStores nusRxDef + charStores nusTxDef) g g' := by
  obtain ⟨g₁, hservice, h⟩ := bind_eq_ok h
  obtain ⟨g₂, hrx, htx⟩ := bind_eq_ok h
  have h₁ : Borrows 0 g g₁ := push_plain rfl hservice
  have h₂ := borrows_addCharacteristic hrx
  have h₃ := borrows_addCharacteristic htx
  have h₂' : Borrows (charStores nusRxDef) g₁ g₂ := ⟨h₂.stores, h₂.borrowed, h₂.appearance⟩
  have h₃' : Borrows (charStores nusTxDef) g₂ g' := ⟨h₃.stores, h₃.borrowed, h₃.appearance⟩
  rw [← Nat.zero_add (charStores nusRxDef)]
  exact (h₁.trans h₂').trans h₃'

theorem borrows_addServices {services : Option (List RuntimeBleServiceDef)}
    (h : addServices T b services g = .ok g') : Borrows (allocStores services) g g' := by
  cases services with
  | none => exact borrows_addNus h
  | some services =>
      cases services with
      | nil => exact borrows_addNus h
      | cons s rest => exact borrows_foldlM serviceStores (fun _ _ _ _ => borrows_addUserService) h

/-- **What the server borrows is what the teardown releases**: the buffers
of all calls of `alloc_store`, and the appearance if there is a box for it. -/
theorem stores_of_buildGatt {cfg : RuntimeCfg} {name : List UInt8}
    (h : buildGatt T b cfg name = .ok g) :
    g.stores = allocStores cfg.services ∧ g.borrowed = List.range g.stores ∧
      g.appearanceStore = (cfg.appearance != 0) := by
  obtain ⟨g₁, hgap, hservices⟩ := bind_eq_ok h
  have hstart : Borrows 0 { table := [], appearanceStore := cfg.appearance != 0 } g₁ := by
    simp only [gapBuild] at hgap
    split at hgap
    · cases hgap
    · have hgaps := borrows_foldlM (fun _ => 0) (fun a ha g g' hpush => ?_) hgap
      · simpa using hgaps
      · exact push_plain (List.eq_of_mem_replicate ha ▸ rfl) hpush
  have hall := hstart.trans (borrows_addServices hservices)
  rw [Nat.zero_add] at hall
  have hstores : g.stores = allocStores cfg.services := hall.stores.trans (Nat.zero_add _)
  refine ⟨hstores, ?_, hall.appearance⟩
  rw [hall.borrowed, hstores, List.range_eq_range']
  rfl

end RuntimeBle.Server
