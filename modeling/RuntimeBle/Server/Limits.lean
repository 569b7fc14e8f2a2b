import RuntimeBle.Server.Events

/-!
# Server — Limits

`max_len` of a characteristic, which `build_gatt` does not read: a value
takes `VALUE_LEN` bytes in the table and in every callback.

`store` is what the attribute server makes of a write, once the event is
accepted. It may do anything to the values but change their size, which is
that of their type, `[u8; VALUE_LEN]`.
-/

namespace RuntimeBle.Server

open RuntimeBle.Lib

/-! ## A server at work -/

/-- The values by the number of their buffer, and the callbacks made. -/
structure ServerState (b : Build) where
  values : Nat → Bytes b.valueLen := fun _ => Vector.replicate b.valueLen 0
  calls : List ServerCallback := []

section Step

variable {b : Build} (callbacks : RuntimeBleCallbacks) (g : Gatt)
  (store : (Nat → Bytes b.valueLen) → UInt16 → Nat → List UInt8 → Nat → Bytes b.valueLen)
  (answer : ServerCallback → Bytes b.valueLen × Nat)

/-- One event: a write may store, and callbacks are made. -/
def serverStep (s : ServerState b) (e : GattEvent) : ServerState b where
  values :=
    match e with
    | .write h off data => store s.values h off data
    | _ => s.values
  calls := s.calls ++ gattEvent b callbacks g answer e

/-- The events one after the other. -/
def serverRun (events : List GattEvent) : ServerState b :=
  events.foldl (serverStep callbacks g store answer) {}

end Step

/-! ## The declared size -/

/-- The number of bytes that `on_write` or `on_write_ext` is passed for the
characteristic. -/
def ServerCallback.writtenLen (chr : UInt16) : ServerCallback → Option Nat
  | .onWrite c data => if c = chr then some data.length else none
  | .onWriteExt c _ data => if c = chr then some data.length else none
  | _ => none

/-- The `max_len` that `on_read_value` is passed for the characteristic. -/
def ServerCallback.readLen (chr : UInt16) : ServerCallback → Option Nat
  | .onReadValue c maxLen => if c = chr then some maxLen else none
  | _ => none

/-- The characteristic declares a size that a value can have. -/
def Sized (b : Build) (c : RuntimeBleCharDef) : Prop := 0 < c.maxLen ∧ c.maxLen.toNat ≤ b.valueLen

instance (b : Build) (c : RuntimeBleCharDef) : Decidable (Sized b c) :=
  inferInstanceAs (Decidable (_ ∧ _))

/-- No callback and no value is larger than its characteristic declares. -/
structure WithinLimits {b : Build} (g : Gatt) (placed : List Placed) (s : ServerState b) :
    Prop where
  written : ∀ i e, placed[i]? = some e → Sized b e.1 → ∀ call ∈ s.calls, ∀ n,
    call.writtenLen (UInt16.ofNat i) = some n → n ≤ e.1.maxLen.toNat
  read : ∀ i e, placed[i]? = some e → Sized b e.1 → ∀ call ∈ s.calls, ∀ n,
    call.readLen (UInt16.ofNat i) = some n → n ≤ e.1.maxLen.toNat
  stored : ∀ e ∈ placed, Sized b e.1 → ∀ uuid read write number,
    g.table[e.2 + 1]? = some (.value uuid read write number) →
    (s.values number).toList.length ≤ e.1.maxLen.toNat

section Limits

variable {T : Trouble} {b : Build} {callbacks : RuntimeBleCallbacks} {g : Gatt}
  {store : (Nat → Bytes b.valueLen) → UInt16 → Nat → List UInt8 → Nat → Bytes b.valueLen}
  {answer : ServerCallback → Bytes b.valueLen × Nat}

/-- The callback is passed at most `VALUE_LEN` bytes. -/
def ServerCallback.InValueLen (b : Build) (call : ServerCallback) : Prop :=
  ∀ chr n, call.writtenLen chr = some n ∨ call.readLen chr = some n → n ≤ b.valueLen

theorem inValueLen_write {c : UInt16} {data : List UInt8} (hdata : data.length ≤ b.valueLen) :
    (ServerCallback.onWrite c data).InValueLen b
    ∧ ∀ off, (ServerCallback.onWriteExt c off data).InValueLen b := by
  have hif : ∀ chr n, (if c = chr then some data.length else none) = some n ∨ none = some n →
      n ≤ b.valueLen := by
    rintro chr n (hn | hn)
    · split at hn
      · cases hn
        exact hdata
      · cases hn
    · cases hn
  exact ⟨hif, fun _ => hif⟩

theorem inValueLen_gattWrite {h : UInt16} {off : Nat} {data : List UInt8} :
    ∀ call ∈ gattWrite b callbacks g h off data, call.InValueLen b := by
  have hbuf : (data.take (min data.length b.valueLen)).length ≤ b.valueLen := by
    rw [List.length_take]
    omega
  have hnone : ∀ call : ServerCallback, (∀ chr, call.writtenLen chr = none) →
      (∀ chr, call.readLen chr = none) → call.InValueLen b := by
    rintro call hw hr chr n (hn | hn)
    · rw [hw] at hn
      cases hn
    · rw [hr] at hn
      cases hn
  intro call hcall
  unfold gattWrite at hcall
  dsimp only at hcall
  split at hcall
  · split at hcall
    · split at hcall
      · cases List.mem_singleton.mp hcall
        exact hnone _ (fun _ => rfl) fun _ => rfl
      · cases hcall
    · split at hcall
      · cases List.mem_singleton.mp hcall
        exact (inValueLen_write hbuf).2 _
      · split at hcall
        · cases List.mem_singleton.mp hcall
          exact (inValueLen_write hbuf).1
        · cases hcall
  · split at hcall
    · split at hcall
      · cases List.mem_singleton.mp hcall
        exact hnone _ (fun _ => rfl) fun _ => rfl
      · cases hcall
    · split at hcall
      · split at hcall
        · cases List.mem_singleton.mp hcall
          exact hnone _ (fun _ => rfl) fun _ => rfl
        · split at hcall
          · cases List.mem_singleton.mp hcall
            exact hnone _ (fun _ => rfl) fun _ => rfl
          · cases hcall
      · cases hcall

theorem inValueLen_gattRead {h : UInt16} :
    ∀ call ∈ (gattRead b callbacks g answer h).1, call.InValueLen b := by
  intro call hcall
  unfold gattRead at hcall
  dsimp only at hcall
  split at hcall
  · split at hcall
    · cases List.mem_singleton.mp hcall
      rintro chr n (hn | hn)
      · cases hn
      · simp only [ServerCallback.readLen, Option.ite_none_right_eq_some,
          Option.some.injEq] at hn
        omega
    · cases hcall
  · split at hcall
    · split at hcall
      · cases List.mem_singleton.mp hcall
        rintro chr n (hn | hn)
        · cases hn
        · cases hn
      · cases hcall
    · cases hcall

/-- Every callback that is made is passed at most `VALUE_LEN` bytes. -/
theorem inValueLen_serverRun (callbacks : RuntimeBleCallbacks) (g : Gatt)
    (store : (Nat → Bytes b.valueLen) → UInt16 → Nat → List UInt8 → Nat → Bytes b.valueLen)
    (answer : ServerCallback → Bytes b.valueLen × Nat) (events : List GattEvent) :
    ∀ call ∈ (serverRun callbacks g store answer events).calls, call.InValueLen b := by
  have hrun : ∀ (events : List GattEvent) (s : ServerState b),
      (∀ call ∈ s.calls, call.InValueLen b) →
      ∀ call ∈ (events.foldl (serverStep callbacks g store answer) s).calls,
        call.InValueLen b := by
    intro events
    induction events with
    | nil => exact fun _ hs => hs
    | cons e events ih =>
        intro s hs
        refine ih _ fun call hcall => ?_
        rcases List.mem_append.mp hcall with hcall | hcall
        · exact hs call hcall
        · cases e with
          | write h off data => exact inValueLen_gattWrite call hcall
          | read h => exact inValueLen_gattRead call hcall
          | other => cases hcall
  exact hrun events {} (fun _ hcall => nomatch hcall)

/-- **Declared sizes hold** when each of them that a value can have is the
size all values have. -/
theorem max_len_enforced_iff (T : Trouble) (b : Build) (cfg : RuntimeCfg) (name : List UInt8)
    (g : Gatt) (hbuild : buildGatt T b cfg name = .ok g)
    (store : (Nat → Bytes b.valueLen) → UInt16 → Nat → List UInt8 → Nat → Bytes b.valueLen)
    (answer : ServerCallback → Bytes b.valueLen × Nat) :
    ∃ placed, Listed T g placed ∧ placed.map (·.1) = declared (effectiveServices cfg.services)
      ∧ ∀ events, WithinLimits g placed (serverRun cfg.callbacks g store answer events)
          ↔ ∀ c ∈ declared (effectiveServices cfg.services), Sized b c →
              c.maxLen.toNat = b.valueLen := by
  obtain ⟨placed, hlisted, hmap⟩ := listed_of_buildGatt hbuild
  refine ⟨placed, hlisted, hmap, fun events => ?_⟩
  have hdeclared : (∀ c ∈ declared (effectiveServices cfg.services), Sized b c →
        c.maxLen.toNat = b.valueLen)
      ↔ ∀ e ∈ placed, Sized b e.1 → e.1.maxLen.toNat = b.valueLen := by
    rw [← hmap]
    exact List.forall_mem_map
  rw [hdeclared]
  constructor
  · intro hlimits e he hsized
    obtain ⟨read, write, number, hvalue⟩ := (hlisted.inTable e he).value
    have hstored := hlimits.stored e he hsized _ _ _ _ hvalue
    rw [Vector.length_toList] at hstored
    exact Nat.le_antisymm hsized.2 hstored
  · intro hfull
    have hcalls := inValueLen_serverRun cfg.callbacks g store answer events
    constructor
    · intro i e he hsized call hcall n hn
      rw [hfull e (List.mem_of_getElem? he) hsized]
      exact hcalls call hcall _ n (.inl hn)
    · intro i e he hsized call hcall n hn
      rw [hfull e (List.mem_of_getElem? he) hsized]
      exact hcalls call hcall _ n (.inr hn)
    · intro e he hsized uuid read write number _
      rw [Vector.length_toList, hfull e he hsized]

/-- A characteristic of at most 20 bytes, to be read and written. -/
def twentyByteDef : RuntimeBleCharDef :=
  { uuid := some [0x01, 0x2a], props := cPropRead ||| cPropWrite, maxLen := 20 }

/-- It alone, with callbacks for writes and reads. -/
def twentyByteCfg : RuntimeCfg :=
  { services := some [{ uuid := some [0x0a, 0x18], chars := some [twentyByteDef] }]
    callbacks := { onWrite := true, onReadValue := true } }

/-- A peer writes 100 bytes to it, and all of them are passed on; a read is
passed a buffer of 128. -/
theorem max_len_overrun :
    ∃ g, buildGatt countingHost {} twentyByteCfg [] = .ok g
      ∧ gattWrite {} twentyByteCfg.callbacks g 8 0 (List.replicate 100 0)
        = [.onWrite 0 (List.replicate 100 0)]
      ∧ (∀ answer, (gattRead {} twentyByteCfg.callbacks g answer 8).1 = [.onReadValue 0 128])
      ∧ ∀ placed, Listed countingHost g placed →
          placed.map (·.1) = declared (effectiveServices twentyByteCfg.services) →
          ¬ WithinLimits g placed (serverRun (b := {}) twentyByteCfg.callbacks g
            (fun values _ _ _ => values) (fun _ => (Vector.replicate 128 0, 0))
            [.write 8 0 (List.replicate 100 0)]) := by
  refine ⟨_, rfl, by decide, fun _ => rfl, fun placed _ hmap hlimits => ?_⟩
  obtain ⟨e, rest, rfl⟩ : ∃ e rest, placed = e :: rest := by
    cases placed with
    | nil => cases hmap
    | cons e rest => exact ⟨e, rest, rfl⟩
  have hdef : e.1 = twentyByteDef := (List.cons.inj hmap).1
  have hlen := hlimits.written 0 e rfl (by rw [hdef]; decide)
    (.onWrite 0 (List.replicate 100 0)) (by decide) 100 rfl
  rw [hdef] at hlen
  revert hlen
  decide

/-- A characteristic of as many bytes as a value has. -/
def fullDef : RuntimeBleCharDef := { twentyByteDef with maxLen := 128 }

/-- It alone, with the same callbacks. -/
def fullCfg : RuntimeCfg :=
  { twentyByteCfg with services := some [{ uuid := some [0x0a, 0x18], chars := some [fullDef] }] }

/-- What is declared is what values have, and 100 bytes that a peer writes
are within it. -/
theorem max_len_enforced_full :
    Sized {} fullDef ∧ ∃ g placed, buildGatt countingHost {} fullCfg [] = .ok g
      ∧ Listed countingHost g placed ∧ placed.map (·.1) = [fullDef]
      ∧ gattWrite {} fullCfg.callbacks g 8 0 (List.replicate 100 0)
        = [.onWrite 0 (List.replicate 100 0)]
      ∧ ∀ events, WithinLimits g placed (serverRun (b := {}) fullCfg.callbacks g
          (fun values _ _ _ => values) (fun _ => (Vector.replicate 128 0, 0)) events) := by
  obtain ⟨placed, hlisted, hmap, hiff⟩ := max_len_enforced_iff countingHost {} fullCfg [] _ rfl
    (fun values _ _ _ => values) fun _ => (Vector.replicate 128 0, 0)
  refine ⟨by decide, _, placed, rfl, hlisted, hmap, by decide, fun events => ?_⟩
  apply (hiff events).mpr
  intro c hc hsized
  obtain rfl := List.mem_singleton.mp hc
  rfl

end Limits

end RuntimeBle.Server
