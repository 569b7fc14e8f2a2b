import RuntimeBle.Pair.Exchange

/-!
# Pair — Registers

A client and a server, both of them this runtime, and at the server an
application that keeps what is written to it and serves it again.

For the application of the client, what it has in front of it is a file of
registers, one for each value and descriptor: `registersStep`. The hosts in
between refuse requests as they like, and answer discovery by themselves.
-/

namespace RuntimeBle.Pair

open RuntimeBle.Lib RuntimeBle.Server RuntimeBle.Client
open RuntimeBle.Request (ClientOp)

/-! ## The file of registers -/

/-- What the application of the server keeps. -/
abbrev Registers := Target → List UInt8

/-- CCCDs are the host's. -/
def isRegister : Target → Bool
  | .value _ | .descriptor .. => true
  | .cccd _ => false

/-- The handle of the attribute. -/
def handleIn (T : Trouble) (placed : List Placed) (t : Target) : Option UInt16 :=
  (placed[t.index]?.bind t.placeIn).map T.handleOf

/-- What is between the two: the requests that come through, and what is
answered elsewhere. -/
structure Between where
  admits : ClientQuery → Bool
  elsewhere : (q : ClientQuery) → q.Answer
  /-- The bytes that a response has room for. -/
  room : Nat

section Abstract

variable (T : Trouble) (b : Build) (placed : List Placed) (between : Between)

/-- A write of `bytes` to the register with the handle. -/
def stored (h : UInt16) (bytes : List UInt8) (σ : Registers) : Registers := fun t =>
  if isRegister t = true ∧ handleIn T placed t = some h then bytes.take b.valueLen else σ t

/-- What an operation does to the registers. -/
def registersStep (σ : Registers) : ClientOp → Registers
  | .write h bytes =>
      if between.admits (.writeHandle h bytes) then stored T b placed h bytes σ else σ
  | .writeNoRsp h bytes =>
      if between.admits (.writeHandleWithoutResponse h bytes) then stored T b placed h bytes σ
      else σ
  | _ => σ

end Abstract

/-! ## The application -/

/-- A callback that is given something to keep. -/
def keep (σ : Registers) : ServerCallback → Registers
  | .onData data => Function.update σ (.value 0) data
  | .onWrite chr data | .onWriteExt chr _ data => Function.update σ (.value chr.toNat) data
  | .onDescriptorWrite _ chr desc data | .onDescriptorWriteExt _ chr desc _ data =>
      Function.update σ (.descriptor chr.toNat desc.toNat) data
  | _ => σ

/-- As much of `data` as the buffer has room for, and its length. -/
def fill (n : Nat) (data : List UInt8) : Bytes n × Nat :=
  (⟨((data ++ List.replicate n 0).take n).toArray, by simp⟩, data.length)

/-- A callback that is asked for something that is kept. -/
def registerRead (b : Build) (σ : Registers) : ServerCallback → Bytes b.valueLen × Nat
  | .onReadValue chr _ => fill b.valueLen (σ (.value chr.toNat))
  | .onDescriptorReadValue _ chr desc _ =>
      fill b.valueLen (σ (.descriptor chr.toNat desc.toNat))
  | _ => fill b.valueLen []

/-- The callbacks that such an application has to set. -/
structure Serving (callbacks : RuntimeBleCallbacks) : Prop where
  data : callbacks.onData = true
  write : callbacks.onWrite = true ∨ callbacks.onWriteExt = true
  descriptorWrite : callbacks.onDescriptorWrite = true ∨ callbacks.onDescriptorWriteExt = true
  readValue : callbacks.onReadValue = true
  descriptorReadValue : callbacks.onDescriptorReadValue = true

section Peer

variable (b : Build) (callbacks : RuntimeBleCallbacks) (g : Gatt) (between : Between)

/-- The server with its application, as the client's host finds it. -/
def peer (σ : Registers) : (q : ClientQuery) → Registers × q.Answer
  | .writeHandle h bytes =>
      if between.admits (.writeHandle h bytes) then
        ((gattWrite b callbacks g h 0 bytes).foldl keep σ, true)
      else (σ, between.elsewhere (.writeHandle h bytes))
  | .writeHandleWithoutResponse h bytes =>
      if between.admits (.writeHandleWithoutResponse h bytes) then
        ((gattWrite b callbacks g h 0 bytes).foldl keep σ, true)
      else (σ, between.elsewhere (.writeHandleWithoutResponse h bytes))
  | .readHandle h =>
      if between.admits (.readHandle h) then
        match (gattRead b callbacks g (registerRead b σ) h).2 with
        | .unprocessed data => (σ, some (data.take between.room))
        | .fromTable => (σ, between.elsewhere (.readHandle h))
      else (σ, none)
  | q => (σ, between.elsewhere q)

end Peer

/-! ## Writing and reading an attribute -/

section Attribute

variable {T : Trouble} {b : Build} {cfg : RuntimeCfg} {name : List UInt8} {g : Gatt}
  {placed : List Placed} {h : UInt16} {σ : Registers}

theorem names_iff {t : Target} : Names T placed h t ↔ handleIn T placed t = some h := by
  unfold Names handleIn
  rw [Option.map_eq_some_iff]
  constructor
  · rintro ⟨e, p, he, hp, rfl⟩
    refine ⟨p, ?_, rfl⟩
    rw [he]
    exact hp
  · rintro ⟨p, hbind, rfl⟩
    obtain ⟨e, he, hp⟩ := Option.bind_eq_some_iff.mp hbind
    exact ⟨e, p, he, hp, rfl⟩

theorem recalled (n : Nat) (data : List UInt8) :
    (fill n data).1.toList.take (min (fill n data).2 n) = data.take n := by
  show ((data ++ List.replicate n 0).take n).take (min data.length n) = _
  rw [List.take_take, Nat.min_assoc, Nat.min_self, List.take_append_of_le_length
    (Nat.min_le_left ..), Nat.min_comm, ← List.take_take, List.take_length]

variable (hlisted : Listed T g placed) (hdistinct : DistinctHandles T g.table.length)

include hlisted hdistinct in
theorem stored_of_names {t : Target} (ht : Names T placed h t) (hregister : isRegister t = true)
    (bytes : List UInt8) :
    stored T b placed h bytes σ = Function.update σ t (bytes.take b.valueLen) := by
  ext t' : 1
  unfold stored
  by_cases htarget : t' = t
  · rw [htarget, Function.update_self, if_pos ⟨hregister, names_iff.mp ht⟩]
  · rw [Function.update_of_ne htarget, if_neg]
    rintro ⟨-, hhandle⟩
    exact htarget (names_unique hlisted hdistinct (names_iff.mpr hhandle) ht)

/-- A handle that is no register's. -/
theorem stored_of_none (hnone : ∀ t, Names T placed h t → isRegister t = false)
    (bytes : List UInt8) : stored T b placed h bytes σ = σ := by
  ext t : 1
  apply if_neg
  rintro ⟨hregister, hhandle⟩
  rw [hnone t (names_iff.mpr hhandle)] at hregister
  cases hregister

variable (hsize : g.table.length ≤ 255)

include hlisted hsize

theorem gattWrite_of_unnamed (hnone : ∀ t, ¬ Names T placed h t)
    (callbacks : RuntimeBleCallbacks) (off : Nat) (data : List UInt8) :
    gattWrite b callbacks g h off data = [] := by
  have hfind := findDescriptor_other hlisted hsize fun i j => hnone (.descriptor i j)
  unfold gattWrite
  rw [writeSearch_other hlisted (fun i => hnone (.value i)) fun i => hnone (.cccd i)]
  simp only [ne_eq, not_true_eq_false, ↓reduceIte, and_self, hfind]

/-- The numbers of a descriptor are not truncated. -/
theorem numbers_of_names {t : Target} (ht : Names T placed h t) :
    (UInt16.ofNat t.index).toNat = t.index
      ∧ ∀ i j, t = .descriptor i j → (UInt8.ofNat j).toNat = j := by
  constructor
  · have hindex := index_lt_of_names hlisted hsize ht
    rw [UInt16.toNat_ofNat']
    omega
  · rintro i j rfl
    obtain ⟨e, p, he, hp, -⟩ := ht
    have hlt := hlisted.place_lt he hp
    simp only [Target.placeIn, Placed.descBase, Option.ite_none_right_eq_some,
      Option.some.injEq] at hp
    rw [UInt8.toNat_ofNat']
    omega

include hdistinct

/-- **What is written is kept**, in the register of the handle. -/
theorem kept_write (hbuild : buildGatt T b cfg name = .ok g) (hserving : Serving cfg.callbacks)
    (bytes : List UInt8) :
    (gattWrite b cfg.callbacks g h 0 bytes).foldl keep σ = stored T b placed h bytes σ := by
  by_cases hnamed : ∃ t, Names T placed h t
  · obtain ⟨t, ht⟩ := hnamed
    obtain ⟨hindex, hdesc⟩ := numbers_of_names hlisted hsize ht
    rw [gattWrite_of_names hbuild hlisted hdistinct hsize ht]
    cases t with
    | value i =>
        have hi : (UInt16.ofNat i).toNat = i := hindex
        rw [stored_of_names hlisted hdistinct ht rfl]
        simp only [writeCallback]
        split_ifs with hnus hdata hext hwrite
        · rw [hnus.2]
          rfl
        · exact absurd hserving.data hdata
        · show Function.update σ (.value (UInt16.ofNat i).toNat) _ = _
          rw [hi]
        · show Function.update σ (.value (UInt16.ofNat i).toNat) _ = _
          rw [hi]
        · exact (hserving.write.elim hwrite hext).elim
    | cccd i =>
        rw [stored_of_none]
        · simp only [writeCallback]
          split_ifs <;> rfl
        · intro t' ht'
          rw [names_unique hlisted hdistinct ht' ht]
          rfl
    | descriptor i j =>
        have hi : (UInt16.ofNat i).toNat = i := hindex
        have hj : (UInt8.ofNat j).toNat = j := hdesc i j rfl
        rw [stored_of_names hlisted hdistinct ht rfl]
        simp only [writeCallback]
        split_ifs with hext hwrite
        · show Function.update σ (.descriptor (UInt16.ofNat i).toNat (UInt8.ofNat j).toNat) _ = _
          rw [hi, hj]
        · show Function.update σ (.descriptor (UInt16.ofNat i).toNat (UInt8.ofNat j).toNat) _ = _
          rw [hi, hj]
        · exact (hserving.descriptorWrite.elim hwrite hext).elim
  · have hnone : ∀ t, ¬ Names T placed h t := fun t ht => hnamed ⟨t, ht⟩
    rw [gattWrite_of_unnamed hlisted hsize hnone, stored_of_none fun t ht => absurd ht (hnone t)]
    rfl

/-- **What is kept is read**, as much as there is room for. -/
theorem gattRead_register (hserving : Serving cfg.callbacks) {t : Target}
    (ht : Names T placed h t) (hregister : isRegister t = true) :
    (gattRead b cfg.callbacks g (registerRead b σ) h).2 = .unprocessed ((σ t).take b.valueLen) := by
  obtain ⟨hindex, hdesc⟩ := numbers_of_names hlisted hsize ht
  have hne : t.index ≠ noIndex := index_ne_noIndex hlisted hsize ht
  unfold gattRead
  cases t with
  | value i =>
      have hi : (UInt16.ofNat i).toNat = i := hindex
      have hi' : i ≠ noIndex := hne
      rw [(writeSearch_value hlisted hdistinct ht).2]
      simp only [if_pos hi', hserving.readValue, if_true, registerRead, hi, recalled]
  | cccd i => cases hregister
  | descriptor i j =>
      have hi : (UInt16.ofNat i).toNat = i := hindex
      have hj : (UInt8.ofNat j).toNat = j := hdesc i j rfl
      have hfind := findDescriptor_descriptor hlisted hdistinct hsize ht
      have hother : readSearch h 0 g.chars = noIndex := by
        apply readSearch_other hlisted
        intro k hk
        cases names_unique hlisted hdistinct hk ht
      rw [hother]
      simp only [ne_eq, not_true_eq_false, ↓reduceIte, hfind, hserving.descriptorReadValue,
        registerRead, hi, hj, recalled]

end Attribute

/-! ## Every run -/

section Runs

variable {T : Trouble} {b b' : Build} {cfg : RuntimeCfg} {name : List UInt8} {g : Gatt}
  {placed : List Placed} {gap : List PeerService} {between : Between} {σ : Registers}
  {store : ClientCharStore}

/-- The host answers discovery from the database. -/
def Between.FromDatabase (between : Between) (T : Trouble) (g : Gatt) (gap : List PeerService) :
    Prop :=
  ∀ s chars, between.elsewhere (.characteristics s) = some chars →
    ∀ c ∈ chars, c ∈ database T g gap

/-- A question that is not a write leaves the registers alone. -/
theorem peer_of_no_write {q : ClientQuery} (hq : ∀ h bytes, q ≠ .writeHandle h bytes
    ∧ q ≠ .writeHandleWithoutResponse h bytes) (σ : Registers) :
    (peer b cfg.callbacks g between σ q).1 = σ := by
  cases q with
  | writeHandle h bytes => exact absurd rfl (hq h bytes).1
  | writeHandleWithoutResponse h bytes => exact absurd rfl (hq h bytes).2
  | readHandle h =>
      simp only [peer]
      split
      · split <;> rfl
      · rfl
  | _ => rfl

theorem state_of_unasked {d : ClientDialogue} (h : Unasked d) (σ : Registers) :
    (d.runWith (peer b cfg.callbacks g between) σ).2.1 = σ := by
  apply (h.mono _).state_runWith
  intro q hq
  apply peer_of_no_write
  intro h bytes
  constructor <;> (rintro rfl; cases hq)

theorem state_of_ask {q : ClientQuery} {next : q.Answer → ClientDialogue}
    (h : ∀ a, Unasked (next a)) (σ : Registers) :
    ((Dialogue.ask q next : ClientDialogue).runWith (peer b cfg.callbacks g between) σ).2.1
      = (peer b cfg.callbacks g between σ q).1 :=
  state_of_unasked (h _) _

/-- One operation, on the registers. A subscription that finds a CCCD writes
to none. -/
theorem state_of_operation (hbuild : buildGatt T b cfg name = .ok g) (hlisted : Listed T g placed)
    (hdistinct : DistinctHandles T g.table.length) (hsize : g.table.length ≤ 255)
    (hserving : Serving cfg.callbacks) {o : ClientOp}
    (ho : ∀ h, subscribed o = some h → ∃ i, Names T placed (cccdFor store h) (.cccd i))
    (σ : Registers) :
    ((clientOperation b' store o).runWith (peer b cfg.callbacks g between) σ).2.1
      = registersStep T b placed between σ o := by
  have hkept : ∀ h bytes, (gattWrite b cfg.callbacks g h 0 bytes).foldl keep σ
      = stored T b placed h bytes σ :=
    fun h bytes => kept_write hlisted hdistinct hsize hbuild hserving bytes
  have hcccd : ∀ {h : UInt16} {bytes : List UInt8}, subscribed o = some h →
      (peer b cfg.callbacks g between σ (.writeHandle (cccdFor store h) bytes)).1 = σ := by
    intro h bytes hsubscribed
    obtain ⟨i, hi⟩ := ho h hsubscribed
    simp only [peer, hkept]
    split
    · apply stored_of_none
      intro t ht
      rw [names_unique hlisted hdistinct ht hi]
      rfl
    · rfl
  cases o with
  | read h =>
      apply (state_of_ask (q := .readHandle h) (unasked_clientReadDone clientOpRead h) σ).trans
      apply peer_of_no_write
      intro h' bytes
      constructor <;> rintro ⟨⟩
  | write h bytes | writeNoRsp h bytes =>
      refine (state_of_ask (fun ok => unasked_emitClientStatus ..) σ).trans ?_
      simp only [peer, hkept, registersStep]
      split <;> rfl
  | subscribe h | subscribeIndicate h | unsubscribe h =>
      exact (state_of_ask (fun ok => unasked_emitClientStatus ..) σ).trans (hcccd rfl)
  | _ => exact state_of_unasked (unasked_clientOperation rfl) σ

/-- What an operation adds to the store is in the database. -/
theorem known_of_operation (helsewhere : between.FromDatabase T g gap)
    (hlength : store.length ≤ clientCharCap) (hstore : Known T g gap store) (o : ClientOp)
    (σ : Registers) :
    let out := (clientOperation b' store o).runWith (peer b cfg.callbacks g between) σ
    out.2.2.length ≤ clientCharCap ∧ Known T g gap out.2.2 := by
  intro out
  have hgathers : Gathers store out.1 out.2.2 :=
    gathers_clientOperation o store _ _ (Dialogue.plays_runWith _ _ σ)
  have hanswered : AnsweredFrom T g gap out.1 := by
    intro s chars hl c hc
    obtain ⟨σ', hanswer⟩ := Dialogue.answered_runWith _ hl
    exact helsewhere s chars hanswer.symm c hc
  rw [Gathers, foldl_pushBounded _ hlength] at hgathers
  rw [hgathers]
  constructor
  · rw [List.length_take]
    exact Nat.min_le_left ..
  · intro c hc
    rcases List.mem_append.mp (List.mem_of_mem_take hc) with hc | hc
    · exact hstore c hc
    · exact hanswered.known c hc

/-- **A pair is a file of registers.** However a client reads, writes and
discovers, as long as each of its subscriptions is for a value with a CCCD,
and whatever comes through: the application of the server keeps what the
operations alone make of its registers; and at any time, a read that comes
through is answered to the application of the client with the register of the
handle, as much as the buffers of the two and the response have room for.

A subscription for another handle writes to the one behind it, which may be
that of a register. -/
theorem pair_is_registers (T : Trouble) (b b' : Build) (cfg : RuntimeCfg) (name : List UInt8)
    (g : Gatt) (hbuild : buildGatt T b cfg name = .ok g) (hconsecutive : Consecutive T b.attMax)
    (hserving : Serving cfg.callbacks) (gap : List PeerService) (hgap : InGap T gap)
    (between : Between) (helsewhere : between.FromDatabase T g gap) :
    ∃ placed, Listed T g placed ∧ placed.map (·.1) = declared (effectiveServices cfg.services)
      ∧ ∀ (os : List ClientOp) (σ : Registers),
        (∀ o ∈ os, ∀ h, subscribed o = some h →
          ∃ t, Names T placed h t ∧ Subscribes placed o t) →
        let out := (clientCommands b' os).runWith (peer b cfg.callbacks g between) σ
        out.2.1 = os.foldl (registersStep T b placed between) σ
        ∧ ∀ h t, Names T placed h t → isRegister t = true →
          between.admits (.readHandle h) = true →
          let value := (((out.2.1 t).take b.valueLen).take between.room)
          ((clientOperation b' out.2.2 (.read h)).runWith (peer b cfg.callbacks g between)
              out.2.1).1
            = [.answered (.readHandle h) (some value), .said (.onRead h (value.take b'.valueLen)),
              .said (.onClientStatus clientOpRead clientStatusOk h)] := by
  obtain ⟨placed, hlisted, hmap⟩ := listed_of_buildGatt hbuild
  have hle := length_table_le hbuild
  have hattMax : b.attMax ≤ 64 := by
    unfold Build.attMax
    split <;> omega
  have hsize : g.table.length ≤ 255 := by omega
  have hdistinct : DistinctHandles T g.table.length := by
    intro i hi j hj
    exact hconsecutive.distinct (by omega) i (by omega) j (by omega)
  refine ⟨placed, hlisted, hmap, fun os σ hos => ?_⟩
  intro out
  constructor
  · have hempty : Known T g gap [] := by
      intro c hc
      cases hc
    have hround : ∀ o ∈ os, ∀ (z σ : Registers) (store : ClientCharStore),
        σ = z ∧ store.length ≤ clientCharCap ∧ Known T g gap store →
        let after := (clientOperation b' store o).runWith (peer b cfg.callbacks g between) σ
        after.2.1 = registersStep T b placed between z o
          ∧ after.2.2.length ≤ clientCharCap ∧ Known T g gap after.2.2 := by
      rintro o ho z σ store ⟨rfl, hlength, hstore⟩
      refine ⟨?_, known_of_operation helsewhere hlength hstore o σ⟩
      apply state_of_operation hbuild hlisted hdistinct hsize hserving
      intro h hsubscribed
      obtain ⟨t, ⟨e, p, he, hp, rfl⟩, hsubscribes⟩ := hos o ho h hsubscribed
      obtain ⟨i, e', rfl, he', hhas⟩ := hsubscribes _ hsubscribed
      cases he.symm.trans he'
      cases hp
      refine ⟨i, e, e.2 + 2, he', if_pos hhas, ?_⟩
      exact cccdFor_value hbuild hlisted hmap hconsecutive hgap hstore he' hhas
    exact (Dialogue.runWith_forEach _
      (fun z σ store => σ = z ∧ store.length ≤ clientCharCap ∧ Known T g gap store)
      (registersStep T b placed between) hround ⟨rfl, Nat.zero_le _, hempty⟩).1
  · intro h t ht hregister hadmits value
    have hanswer : (peer b cfg.callbacks g between out.2.1 (.readHandle h)).2 = some value := by
      simp only [peer, if_pos hadmits]
      rw [gattRead_register hlisted hdistinct hsize hserving ht hregister]
    simp only [clientOperation, Dialogue.runWith, hanswer]
    rfl

/-- Callbacks for the values of characteristics and of descriptors. -/
def servingCfg : RuntimeCfg where
  callbacks :=
    { onData := true, onWrite := true, onDescriptorWrite := true, onReadValue := true,
      onDescriptorReadValue := true }

theorem serving_servingCfg : Serving servingCfg.callbacks := ⟨rfl, .inl rfl, .inl rfl, rfl, rfl⟩

/-- Everything comes through, and two bytes of a value. -/
def narrow : Between where
  admits _ := true
  elsewhere := nusHost
  room := 2

theorem fromDatabase_narrow : narrow.FromDatabase countingHost nusGatt [] := by
  intro s chars hanswer c hc
  obtain ⟨s', hs', rfl⟩ := Option.map_eq_some_iff.mp hanswer
  exact List.mem_flatMap.mpr ⟨s', List.mem_of_find?_eq_some hs', hc⟩

/-- The discovery, and two writes. -/
def registersOps : List ClientOp := [.discoverAll, .write 8 [7], .write 8 [1, 2, 3]]

theorem pair_is_registers_nus :
    (((clientCommands {} (registersOps ++ [.read 8])).runWith
        (peer {} servingCfg.callbacks nusGatt narrow) fun _ => []).1.filterMap reportOf).getLast?
      = some (.onRead 8 [1, 2])
    ∧ ∃ placed, ((clientCommands {} registersOps).runWith
        (peer {} servingCfg.callbacks nusGatt narrow) fun _ => []).2.1
      = registersOps.foldl (registersStep countingHost {} placed narrow) fun _ => [] := by
  obtain ⟨placed, -, -, hregisters⟩ := pair_is_registers countingHost {} {} servingCfg [] nusGatt
    rfl (consecutive_countingHost _) serving_servingCfg [] (by intro s hs; cases hs) narrow
    fromDatabase_narrow
  have hos : ∀ o ∈ registersOps, ∀ h, subscribed o = some h →
      ∃ t, Names countingHost placed h t ∧ Subscribes placed o t := by
    intro o ho h hsubscribed
    rcases List.mem_cons.mp ho with rfl | ho
    · cases hsubscribed
    · rcases List.mem_cons.mp ho with rfl | ho
      · cases hsubscribed
      · cases List.mem_singleton.mp ho
        cases hsubscribed
  exact ⟨by decide, placed, (hregisters registersOps (fun _ => []) hos).1⟩

end Runs

end RuntimeBle.Pair
