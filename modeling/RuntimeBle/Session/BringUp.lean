import RuntimeBle.Server.Gatt

/-!
# Session — BringUp

What a load says of the session, and what becomes of it. `radio::run`
publishes its status behind the controller and before `serve_session`,
which is where the GATT is built.
-/

namespace RuntimeBle.Session

open RuntimeBle.Server

/-! ## The device name -/

/-- The continuation bytes a first byte of UTF-8 asks for, as ranges. -/
def utf8Tail (first : UInt8) : Option (List (UInt8 × UInt8)) :=
  if first < 0x80 then some []
  else if first < 0xc2 then none
  else if first < 0xe0 then some [(0x80, 0xbf)]
  else if first = 0xe0 then some [(0xa0, 0xbf), (0x80, 0xbf)]
  else if first = 0xed then some [(0x80, 0x9f), (0x80, 0xbf)]
  else if first < 0xf0 then some [(0x80, 0xbf), (0x80, 0xbf)]
  else if first = 0xf0 then some [(0x90, 0xbf), (0x80, 0xbf), (0x80, 0xbf)]
  else if first < 0xf4 then some [(0x80, 0xbf), (0x80, 0xbf), (0x80, 0xbf)]
  else if first = 0xf4 then some [(0x80, 0x8f), (0x80, 0xbf), (0x80, 0xbf)]
  else none

/-- `CStr::to_str` succeeds; `owed` is what the character begun still needs. -/
def validUtf8 (owed : List (UInt8 × UInt8)) : List UInt8 → Bool
  | [] => owed.isEmpty
  | a :: rest =>
      match owed with
      | [] =>
          match utf8Tail a with
          | none => false
          | some owed => validUtf8 owed rest
      | (low, high) :: owed => low ≤ a && a ≤ high && validUtf8 owed rest

/-- `cstr_or`: the default stands for no string, and for one that is not UTF-8. -/
def cstrOr (p : Option (List UInt8)) (default : List UInt8) : List UInt8 :=
  match p with
  | none => default
  | some s => if validUtf8 [] s then s else default

/-- `"RUNTIME-BLE"`. -/
def defaultName : List UInt8 :=
  [0x52, 0x55, 0x4e, 0x54, 0x49, 0x4d, 0x45, 0x2d, 0x42, 0x4c, 0x45]

/-! ## The session -/

/-- What becomes of the BLE thread: bring-up is given up with an error
status, `build_gatt` returns `None`, the fatal handler is reached, or the
session future is polled. -/
inductive Fate where
  | aborted
  | noGatt
  | panicked
  | polled
deriving DecidableEq

/-- How the parts beside the GATT turn out; `inTime` tells that the
semaphore is given within the 3000 ms. -/
structure Outcomes where
  mpslOk : Bool := true
  sdcOk : Bool := true
  inTime : Bool := true

/-- What a load comes to: what it returns, and what has become of the session. -/
structure Report where
  returned : Int
  loaded : Bool
  status : Int
  fate : Fate
deriving DecidableEq

variable (T : Trouble) (b : Build)

/-- Up to `block_on`. -/
def serveSession (cfg : RuntimeCfg) : Fate :=
  match buildGatt T b cfg (cstrOr cfg.deviceName defaultName) with
  | .ok _ => .polled
  | .error .nameTooLong => .noGatt
  | .error .tableFull => .panicked

/-- `radio::run`: the status it leaves in `LOAD_STATUS`, and its fate. -/
def run (o : Outcomes) (cfg : Option RuntimeCfg) : Int × Fate :=
  match cfg with
  | none => (runtimeBleErrInvalid, .aborted)
  | some cfg =>
      if !o.mpslOk then (runtimeBleErrMpsl, .aborted)
      else if !o.sdcOk then (runtimeBleErrSdc, .aborted)
      else if b.central && cfg.role = 1 then (runtimeBleOk, .polled) -- `serve_central`
      else (runtimeBleOk, serveSession T b cfg)

/-- `runtime_ble_load` of a session that is not loaded, once the BLE thread
has been created. -/
def runtimeBleLoad (o : Outcomes) (cfg : Option RuntimeCfg) : Report :=
  let r := run T b o cfg
  let status := if o.inTime then r.1 else runtimeBleErrTimeout
  { returned := status, loaded := status = runtimeBleOk, status := r.1, fate := r.2 }

/-! ## Truth -/

/-- The report is true of the session. -/
structure Truthful (r : Report) : Prop where
  came_up : r.returned = runtimeBleOk ∨ r.status = runtimeBleOk → r.fate = .polled
  failed : r.fate = .noGatt → r.returned < 0 ∧ r.loaded = false
  no_panic : r.fate ≠ .panicked

variable {T b} {o : Outcomes} {c : RuntimeBleConfig} {cfg : RuntimeCfg}

/-- What `runtime_ble_init` keeps of the fields that matter here. -/
theorem init_keeps (h : runtimeBleInit (some c) = .ok cfg) :
    cfg.deviceName = c.deviceName ∧ cfg.role = c.role ∧ cfg.services = c.services := by
  simp only [runtimeBleInit] at h
  split at h
  · cases h
  · split at h
    · cases h
    · cases h
      exact ⟨rfl, rfl, rfl⟩

theorem serveSession_eq_polled : serveSession T b cfg = .polled ↔
    (cstrOr cfg.deviceName defaultName).length ≤ T.nameMax ∧
      T.gapAttributes + userAttributes cfg.services ≤ b.attMax := by
  have hbuild := buildGatt_eq (T := T) (b := b) cfg (cstrOr cfg.deviceName defaultName)
  unfold serveSession
  split at hbuild
  · rename_i hlong
    rw [hbuild]
    simp only [reduceCtorEq, false_iff]
    omega
  · rename_i hname
    split at hbuild
    · rename_i hfit
      obtain ⟨g, hg⟩ := hbuild
      rw [hg]
      exact iff_of_true rfl ⟨by omega, hfit⟩
    · rename_i hfull
      rw [hbuild]
      simp only [reduceCtorEq, false_iff]
      exact fun h => hfull h.2

/-- A session that reaches the GATT is reported truthfully when the GATT is
built, and never otherwise. -/
theorem truthful_of_run {fate : Fate} (hrun : run T b o (some cfg) = (runtimeBleOk, fate)) :
    Truthful (runtimeBleLoad T b o (some cfg)) ↔ fate = .polled := by
  constructor
  · intro h
    have hup := h.came_up (.inr (by simp [runtimeBleLoad, hrun]))
    simpa [runtimeBleLoad, hrun] using hup
  · rintro rfl
    constructor <;> simp [runtimeBleLoad, hrun]

/-- And one that fails before is reported as failed. -/
theorem truthful_of_aborted (status : Int) (hrun : run T b o (some cfg) = (status, .aborted))
    (hstatus : status ≠ runtimeBleOk) : Truthful (runtimeBleLoad T b o (some cfg)) := by
  constructor
  · rintro (hreturned | hpublished)
    · simp only [runtimeBleLoad, hrun] at hreturned
      split at hreturned
      · exact absurd hreturned hstatus
      · cases hreturned
    · simp only [runtimeBleLoad, hrun] at hpublished
      exact absurd hpublished hstatus
  · simp [runtimeBleLoad, hrun]
  · simp [runtimeBleLoad, hrun]

/-- **A load tells the truth exactly if** MPSL or SDC fails, or the session
is a central's, or the device name and the attributes fit. -/
theorem load_truthful_iff (T : Trouble) (b : Build) (o : Outcomes) {c : RuntimeBleConfig}
    {cfg : RuntimeCfg} (h : runtimeBleInit (some c) = .ok cfg) :
    Truthful (runtimeBleLoad T b o (some cfg)) ↔
      o.mpslOk = false ∨ o.sdcOk = false ∨ (b.central = true ∧ c.role = 1) ∨
        ((cstrOr c.deviceName defaultName).length ≤ T.nameMax ∧
          T.gapAttributes + userAttributes c.services ≤ b.attMax) := by
  obtain ⟨hname, hrole, hservices⟩ := init_keeps h
  rw [← hname, ← hrole, ← hservices]
  cases hmpsl : o.mpslOk with
  | false =>
      refine iff_of_true (truthful_of_aborted runtimeBleErrMpsl ?_ (by decide)) (.inl rfl)
      simp [run, hmpsl]
  | true =>
      cases hsdc : o.sdcOk with
      | false =>
          refine iff_of_true (truthful_of_aborted runtimeBleErrSdc ?_ (by decide))
            (.inr (.inl rfl))
          simp [run, hmpsl, hsdc]
      | true =>
          by_cases hcentral : b.central = true ∧ cfg.role = 1
          · have hrun : run T b o (some cfg) = (runtimeBleOk, .polled) := by
              simp [run, hmpsl, hsdc, hcentral]
            rw [truthful_of_run hrun]
            exact iff_of_true rfl (.inr (.inr (.inl hcentral)))
          · have hrun : run T b o (some cfg) = (runtimeBleOk, serveSession T b cfg) := by
              simp [run, hmpsl, hsdc, hcentral]
            rw [truthful_of_run hrun, serveSession_eq_polled]
            simp [hcentral]

/-- Limits to run on. -/
def trouble : Trouble :=
  { nameMax := 22, gapAttributes := 6, handleOf := fun i => UInt16.ofNat (i + 1) }

/-- A name of 23 bytes passes `runtime_ble_init`, and the load returns OK;
there is no session. -/
theorem load_ok_without_session :
    ∃ cfg, runtimeBleInit (some { abiVersion := 1, deviceName := some (List.replicate 23 0x41) })
        = .ok cfg ∧
      runtimeBleLoad trouble {} {} (some cfg)
        = { returned := runtimeBleOk, loaded := true, status := runtimeBleOk, fate := .noGatt } ∧
      ¬ Truthful (runtimeBleLoad trouble {} {} (some cfg)) := by
  refine ⟨_, rfl, by decide, fun h => ?_⟩
  have hpolled := h.came_up (.inl (by decide))
  revert hpolled
  decide

-- thirteen characteristics are more than the table of the smallest build holds: the thread
-- panics after the load has returned OK
example : (runtimeBleLoad trouble {} {} (some
    { services := some [{ uuid := some [0x0d, 0x18], chars := some (List.replicate 13
      { uuid := some [0x37, 0x2a], props := 0x01 }) }] })).fate = .panicked := by decide

/-- The default configuration. -/
theorem load_truthful_nus : Truthful (runtimeBleLoad trouble {} {} (some {})) :=
  (load_truthful_iff trouble {} {} (c := { abiVersion := 1 }) rfl).mpr
    (.inr (.inr (.inr (by decide))))

end RuntimeBle.Session
