import RuntimeBle.Client.Status
import RuntimeBle.Pair.Database

/-!
# Pair — Discovery

A client that discovers a server, both of them this runtime: what is
reported to the application of the client, against what the application of
the server has declared.

The hosts of the two sides are in between. `Serves` is what is relied on:
that discovery procedures return what is in the table, behind the services
of the GAP configuration, as far as it is no more than the client has room
for.
-/

namespace RuntimeBle.Pair

open RuntimeBle.Lib RuntimeBle.Server RuntimeBle.Client

/-! ## Properties -/

/-- The bits of the C API that there are. -/
def cPropMask : UInt16 := 0x1f

theorem mapProps_masked (props : UInt16) : mapProps (props &&& cPropMask) = mapProps props := by
  have hbit : ∀ k : UInt16, cPropMask &&& k = k →
      props &&& cPropMask &&& k = props &&& k := by
    intro k hk
    rw [UInt16.and_assoc, hk]
  unfold mapProps
  rw [hbit cPropRead (by decide), hbit cPropWriteNr (by decide), hbit cPropWrite (by decide),
    hbit cPropNotify (by decide), hbit cPropIndicate (by decide)]

/-- **Properties come through**: what the client is told of them is what the
server declares. -/
theorem propsToC_mapProps (props : UInt16) : propsToC (mapProps props) = props &&& cPropMask := by
  have hsmall : (props &&& cPropMask).toNat < 32 := by
    rw [UInt16.toNat_and]
    exact Nat.lt_of_le_of_lt Nat.and_le_right (by decide)
  have hall : ∀ n < 32, propsToC (mapProps (UInt16.ofNat n)) = UInt16.ofNat n := by decide
  rw [← mapProps_masked]
  have h := hall _ hsmall
  rwa [UInt16.ofNat_toNat] at h

/-! ## The host in between -/

/-- `CLIENT_SERVICE_CAP`. -/
def clientServiceCap : Nat := 8

/-- The host's discovery finds what is in the table, as long as there are no
more services than `GattClient` has room for, and no more characteristics in
one than are asked for; `gap` are the services of the GAP configuration. -/
structure Serves (T : Trouble) (table : List Attribute) (gap : List PeerService)
    (answer : (q : ClientQuery) → q.Answer) : Prop where
  services : (gap ++ servicesFrom T 0 table).length ≤ clientServiceCap →
    answer .services = some ((gap ++ servicesFrom T 0 table).map (·.handle))
  byUuid : (gap ++ servicesFrom T 0 table).length ≤ clientServiceCap →
    ∀ uuid, (∃ s ∈ gap ++ servicesFrom T 0 table, s.handle.uuid = uuid) →
    answer (.servicesByUuid uuid)
      = some (((gap ++ servicesFrom T 0 table).filter (·.handle.uuid = uuid)).map (·.handle))
  characteristics : ∀ s ∈ gap ++ servicesFrom T 0 table, s.chars.length ≤ clientCharCap →
    answer (.characteristics s.handle) = some s.chars

/-! ## What is reported -/

section Reported

variable {answer : (q : ClientQuery) → q.Answer} {store : ClientCharStore}

/-- What is told of its characteristics. -/
def PeerService.charReports (s : PeerService) : List ClientCallback := s.chars.map reportChar

/-- What is told of it, its characteristics behind it. -/
def PeerService.reports (s : PeerService) : List ClientCallback :=
  reportService s.handle :: s.charReports

theorem heard_chars {s : PeerService}
    (h : answer (.characteristics s.handle) = some s.chars) (store : ClientCharStore) :
    (reportServiceChars s.handle store).heard answer = s.charReports := by
  simp only [reportServiceChars, Dialogue.heard, h]
  show (Dialogue.forEach s.chars store fun c store =>
    (.emit (reportChar c) (.ret (pushChar store c)) : ClientDialogue)).heard answer = _
  have hround : ∀ c ∈ s.chars, ∀ store,
      (.emit (reportChar c) (.ret (pushChar store c)) : ClientDialogue).heard answer
        = [reportChar c] :=
    fun _ _ _ => rfl
  rw [Dialogue.heard_forEach answer hround]
  exact List.map_eq_flatMap.symm

/-- All services, each with its characteristics. -/
theorem heard_discoverAll {found : List PeerService}
    (hservices : answer .services = some (found.map (·.handle)))
    (hchars : ∀ s ∈ found, answer (.characteristics s.handle) = some s.chars)
    (store : ClientCharStore) :
    (clientDiscoverAll store).heard answer
      = found.flatMap PeerService.reports ++ [.onClientStatus clientOpDiscoverAll clientStatusOk 0]
      := by
  have hloop : ∀ found : List PeerService,
      (∀ s ∈ found, answer (.characteristics s.handle) = some s.chars) → ∀ store,
      (Dialogue.forEach (found.map (·.handle)) store fun s store =>
        (.emit (reportService s) (reportServiceChars s store) : ClientDialogue)).heard answer
        = found.flatMap PeerService.reports := by
    intro found
    induction found with
    | nil => intro _ _; rfl
    | cons s found ih =>
        intro h store
        rw [List.map_cons, Dialogue.forEach, Dialogue.heard_bind, List.flatMap_cons]
        show reportService s.handle :: (reportServiceChars s.handle store).heard answer ++ _ = _
        rw [heard_chars (h s List.mem_cons_self),
          ih fun s' hs' => h s' (List.mem_cons_of_mem _ hs')]
        rfl
  simp only [clientDiscoverAll, Dialogue.heard, hservices, Dialogue.heard_bind]
  rw [hloop found hchars]
  rfl

/-- The characteristics of the services with a UUID. -/
theorem heard_discover {found : List PeerService} {uuid : List UInt8}
    (hservices : answer (.servicesByUuid uuid) = some (found.map (·.handle)))
    (hchars : ∀ s ∈ found, answer (.characteristics s.handle) = some s.chars)
    (store : ClientCharStore) :
    (clientDiscover uuid store).heard answer
      = found.flatMap PeerService.charReports
        ++ [.onClientStatus clientOpDiscoverChars clientStatusOk 0] := by
  have hloop : ∀ found : List PeerService,
      (∀ s ∈ found, answer (.characteristics s.handle) = some s.chars) → ∀ store,
      (Dialogue.forEach (found.map (·.handle)) store reportServiceChars).heard answer
        = found.flatMap PeerService.charReports := by
    intro found
    induction found with
    | nil => intro _ _; rfl
    | cons s found ih =>
        intro h store
        rw [List.map_cons, Dialogue.forEach, Dialogue.heard_bind, List.flatMap_cons,
          heard_chars (h s List.mem_cons_self),
          ih fun s' hs' => h s' (List.mem_cons_of_mem _ hs')]
  simp only [clientDiscover, Dialogue.heard, hservices, Dialogue.heard_bind]
  rw [hloop found hchars]
  rfl

end Reported

/-! ## What was declared -/

/-- What the client is to be told of a characteristic, from its declaration
and its place. -/
def announced (T : Trouble) (e : Placed) : ClientCallback :=
  .onDiscovered (T.handleOf (e.2 + 1)) (uuidFrom e.1.uuid) (e.1.props &&& cPropMask)

theorem reportChar_found (T : Trouble) (e : Placed) :
    reportChar (found T e.2 e.1) = announced T e := by
  show ClientCallback.onDiscovered _ _ (propsToC (mapProps e.1.props)) = _
  rw [propsToC_mapProps]
  rfl

/-- **Discovery reports what is declared**, of a server with no more than eight
services, those of the GAP configuration among them, and 32 characteristics
in each. A client that discovers all of it is told of the GAP services first
and then of the declared ones in order, each with its handle range and UUID,
and of their characteristics: in the order of declaration, with the value
handle under which the server looks them up, the UUID, and the declared
properties; then of success. One that discovers a service by its UUID is told
of the characteristics of the services with that UUID. -/
theorem discovery_reports_declared (T : Trouble) (b : Build) (cfg : RuntimeCfg)
    (name : List UInt8) (g : Gatt) (hbuild : buildGatt T b cfg name = .ok g)
    (gap : List PeerService) (answer : (q : ClientQuery) → q.Answer)
    (hserves : Serves T g.table gap answer)
    (hcap : gap.length + (effectiveServices cfg.services).length ≤ clientServiceCap)
    (hgapChars : ∀ s ∈ gap, s.chars.length ≤ clientCharCap)
    (hdeclared : ∀ s ∈ effectiveServices cfg.services,
      (s.chars.getD []).length ≤ clientCharCap) (store : ClientCharStore) :
    ∃ (placed : List Placed) (services : List PeerService), Listed T g placed
      ∧ placed.map (·.1) = declared (effectiveServices cfg.services)
      ∧ services = foundServices T T.gapAttributes (effectiveServices cfg.services)
      ∧ services.flatMap PeerService.charReports = placed.map (announced T)
      ∧ (clientDiscoverAll store).heard answer
        = (gap ++ services).flatMap PeerService.reports
          ++ [.onClientStatus clientOpDiscoverAll clientStatusOk 0]
      ∧ ∀ uuid, (∃ s ∈ gap ++ services, s.handle.uuid = uuid) →
        (clientDiscover uuid store).heard answer
          = ((gap ++ services).filter (·.handle.uuid = uuid)).flatMap PeerService.charReports
            ++ [.onClientStatus clientOpDiscoverChars clientStatusOk 0] := by
  obtain ⟨placed, hlisted, hmap⟩ := listed_of_buildGatt hbuild
  have hservices := services_of_buildGatt hbuild
  have hchars := found_of_listed hbuild hlisted hmap
  rw [hservices] at hchars
  obtain ⟨hall, hbyUuid, hcharacteristics⟩ := hserves
  rw [hservices] at hall hbyUuid hcharacteristics
  have hroom : (gap ++ foundServices T T.gapAttributes (effectiveServices cfg.services)).length
      ≤ clientServiceCap := by
    rw [List.length_append, length_foundServices]
    exact hcap
  have hanswered : ∀ s ∈ gap ++ foundServices T T.gapAttributes (effectiveServices cfg.services),
      answer (.characteristics s.handle) = some s.chars := by
    intro s hs
    apply hcharacteristics s hs
    rcases List.mem_append.mp hs with hs | hs
    · exact hgapChars s hs
    · obtain ⟨declaredService, hmem, hlength⟩ := length_chars_of_foundServices hs
      rw [hlength]
      exact hdeclared declaredService hmem
  refine ⟨placed, _, hlisted, hmap, rfl, ?_, heard_discoverAll (hall hroom) hanswered store, ?_⟩
  · unfold PeerService.charReports
    rw [← List.map_flatMap, hchars, List.map_map]
    exact List.map_congr_left fun e _ => reportChar_found T e
  · intro uuid huuid
    apply heard_discover (hbyUuid hroom uuid huuid)
    intro s hs
    exact hanswered s (List.mem_of_mem_filter hs)

/-- The default configuration, on a host that finds everything. -/
def nusGatt : Gatt :=
  (buildGatt countingHost {} {} []).toOption.getD { table := [], appearanceStore := false }

/-- Its services, as they are found. -/
def nusServices : List PeerService := servicesFrom countingHost 0 nusGatt.table

/-- A host that finds all of them, and to which reads fail. -/
def nusHost : (q : ClientQuery) → q.Answer
  | .services => some (nusServices.map (·.handle))
  | .servicesByUuid uuid => some ((nusServices.filter (·.handle.uuid = uuid)).map (·.handle))
  | .characteristics s => (nusServices.find? (·.handle = s)).map (·.chars)
  | .findInformation _ _ | .readByType _ _ _ => ([], true)
  | .readHandle _ | .readHandleBlob _ _ => none
  | .writeHandle _ _ | .writeHandleWithoutResponse _ _ => true

theorem serves_nusHost : Serves countingHost nusGatt.table [] nusHost where
  services _ := rfl
  byUuid _ _ _ := rfl
  characteristics := by
    have hfound : ∀ s ∈ nusServices,
        (nusServices.find? (·.handle = s.handle)).map (·.chars) = some s.chars := by
      decide
    exact fun s hs _ => hfound s hs

theorem discovery_reports_declared_nus :
    (clientDiscoverAll []).heard nusHost
      = [.onService 6 11 nusSvc, .onDiscovered 8 nusRxUuid 0x06, .onDiscovered 10 nusTxUuid 0x08,
        .onClientStatus clientOpDiscoverAll clientStatusOk 0] := by
  obtain ⟨placed, services, -, -, rfl, -, hheard, -⟩ :=
    discovery_reports_declared countingHost {} {} [] nusGatt rfl [] nusHost serves_nusHost
      (by decide) (by intro s hs; cases hs) (by decide) []
  rw [hheard]
  decide

end RuntimeBle.Pair
