import RuntimeBle.Client.Operations

/-!
# Client — Status

What `on_client_status` says of a command, against how its ATT procedures
ended. `report_service_chars` drops the error of its characteristic
discovery: it has nothing to return it with.

A service that `discover` finds by UUID is no item: `on_service` is for
`discover_services` and `discover_all`, and `discover` reports what is in it.
-/

namespace RuntimeBle.Client

open RuntimeBle.Lib RuntimeBle.Request

/-! ## Lines of a run -/

/-- A line of an operation's transcript. -/
abbrev ClientLine := Dialogue.Line ClientQuery ClientQuery.Answer ClientCallback

/-- The answer is not a failure. -/
def ClientQuery.endedWell : (q : ClientQuery) → q.Answer → Bool
  | services, a => Option.isSome a
  | servicesByUuid _, a => Option.isSome a
  | characteristics _, a => Option.isSome a
  | findInformation _ _, a => a.2
  | readByType _ _ _, a => a.2
  | readHandle _, a => Option.isSome a
  | readHandleBlob _ _, a => Option.isSome a
  | writeHandle _ _, a => a
  | writeHandleWithoutResponse _ _, a => a

/-- It tells something that was found. -/
def ClientCallback.isReport : ClientCallback → Bool
  | onLog _ | onClientStatus _ _ _ => false
  | _ => true

/-- The report of a characteristic. -/
def reportChar (c : Characteristic) : ClientCallback :=
  .onDiscovered c.handle c.uuid (propsToC c.props)

/-- The callbacks for what a procedure has returned. -/
def itemsOf (b : Build) : ClientLine → List ClientCallback
  | .answered .services (some svcs) => svcs.map reportService
  | .answered (.characteristics _) (some chars) => chars.map reportChar
  | .answered (.findInformation _ _) (found, _) =>
      found.map fun (handle, uuid) => .onDescriptor handle uuid
  | .answered (.readByType _ _ _) (found, _) =>
      found.map fun (handle, data) => .onRead handle (data.take b.valueLen)
  | .answered (.readHandle handle) (some value) => [.onRead handle (value.take b.valueLen)]
  | .answered (.readHandleBlob handle _) (some value) => [.onRead handle (value.take b.valueLen)]
  | _ => []

/-- A procedure that has failed. -/
def isFailure : ClientLine → Bool
  | .said _ => false
  | .answered q a => !q.endedWell a

/-- Characteristic discovery of one service has failed. -/
def isCharsFailure : ClientLine → Bool
  | .answered (.characteristics _) none => true
  | _ => false

/-- The report that a line is, if it is one. -/
def reportOf : ClientLine → Option ClientCallback
  | .said e => if e.isReport then some e else none
  | .answered _ _ => none

/-- The status that a line is, if it is one. -/
def statusOf : ClientLine → Option ClientStatus
  | .said e => e.status
  | .answered _ _ => none

/-! ## The property -/

/-- Every item that the procedures of a run have returned, and each of
`owed`, is reported to its callback, once. -/
def Reports (b : Build) (owed : List ClientCallback) (ls : List ClientLine) : Prop :=
  (ls.filterMap reportOf).Perm (owed ++ ls.flatMap (itemsOf b))

/-- `CLIENT_STATUS_OK` says that no procedure has failed and that every item
is reported, and where one has failed the status is `CLIENT_STATUS_FAILED`. -/
structure Truthful (b : Build) (ls : List ClientLine) : Prop where
  ok : ∀ x ∈ ls.filterMap statusOf, x.status = clientStatusOk →
    (∀ l ∈ ls, isFailure l = false) ∧ Reports b [] ls
  failed : (∃ l ∈ ls, isFailure l = true) →
    ∃ x, ls.filterMap statusOf = [x] ∧ x.status = clientStatusFailed

/-! ## Parts of a run -/

/-- A failure that the status tells of. -/
def isToldFailure (l : ClientLine) : Bool := isFailure l && !isCharsFailure l

/-- A part of a run before the status. -/
structure Untold (b : Build) (owed : List ClientCallback) (ls : List ClientLine) : Prop where
  silent : ls.filterMap statusOf = []
  goesWell : ls.any isToldFailure = false
  reports : Reports b owed ls

/-- A run with its status. It is `CLIENT_STATUS_FAILED` before any
characteristic is discovered, or nothing else has failed. -/
structure StatusTold (b : Build) (ls : List ClientLine) : Prop where
  reports : Reports b [] ls
  status : ∃ x, ls.filterMap statusOf = [x] ∧
    (x.status = clientStatusFailed ∧ ls.any isCharsFailure = false
      ∨ x.status = clientStatusOk ∧ ls.any isToldFailure = false)

section Parts

variable {b : Build} {owed owed' : List ClientCallback} {ls ls' : List ClientLine}
  {l : ClientLine} {op : UInt8} {handle : UInt16} {ok : Bool}

theorem Reports.append (h : Reports b owed ls) (h' : Reports b owed' ls') :
    Reports b (owed ++ owed') (ls ++ ls') := by
  rw [Reports, List.filterMap_append, List.flatMap_append]
  refine (List.Perm.append h h').trans ?_
  rw [List.append_assoc, List.append_assoc]
  refine List.Perm.append_left owed ?_
  rw [← List.append_assoc, ← List.append_assoc]
  exact List.perm_append_comm.append_right _

theorem Untold.nil : Untold b [] [] := ⟨rfl, rfl, .nil⟩

theorem Untold.append (h : Untold b owed ls) (h' : Untold b owed' ls') :
    Untold b (owed ++ owed') (ls ++ ls') where
  silent := by rw [List.filterMap_append, h.silent, h'.silent, List.append_nil]
  goesWell := by rw [List.any_append, h.goesWell, h'.goesWell, Bool.or_self]
  reports := h.reports.append h'.reports

/-- What is said and reported is what was owed. -/
theorem untold_said {es : List ClientCallback} (hes : ∀ e ∈ es, e.isReport = true) :
    Untold b es (es.map .said) := by
  have hreports : (es.map Dialogue.Line.said : List ClientLine).filterMap reportOf = es := by
    rw [List.filterMap_map]
    refine (List.filterMap_congr fun e he => ?_).trans List.filterMap_some
    exact if_pos (hes e he)
  refine ⟨?_, ?_, ?_⟩
  · refine List.filterMap_eq_nil_iff.mpr fun l hl => ?_
    obtain ⟨e, he, rfl⟩ := List.mem_map.mp hl
    have hreport := hes e he
    cases e <;> first | rfl | cases hreport
  · rw [List.any_map, List.any_eq_false]
    exact fun e he => Bool.false_ne_true
  · rw [Reports, hreports, List.flatMap_map]
    have hnone : (es.flatMap fun e => itemsOf b (.said e)) = [] := by
      refine List.flatMap_eq_nil_iff.mpr fun e he => rfl
    rw [hnone, List.append_nil]

theorem untold_answered {q : ClientQuery} {a : q.Answer}
    (hq : isToldFailure (.answered q a) = false)
    (h : Untold b (itemsOf b (.answered q a)) ls) : Untold b [] (.answered q a :: ls) where
  silent := h.silent
  goesWell := by rw [List.any_cons, hq, h.goesWell, Bool.or_self]
  reports := h.reports

/-- What a run says last. -/
def statusLine (op : UInt8) (ok : Bool) (handle : UInt16) : ClientLine :=
  .said (.onClientStatus op (if ok then clientStatusOk else clientStatusFailed) handle)

theorem reports_status (h : Reports b owed ls) :
    Reports b owed (ls ++ [statusLine op ok handle]) := by
  have hstatus : Reports b [] [statusLine op ok handle] := .nil
  simpa using h.append hstatus

theorem Untold.told (h : Untold b [] ls) : StatusTold b (ls ++ [statusLine op true handle]) where
  reports := reports_status h.reports
  status := by
    refine ⟨{ op, status := clientStatusOk, handle }, ?_, .inr ⟨rfl, ?_⟩⟩
    · rw [List.filterMap_append, h.silent]
      rfl
    · rw [List.any_append, h.goesWell]
      rfl

/-- A command with one procedure, and the status that says how it ended. -/
theorem told_of_answered {q : ClientQuery} {a : q.Answer}
    (hq : isCharsFailure (.answered q a) = false)
    (h : Untold b (itemsOf b (.answered q a)) ls) (hchars : ls.any isCharsFailure = false) :
    StatusTold b (.answered q a :: (ls ++ [statusLine op (q.endedWell a) handle])) := by
  have hreports : Reports b [] (.answered q a :: ls) := h.reports
  refine ⟨reports_status hreports, ?_⟩
  cases hwell : q.endedWell a with
  | true =>
      have huntold : Untold b [] (.answered q a :: ls) :=
        untold_answered (by simp [isToldFailure, isFailure, hwell]) h
      exact huntold.told.status
  | false =>
      refine ⟨{ op, status := clientStatusFailed, handle }, ?_, .inl ⟨rfl, ?_⟩⟩
      · rw [← List.cons_append, List.filterMap_append, List.filterMap_cons, h.silent]
        rfl
      · rw [List.any_cons, hq, List.any_append, hchars]
        rfl

end Parts

/-! ## The operations -/

section Operations

variable {b : Build} {op : UInt8} {handle : UInt16} {store : ClientCharStore}

/-- Whatever the rounds of a loop owe, its run reports. -/
theorem untold_forEach {α : Type} (owed : α → List ClientCallback)
    {body : α → ClientCharStore → ClientDialogue}
    (hbody : ∀ x store, (body x store).Ensures fun ls _ => Untold b (owed x) ls)
    (xs : List α) (store : ClientCharStore) :
    (Dialogue.forEach xs store body).Ensures fun ls _ => Untold b (xs.flatMap owed) ls := by
  refine Dialogue.Ensures.forEach (fun done ls _ => Untold b (done.flatMap owed) ls) Untold.nil ?_
  intro done x _ ls store _ h
  refine (hbody x store).mono fun ls' _ h' => ?_
  have happend := h.append h'
  rwa [List.flatMap_append, List.flatMap_singleton]

variable (b) in
theorem untold_reportChar (c : Characteristic) (store : ClientCharStore) :
    (Dialogue.emit (reportChar c) (.ret (pushChar store c)) : ClientDialogue).Ensures
      fun ls _ => Untold b [reportChar c] ls := by
  refine .emit (.ret (untold_said ?_))
  intro e he
  rw [List.mem_singleton.mp he]
  rfl

variable (b) in
theorem untold_reportServiceChars (s : ServiceHandle) (store : ClientCharStore) :
    (reportServiceChars s store).Ensures fun ls _ => Untold b [] ls := by
  refine .ask fun r => ?_
  cases r with
  | none => exact .ret ⟨rfl, rfl, .nil⟩
  | some chars =>
      refine (untold_forEach _ (untold_reportChar b) chars store).mono fun ls _ h => ?_
      rw [← List.map_eq_flatMap] at h
      exact untold_answered rfl h

theorem told_emitClientStatus {ls : List ClientLine} (h : Untold b [] ls) :
    (emitClientStatus op true handle store).Ensures fun ls' _ => StatusTold b (ls ++ ls') :=
  .emit (.ret h.told)

theorem told_clientDiscoverAll :
    (clientDiscoverAll store).Ensures fun ls _ => StatusTold b ls := by
  refine .ask fun r => ?_
  cases r with
  | none => exact .emit (.emit (.ret ⟨.nil, _, rfl, .inl ⟨rfl, rfl⟩⟩))
  | some svcs =>
      have hround : ∀ (s : ServiceHandle) (store : ClientCharStore),
          (Dialogue.emit (reportService s) (reportServiceChars s store)).Ensures
            fun ls _ => Untold b [reportService s] ls := by
        intro s store
        refine .emit ((untold_reportServiceChars b s store).mono fun ls _ h => ?_)
        have hsaid : Untold b [reportService s] [.said (reportService s)] :=
          untold_said fun e he => by rw [List.mem_singleton.mp he]; rfl
        exact hsaid.append h
      refine (untold_forEach _ hround svcs store).bind fun ls store' h => ?_
      rw [← List.map_eq_flatMap] at h
      exact told_emitClientStatus (untold_answered rfl h)

theorem told_clientDiscover (uuid : List UInt8) :
    (clientDiscover uuid store).Ensures fun ls _ => StatusTold b ls := by
  refine .ask fun r => ?_
  cases r with
  | none => exact .emit (.emit (.ret ⟨.nil, _, rfl, .inl ⟨rfl, rfl⟩⟩))
  | some svcs =>
      refine (untold_forEach (fun _ => []) (untold_reportServiceChars b) svcs store).bind
        fun ls store' h => ?_
      rw [List.flatMap_eq_nil_iff.mpr fun _ _ => rfl] at h
      exact told_emitClientStatus (untold_answered rfl h)

/-- A command that reports what its one procedure has returned. -/
theorem told_emits {es : List ClientCallback} (q : ClientQuery) (a : q.Answer)
    (hq : isCharsFailure (.answered q a) = false) (hes : ∀ e ∈ es, e.isReport = true)
    (hitems : itemsOf b (.answered q a) = es) :
    (Dialogue.emits es (emitClientStatus op (q.endedWell a) handle store)).Ensures
      fun ls _ => StatusTold b (.answered q a :: ls) := by
  refine .emits (.emit (.ret (told_of_answered hq ?_ ?_)))
  · rw [hitems]
    exact untold_said hes
  · rw [List.any_map, List.any_eq_false]
    exact fun e he => Bool.false_ne_true

/-- A command that only tells how its one procedure has ended. -/
theorem told_written (q : ClientQuery) (a : q.Answer)
    (hq : isCharsFailure (.answered q a) = false) (hitems : itemsOf b (.answered q a) = []) :
    (emitClientStatus op (q.endedWell a) handle store).Ensures
      fun ls _ => StatusTold b (.answered q a :: ls) :=
  told_emits q a hq (by simp) hitems

variable (b store) in
/-- Each command tells of its run, whatever the procedures answer. -/
theorem told_clientOperation {o : ClientOp} (ho : answerOf o = some (op, handle)) :
    (clientOperation b store o).Ensures fun ls _ => StatusTold b ls := by
  cases o with
  | disconnect | ignored => cases ho
  | discoverServices =>
      refine .ask fun r => ?_
      cases r with
      | none => exact .emit (.emit (.ret ⟨.nil, _, rfl, .inl ⟨rfl, rfl⟩⟩))
      | some svcs =>
          refine told_emits .services (some svcs) rfl ?_ rfl
          exact List.forall_mem_map.mpr fun s _ => rfl
  | discover uuid => exact told_clientDiscover uuid
  | discoverAll => exact told_clientDiscoverAll
  | discoverDescriptors first last =>
      rw [clientOperation, clientDiscoverDescriptors]
      split
      · exact .emit (.ret ⟨.nil, _, rfl, .inl ⟨rfl, rfl⟩⟩)
      · refine .ask ?_
        rintro ⟨found, ok⟩
        refine told_emits (.findInformation first last) (found, ok) rfl ?_ rfl
        exact List.forall_mem_map.mpr fun d _ => rfl
  | readByUuid first last uuid =>
      refine .ask ?_
      rintro ⟨found, ok⟩
      refine told_emits (.readByType first last uuid) (found, ok) rfl ?_ rfl
      exact List.forall_mem_map.mpr fun d _ => rfl
  | read handle | readBlob handle offset =>
      refine .ask fun r => ?_
      cases r with
      | none => exact .emit (.emit (.ret ⟨.nil, _, rfl, .inl ⟨rfl, rfl⟩⟩))
      | some value => exact .emit (.emit (.ret ⟨.rfl, _, rfl, .inr ⟨rfl, rfl⟩⟩))
  | write handle bytes => exact .ask fun ok => told_written (.writeHandle handle bytes) ok rfl rfl
  | writeNoRsp handle bytes =>
      exact .ask fun ok => told_written (.writeHandleWithoutResponse handle bytes) ok rfl rfl
  -- what is written is the CCCD
  | subscribe _ | subscribeIndicate _ | unsubscribe _ =>
      exact .ask fun ok => told_written (.writeHandle _ _) ok rfl rfl

end Operations

/-! ## What the status says -/

theorem StatusTold.truthful_iff {b : Build} {ls : List ClientLine} (h : StatusTold b ls) :
    Truthful b ls ↔ ∀ s, Dialogue.Line.answered (.characteristics s) none ∉ ls := by
  obtain ⟨x, hx, hstatus⟩ := h.status
  constructor
  · intro htrue s hmem
    obtain ⟨y, hy, hfailed⟩ := htrue.failed ⟨_, hmem, rfl⟩
    cases List.cons.inj (hx.symm.trans hy) |>.1
    rcases hstatus with ⟨-, hnone⟩ | ⟨hok, -⟩
    · exact absurd rfl (List.any_eq_false.mp hnone _ hmem)
    · exact absurd (hok.symm.trans hfailed) (by decide)
  · intro hchars
    have htold : ∀ l ∈ ls, isFailure l = isToldFailure l := by
      intro l hl
      cases hdropped : isCharsFailure l with
      | false => rw [isToldFailure, hdropped, Bool.not_false, Bool.and_true]
      | true =>
          unfold isCharsFailure at hdropped
          split at hdropped
          · exact absurd hl (hchars _)
          · cases hdropped
    refine ⟨fun y hy hok => ?_, ?_⟩
    · rw [hx, List.mem_singleton] at hy
      subst hy
      rcases hstatus with ⟨hfailed, -⟩ | ⟨-, hnone⟩
      · exact absurd (hok.symm.trans hfailed) (by decide)
      · refine ⟨fun l hl => ?_, h.reports⟩
        rw [htold l hl]
        simpa using List.any_eq_false.mp hnone l hl
    · rintro ⟨l, hl, hfailure⟩
      refine ⟨x, hx, ?_⟩
      rcases hstatus with ⟨hfailed, -⟩ | ⟨-, hnone⟩
      · exact hfailed
      · exact absurd ((htold l hl).symm.trans hfailure) (List.any_eq_false.mp hnone l hl)

/-- **A client status tells the truth** in exactly the runs in which no
characteristic discovery of a service fails. -/
theorem status_truthful_iff (b : Build) (o : ClientOp) {store store' : ClientCharStore}
    {ls : List ClientLine} (h : (clientOperation b store o).Plays ls (.ret store')) :
    Truthful b ls ↔ ∀ s, Dialogue.Line.answered (.characteristics s) none ∉ ls := by
  cases ho : answerOf o with
  | some answer => exact (told_clientOperation b store ho ls store' h).truthful_iff
  | none =>
      -- no procedure, and no status
      have hnil : ls = [] := by
        cases o with
        | disconnect | ignored => exact (Dialogue.plays_ret h).1
        | _ => cases ho
      subst hnil
      have hnone : Truthful b [] := ⟨by simp, by simp⟩
      simp [hnone]

/-- The battery service. -/
def batteryService : ServiceHandle := { first := 0x10, last := 0x13, uuid := [0x0f, 0x18] }

/-- The Battery Level characteristic. -/
def batteryLevel : Characteristic :=
  { handle := 0x12, cccdHandle := some 0x13, uuid := [0x19, 0x2a], props := 0x12 }

/-- A peer with the battery service alone, which answers `chars` when it is
asked for the characteristics. -/
def batteryPeer (chars : Option (List Characteristic)) : (q : ClientQuery) → q.Answer
  | .services | .servicesByUuid _ => some [batteryService]
  | .characteristics _ => chars
  | .findInformation _ _ | .readByType _ _ _ => ([], true)
  | .readHandle _ | .readHandleBlob _ _ => some []
  | .writeHandle _ _ | .writeHandleWithoutResponse _ _ => true

/-- A discovery of a peer with the Battery service, whose characteristics come
or do not. -/
def discoverBattery (chars : Option (List Characteristic)) : List ClientLine :=
  ((clientOperation {} [] .discoverAll).run (batteryPeer chars)).1

theorem status_truthful_battery : Truthful {} (discoverBattery (some [batteryLevel])) := by
  apply (status_truthful_iff {} .discoverAll (Dialogue.plays_run _ _)).mpr
  have hnone : (discoverBattery (some [batteryLevel])).any isCharsFailure = false := rfl
  exact fun s hs => List.any_eq_false.mp hnone _ hs rfl

/-- Characteristic discovery fails, and `discover_all` says that all is
well. -/
theorem status_untrue :
    (discoverBattery none).filterMap statusOf
        = [{ op := clientOpDiscoverAll, status := clientStatusOk, handle := 0 }]
      ∧ (discoverBattery none).any isFailure = true ∧ ¬ Truthful {} (discoverBattery none) := by
  refine ⟨rfl, rfl, fun htrue => ?_⟩
  obtain ⟨x, hx, hfailed⟩ := htrue.failed (List.any_eq_true.mp rfl)
  cases hx
  cases hfailed

end RuntimeBle.Client
