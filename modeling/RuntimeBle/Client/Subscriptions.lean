import Mathlib.Algebra.Ring.Nat
import RuntimeBle.Client.Status
import RuntimeBle.Lib.Bounded

/-!
# Client — Subscriptions

The characteristics that discovery has stored, and the CCCD that a
subscription writes. The store takes every report, the repeated ones too,
until it is full, and the first entry of a handle is the one that is found.
A handle with no CCCD, or not found, has the next handle written.
-/

namespace RuntimeBle.Client

open RuntimeBle.Lib RuntimeBle.Request

/-! ## The commands of a connection -/

/-- The commands that the pump takes, one after another. -/
def clientCommands (b : Build) (os : List ClientOp) : ClientDialogue :=
  Dialogue.forEach os [] fun o store => clientOperation b store o

/-- The handle and the CCCD of each characteristic that a procedure has
returned. -/
def charsOf : ClientLine → List (UInt16 × Option UInt16)
  | .answered (.characteristics _) (some chars) => chars.map fun c => (c.handle, c.cccdHandle)
  | _ => []

/-- The characteristics that a transcript comes to know. -/
def discoveredIn (ls : List ClientLine) : List (UInt16 × Option UInt16) := ls.flatMap charsOf

/-- The store after a part of a run. -/
def Gathers (store : ClientCharStore) (ls : List ClientLine) (store' : ClientCharStore) : Prop :=
  store' = (discoveredIn ls).foldl (pushBounded clientCharCap) store

section Store

variable {b : Build} {store : ClientCharStore}

theorem discoveredIn_cons (l : ClientLine) (ls : List ClientLine) :
    discoveredIn (l :: ls) = charsOf l ++ discoveredIn ls := List.flatMap_cons

theorem discoveredIn_append (ls ls' : List ClientLine) :
    discoveredIn (ls ++ ls') = discoveredIn ls ++ discoveredIn ls' := List.flatMap_append

theorem discoveredIn_said (es : List ClientCallback) :
    discoveredIn (es.map .said) = [] := by
  rw [discoveredIn, List.flatMap_map]
  exact List.flatMap_eq_nil_iff.mpr fun e _ => rfl

theorem Gathers.append {store' store'' : ClientCharStore} {ls ls' : List ClientLine}
    (h : Gathers store ls store') (h' : Gathers store' ls' store'') :
    Gathers store (ls ++ ls') store'' := by
  rw [Gathers, discoveredIn_append, List.foldl_append, ← h]
  exact h'

theorem gathers_forEach {α : Type} {body : α → ClientCharStore → ClientDialogue}
    (hbody : ∀ x store, (body x store).Ensures (Gathers store)) (xs : List α)
    (store : ClientCharStore) : (Dialogue.forEach xs store body).Ensures (Gathers store) := by
  refine Dialogue.Ensures.forEach (fun _ => Gathers store) rfl ?_
  intro _ x _ ls store' _ h
  exact (hbody x store').mono fun ls' store'' h' => h.append h'

/-- The characteristics of one service, each pushed as it is reported. -/
theorem gathers_chars (chars : List Characteristic) (store : ClientCharStore) :
    (Dialogue.forEach chars store fun c store =>
        (.emit (reportChar c) (.ret (pushChar store c)) : ClientDialogue)).Ensures
      fun ls store' => discoveredIn ls = [] ∧
        store' = (chars.map fun c => (c.handle, c.cccdHandle)).foldl (pushBounded clientCharCap)
          store := by
  refine Dialogue.Ensures.forEach
    (fun done ls store' => discoveredIn ls = [] ∧
      store' = (done.map fun c : Characteristic => (c.handle, c.cccdHandle)).foldl
        (pushBounded clientCharCap) store)
    ⟨rfl, rfl⟩ ?_
  rintro done c _ ls store' - ⟨hnone, hstore⟩
  refine .emit (.ret ⟨?_, ?_⟩)
  · rw [discoveredIn_append, hnone]
    rfl
  · rw [List.map_append, List.foldl_append, ← hstore]
    rfl

theorem gathers_reportServiceChars (s : ServiceHandle) (store : ClientCharStore) :
    (reportServiceChars s store).Ensures (Gathers store) := by
  refine .ask fun r => ?_
  cases r with
  | none => exact .ret rfl
  | some chars =>
      refine (gathers_chars chars store).mono fun ls store' h => ?_
      rw [Gathers, h.2, discoveredIn_cons, h.1, List.append_nil]
      rfl

theorem Gathers.status {store' : ClientCharStore} {ls : List ClientLine}
    (h : Gathers store ls store') {op : UInt8} {ok : Bool} {handle : UInt16} :
    (emitClientStatus op ok handle store').Ensures fun ls' => Gathers store (ls ++ ls') :=
  .emit (.ret (h.append (by rfl)))

/-- A command that is through with its one procedure. -/
theorem gathers_emits {es : List ClientCallback} {op : UInt8} {handle : UInt16} {ok : Bool}
    {q : ClientQuery} {a : q.Answer} (hq : charsOf (.answered q a) = []) :
    (Dialogue.emits es (emitClientStatus op ok handle store)).Ensures
      fun ls store' => Gathers store (.answered q a :: ls) store' := by
  refine .emits (.emit (.ret ?_))
  rw [Gathers, discoveredIn_cons, hq, discoveredIn_append, discoveredIn_said]
  rfl

/-- Each command pushes what it has discovered. -/
theorem gathers_clientOperation (o : ClientOp) (store : ClientCharStore) :
    (clientOperation b store o).Ensures (Gathers store) := by
  cases o with
  | disconnect | ignored => exact .ret rfl
  | discoverServices =>
      refine .ask fun r => ?_
      cases r with
      | none => exact .emit (.emit (.ret rfl))
      | some svcs => exact gathers_emits rfl
  | discover uuid =>
      refine .ask fun r => ?_
      cases r with
      | none => exact .emit (.emit (.ret rfl))
      | some svcs =>
          exact (gathers_forEach gathers_reportServiceChars svcs store).bind fun _ _ h => h.status
  | discoverAll =>
      refine .ask fun r => ?_
      cases r with
      | none => exact .emit (.emit (.ret rfl))
      | some svcs =>
          have hround : ∀ (s : ServiceHandle) (store : ClientCharStore),
              (Dialogue.emit (reportService s) (reportServiceChars s store)).Ensures
                (Gathers store) :=
            fun s store => .emit (gathers_reportServiceChars s store)
          exact (gathers_forEach hround svcs store).bind fun _ _ h => h.status
  | discoverDescriptors first last =>
      rw [clientOperation, clientDiscoverDescriptors]
      split
      · exact .emit (.ret rfl)
      · exact .ask fun r => gathers_emits rfl
  | readByUuid first last uuid => exact .ask fun r => gathers_emits rfl
  | read handle | readBlob handle offset =>
      refine .ask fun r => ?_
      cases r <;> exact .emit (.emit (.ret rfl))
  | write _ _ | writeNoRsp _ _ | subscribe _ | subscribeIndicate _ | unsubscribe _ =>
      exact .ask fun r => .emit (.ret rfl)

/-- **The store holds the first reports**, as many as fit. -/
theorem store_of_plays {os : List ClientOp} {ls : List ClientLine}
    (h : (clientCommands b os).Plays ls (.ret store)) :
    store = (discoveredIn ls).take clientCharCap := by
  have hgathers := gathers_forEach (fun o store => gathers_clientOperation o store) os [] ls store h
  rw [hgathers, foldl_pushBounded _ (Nat.zero_le _), List.nil_append]

end Store

/-! ## The property -/

/-- The handle of a command that writes a CCCD. -/
def subscribed : ClientOp → Option UInt16
  | .subscribe handle | .subscribeIndicate handle | .unsubscribe handle => some handle
  | _ => none

/-- `h + 1` where overflow is an error. -/
def checkedSucc (handle : UInt16) : Option UInt16 :=
  if handle.toNat + 1 < 2 ^ 16 then some (handle + 1) else none

/-- `cccdFor` where overflow is an error. `unwrap_or` takes a value: the next
handle is computed whether it is needed or not. -/
def cccdChecked (store : ClientCharStore) (handle : UInt16) : Option UInt16 :=
  (checkedSucc handle).map fun next =>
    ((store.find? fun c => c.1 == handle).bind (·.2)).getD next

/-- The handle that a line writes to, if it writes. -/
def writeOf : ClientLine → Option UInt16
  | .answered (.writeHandle handle _) _ => some handle
  | .answered (.writeHandleWithoutResponse handle _) _ => some handle
  | _ => none

/-- The CCCD of the last report of a handle. -/
def mostRecent (reports : List (UInt16 × Option UInt16)) (handle : UInt16) :
    Option (Option UInt16) :=
  (reports.reverse.find? fun c => c.1 == handle).map (·.2)

/-- What a subscription to `handle` is to do, behind `reports`. -/
structure TargetsCccd (reports : List (UInt16 × Option UInt16)) (store : ClientCharStore)
    (handle : UInt16) (ls : List ClientLine) : Prop where
  cccd : ∀ c, mostRecent reports handle = some (some c) → ls.filterMap writeOf = [c]
  noCccd : mostRecent reports handle = some none → ls.filterMap writeOf = [] ∧
    ∃ x, ls.filterMap statusOf = [x] ∧ x.status = clientStatusFailed
  computed : ∃ c, cccdChecked store handle = some c ∧ c ≠ 0

/-! ## When it does -/

/-- The CCCD of the first report of a handle among those that fit into the
store. -/
def firstStored (reports : List (UInt16 × Option UInt16)) (handle : UInt16) :
    Option (Option UInt16) :=
  ((reports.take clientCharCap).find? fun c => c.1 == handle).map (·.2)

/-- The handle has a next one, and it has not been reported; or its last
report has a CCCD, the same as the first that is stored, and where none is
stored the next handle. -/
def Subscribable (reports : List (UInt16 × Option UInt16)) (handle : UInt16) : Prop :=
  handle ≠ 0xffff ∧
    match mostRecent reports handle with
    | none => True
    | some none => False
    | some (some c) => c ≠ 0 ∧
        match firstStored reports handle with
        | some (some first) => first = c
        | some none | none => c = handle + 1

section Target

variable {b : Build} {store : ClientCharStore} {handle : UInt16}
  {reports : List (UInt16 × Option UInt16)}

theorem checkedSucc_eq :
    checkedSucc handle = if handle = 0xffff then none else some (handle + 1) := by
  have hlt : handle.toNat < 65536 := handle.toNat_lt
  have hmax : handle = 0xffff ↔ handle.toNat = 65535 := by
    rw [← UInt16.toNat_inj]
    rfl
  unfold checkedSucc
  split
  · rename_i hroom
    rw [if_neg (by rw [hmax]; omega)]
  · rename_i hover
    rw [if_pos (by rw [hmax]; omega)]

theorem succ_ne_zero (h : handle ≠ 0xffff) : handle + 1 ≠ 0 := by
  intro hzero
  have hmax : handle + 1 - 1 = 0 - 1 := congrArg (· - 1) hzero
  rw [UInt16.add_sub_cancel] at hmax
  exact h hmax

theorem cccdChecked_eq_some {c : UInt16} :
    cccdChecked store handle = some c ↔ handle ≠ 0xffff ∧ cccdFor store handle = c := by
  rw [cccdChecked, checkedSucc_eq]
  split
  · rename_i hmax
    simp [hmax]
  · rename_i hne
    simp [hne, cccdFor]

/-- The CCCD that is written, by the first report that is stored. -/
theorem cccdFor_take : cccdFor (reports.take clientCharCap) handle
    = ((firstStored reports handle).bind id).getD (handle + 1) := by
  unfold cccdFor firstStored
  cases (reports.take clientCharCap).find? fun c => c.1 == handle <;> rfl

theorem firstStored_eq_none (h : mostRecent reports handle = none) :
    firstStored reports handle = none := by
  rw [mostRecent, Option.map_eq_none_iff, List.find?_eq_none] at h
  rw [firstStored, Option.map_eq_none_iff, List.find?_eq_none]
  intro c hc
  exact h c (List.mem_reverse.mpr (List.mem_of_mem_take hc))

/-- A subscription writes the CCCD that is computed, and nothing else. -/
theorem writes_of_plays {o : ClientOp} (ho : subscribed o = some handle) {ls : List ClientLine}
    {store' : ClientCharStore} (h : (clientOperation b store o).Plays ls (.ret store')) :
    ls.filterMap writeOf = [cccdFor store handle] := by
  have hwrites : ∀ (op : UInt8) (value : List UInt8),
      (clientWriteCccd op value handle store).Ensures
        fun ls _ => ls.filterMap writeOf = [cccdFor store handle] :=
    fun op value => .ask fun ok => .emit (.ret rfl)
  cases o <;> cases ho <;> exact hwrites _ _ ls store' h

/-- Only the CCCD of the last report is written, where there is one. -/
theorem getD_firstStored_eq {c : UInt16} :
    ((firstStored reports handle).bind id).getD (handle + 1) = c
      ↔ match firstStored reports handle with
        | some (some first) => first = c
        | some none | none => c = handle + 1 := by
  cases firstStored reports handle with
  | none => exact eq_comm
  | some cccd =>
      cases cccd with
      | none => exact eq_comm
      | some first => exact Iff.rfl

end Target

/-- **A subscription targets the right CCCD** in exactly these cases. -/
theorem subscription_targets_iff (b : Build) (os : List ClientOp) {o : ClientOp}
    {handle : UInt16} (ho : subscribed o = some handle) {ls ls' : List ClientLine}
    {store store' : ClientCharStore} (h : (clientCommands b os).Plays ls (.ret store))
    (h' : (clientOperation b store o).Plays ls' (.ret store')) :
    TargetsCccd (discoveredIn ls) store handle ls' ↔ Subscribable (discoveredIn ls) handle := by
  have hstore : cccdFor store handle
      = ((firstStored (discoveredIn ls) handle).bind id).getD (handle + 1) := by
    rw [store_of_plays h, cccdFor_take]
  have hwrites := writes_of_plays ho h'
  constructor
  · rintro ⟨hcccd, hno, c, hc, hc0⟩
    obtain ⟨hne, rfl⟩ := cccdChecked_eq_some.mp hc
    refine ⟨hne, ?_⟩
    cases hrecent : mostRecent (discoveredIn ls) handle with
    | none => trivial
    | some cccd =>
        cases cccd with
        | none =>
            -- without a CCCD nothing is to be written, but something is
            rw [(hno hrecent).1] at hwrites
            cases hwrites
        | some c =>
            -- what is written is what was reported last, so that is what the store has
            rw [hcccd c hrecent, List.cons.injEq] at hwrites
            rw [← hwrites.1] at hc0
            exact ⟨hc0, getD_firstStored_eq.mp (hstore.symm.trans hwrites.1.symm)⟩
  · rintro ⟨hne, hcond⟩
    cases hrecent : mostRecent (discoveredIn ls) handle with
    | none =>
        -- never reported: the next handle is guessed
        have hnext : cccdFor store handle = handle + 1 := by
          rw [hstore, firstStored_eq_none hrecent]
          rfl
        refine ⟨fun c hc => ?_, fun hc => ?_, _, cccdChecked_eq_some.mpr ⟨hne, hnext⟩,
          succ_ne_zero hne⟩
        · rw [hrecent] at hc
          cases hc
        · rw [hrecent] at hc
          cases hc
    | some cccd =>
        rw [hrecent] at hcond
        cases cccd with
        | none => exact hcond.elim
        | some c =>
            have hc : cccdFor store handle = c := hstore.trans (getD_firstStored_eq.mpr hcond.2)
            refine ⟨fun c' hc' => ?_, fun hc' => ?_, c, cccdChecked_eq_some.mpr ⟨hne, hc⟩, hcond.1⟩
            · rw [hrecent] at hc'
              cases hc'
              rw [hwrites, hc]
            · rw [hrecent] at hc'
              cases hc'

/-- A peer with a service for each UUID, with the characteristics `chars`. -/
def peerWith (chars : List UInt8 → List (UInt16 × Option UInt16)) :
    (q : ClientQuery) → q.Answer
  | .services => some []
  | .servicesByUuid uuid => some [{ first := 1, last := 0x20, uuid }]
  | .characteristics s => some ((chars s.uuid).map fun (handle, cccdHandle) =>
      { handle, cccdHandle, uuid := [0x37, 0x2a], props := 0x10 })
  | .findInformation _ _ | .readByType _ _ _ => ([], true)
  | .readHandle _ | .readHandleBlob _ _ => some []
  | .writeHandle _ _ | .writeHandleWithoutResponse _ _ => true

/-- A history of commands against the peer: the transcript, and what is stored
at its end. -/
def discovery (chars : List UInt8 → List (UInt16 × Option UInt16)) (os : List ClientOp) :
    List ClientLine × ClientCharStore :=
  (clientCommands {} os).run (peerWith chars)

/-- A subscription behind it. -/
def subscription (chars : List UInt8 → List (UInt16 × Option UInt16)) (os : List ClientOp)
    (handle : UInt16) : List ClientLine :=
  ((clientOperation {} (discovery chars os).2 (.subscribe handle)).run (peerWith chars)).1

/-- It writes to the CCCD of the characteristic. -/
def SubscribesTo (chars : List UInt8 → List (UInt16 × Option UInt16)) (os : List ClientOp)
    (handle : UInt16) : Prop :=
  TargetsCccd (discoveredIn (discovery chars os).1) (discovery chars os).2 handle
    (subscription chars os handle)

/-- A characteristic with its CCCD behind its user description. -/
theorem subscription_targets_described :
    SubscribesTo (fun _ => [(3, some 5)]) [.discover [0x0d, 0x18]] 3 :=
  (subscription_targets_iff {} [.discover [0x0d, 0x18]] rfl (Dialogue.plays_run _ _)
    (Dialogue.plays_run _ _)).mpr ⟨by decide, by decide, rfl⟩

set_option maxRecDepth 4096 in
/-- Subscriptions go astray: to a characteristic without a CCCD, to one that
is found when the same has filled the store, to one whose CCCD has changed,
and to the last handle. -/
theorem subscription_astray :
    (subscription (fun _ => [(3, none)]) [.discover [1]] 3).filterMap writeOf = [4]
      ∧ ¬ SubscribesTo (fun _ => [(3, none)]) [.discover [1]] 3
    ∧ ¬ SubscribesTo (fun uuid => if uuid = [1] then [(3, some 4)] else [(10, some 12)])
        (List.replicate 32 (.discover [1]) ++ [.discover [2]]) 10
    ∧ ¬ SubscribesTo (fun uuid => if uuid = [1] then [(3, some 4)] else [(3, some 5)])
        [.discover [1], .discover [2]] 3
    ∧ ¬ SubscribesTo (fun _ => []) [] 0xffff := by
  refine ⟨rfl, fun h => ?_, fun h => ?_, fun h => ?_, fun h => ?_⟩
  · cases (h.noCccd rfl).1
  · exact absurd (h.cccd 12 (by decide)) (by decide)
  · exact absurd (h.cccd 5 (by decide)) (by decide)
  · obtain ⟨c, hc, -⟩ := h.computed
    cases hc

end RuntimeBle.Client
