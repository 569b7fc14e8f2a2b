import RuntimeBle.Client.Operations
import RuntimeBle.Lib.History
import RuntimeBle.Request.Preemption

/-!
# Client — Answers

The central role as the consumer of `CENTRAL_CMD`: the three loops that take
commands out of the slot, and what becomes of a GATT client command in each.

The calls are those of any threads, and they and the loops go access by
access through the slots, as in `Request.mailbox`: a call may come between
the `swap` of a command and the reads of its parameters. The log of a state
is what has happened, the newest first.
-/

namespace RuntimeBle.Client

open RuntimeBle.Lib RuntimeBle.Request

/-! ## The central role -/

/-- The loops that take commands: `wait_idle_cmd`, `run_scan` and the
command pump of `client_session`. -/
inductive Place where
  | idle
  | scanning
  | client
deriving DecidableEq

/-- Which of them a consumer is. -/
def placeOf : Consumer → Option Place
  | .waitIdle => some .idle
  | .runScan => some .scanning
  | .clientSession => some .client
  | _ => none

/-- `ended`: the operation has come to its end, and the pump sleeps.
`dropped`: the link has, or unload is seen, and `client_session` is dropped. -/
inductive CentralEvent where
  | taken (place : Place) (a : ApiCall)
  | called (cb : ClientCallback)
  | ended
  | dropped
deriving DecidableEq

/-- `away`: nothing takes commands, as while `central_loop` connects. The
pump of a link is before its `swap` or at the reads behind it, in an
operation, or in its 20 ms. -/
inductive CentralPc where
  | away
  | idle
  | scanning
  | polling (store : ClientCharStore)
  | working (left : ClientDialogue)
  | sleeping (store : ClientCharStore)

/-- The loop that is at its polls. -/
def CentralPc.place : CentralPc → Option Place
  | idle => some .idle
  | scanning => some .scanning
  | polling _ => some .client
  | away | working _ | sleeping _ => none

/-- `mail` are the slots with their parameters, the calls under way, and the
reads for a command that has been taken. -/
structure Central (T : Type) where
  mail : ReqState T
  pc : CentralPc := .away
  log : List CentralEvent := []

/-- `access`: of a call, or of a loop that takes commands. `toIdle`:
`central_loop` comes to `wait_idle_cmd` by itself, as when a connect fails or
a scan ends; `leave`: it returns for unload. `pass`: the pump finds nothing. -/
inductive CentralLabel (T : Type) where
  | access (l : Mailbox.Label Slot ApiCall Consumer T)
  | toIdle
  | leave
  | linkUp
  | pass
  | answer (f : (q : ClientQuery) → q.Answer)
  | wake
  | drop

section Step

variable {T : Type} (b : Build) (isValid : RequestedConnParams → Bool)

/-- An operation goes on to its next question, or to its end. -/
def Central.proceed (s : Central T) (d : ClientDialogue) : Central T :=
  let log := (d.flush.1.map .called).reverse ++ s.log
  match d.flush.2 with
  | .ret store => { s with pc := .sleeping store, log := .ended :: log }
  | left => { s with pc := .working left, log }

/-- What a loop does with a command, once its parameters are read. -/
def Central.carryOut (s : Central T) (o : Outcome) : Central T :=
  match s.pc, o with
  | .idle, .idle (.connect _) => { s with pc := .away }
  | .idle, .idle (.scan _) => { s with pc := .scanning }
  | .scanning, .scan .stop | .scanning, .scan (.connect _) => { s with pc := .away }
  | .polling store, .client op => s.proceed (clientOperation b store op)
  -- dropped
  | _, _ => s

/-- The central behind an access; `mail` is what the access leaves. -/
def Central.behind (s : Central T) (mail : ReqState T) :
    Mailbox.Label Slot ApiCall Consumer T → Option (Central T)
  | .take k =>
      match placeOf k, mail.reader with
      | some place, some rd =>
          if s.pc.place = some place then
            some { s with mail, log := .taken place rd.req :: s.log }
          else none
      | _, _ => some { s with mail }
  | .finish =>
      match s.mail.reader with
      | some ⟨k, _, .done o⟩ =>
          match placeOf k with
          | some _ => some (Central.carryOut b { s with mail } o)
          | none => some { s with mail }
      | _ => none
  | _ => some { s with mail }

/-- What goes on at the awaits of the runtime thread. -/
def Central.turn (s : Central T) : CentralLabel T → Option (Central T)
  | .access _ => none
  | .toIdle =>
      match s.pc with
      | .away | .scanning => some { s with pc := .idle }
      | _ => none
  | .leave =>
      match s.pc with
      | .idle | .scanning => some { s with pc := .away }
      | _ => none
  | .linkUp =>
      match s.pc with
      | .away => some { s with pc := .polling [] }
      | _ => none
  | .pass =>
      match s.pc with
      | .polling store =>
          if s.mail.word .centralCmd = 0 then some { s with pc := .sleeping store } else none
      | _ => none
  | .answer f =>
      match s.pc with
      | .working (.ask q next) => some (s.proceed (next (f q)))
      | _ => none
  | .wake =>
      match s.pc with
      | .sleeping store => some { s with pc := .polling store }
      | _ => none
  | .drop =>
      match s.pc with
      | .polling _ | .working _ | .sleeping _ =>
          some { s with pc := .away, log := .dropped :: s.log }
      | _ => none

variable [DecidableEq T]

/-- There is no await between the `swap` of a command and the reads behind it. -/
def centralStep (s : Central T) : CentralLabel T → Option (Central T)
  | .access l => ((mailbox b isValid).step s.mail l).bind fun mail => s.behind b mail l
  | l => if s.mail.reader.isNone then s.turn l else none

/-- The central and its mailbox, from where nothing is under way. -/
def central (T : Type) [DecidableEq T] : Machine (Central T) (CentralLabel T) where
  init s := s.mail.Idle ∧ s.pc = .away ∧ s.log = []
  step := centralStep b isValid

/-- No write of a call changes what the pump is still to read for the command
in the slot, or for the one it has taken, nor what another call has written. -/
def ParametersKept (s : Central T) : CentralLabel T → Prop
  | .access l => Mailbox.Undisturbed (mailbox b isValid) (· = .clientSession) s.mail l
  | _ => True

end Step

/-! ## What the log tells of a command -/

namespace CentralEvent

/-- A command is taken. -/
def isTaken : CentralEvent → Bool
  | taken _ _ => true
  | _ => false

/-- The command that is taken, and where. -/
def command : CentralEvent → Option (Place × ApiCall)
  | taken place a => some (place, a)
  | _ => none

/-- The status that is told, if one is. -/
def status : CentralEvent → Option ClientStatus
  | called cb => cb.status
  | _ => none

end CentralEvent

/-- The calls of `on_client_status` in the log. -/
def statuses (log : List CentralEvent) : List ClientStatus := log.filterMap CentralEvent.status

/-- The command taken last, and what has happened since. -/
def lastCommand (log : List CentralEvent) : Option (Place × ApiCall) :=
  log.findSome? CentralEvent.command

/-- What happened for the last command. -/
def sinceTaken (log : List CentralEvent) : List CentralEvent := since CentralEvent.isTaken log

/-- The op code, and where `exact` holds the handle too. -/
def ClientStatus.Fits (exact : Prop) (op : UInt8) (handle : UInt16) (x : ClientStatus) : Prop :=
  x.op = op ∧ (exact → x.handle = handle)

/-- What is told of a command in `mid`, the events since it was taken: in
`client_session` one status at most, which fits it, and one if its operation
has ended; elsewhere none. -/
structure Told (exact : Prop) (place : Place) (op : UInt8) (handle : UInt16)
    (mid : List CentralEvent) : Prop where
  dropped : place ≠ .client → statuses mid = []
  answered : place = .client → .ended ∈ mid → ∃ x, x.Fits exact op handle ∧ statuses mid = [x]
  once : place = .client → statuses mid = [] ∨ ∃ x, x.Fits exact op handle ∧ statuses mid = [x]

section Log

variable {log : List CentralEvent} {e : CentralEvent} {mid : List CentralEvent}

theorem command_of_not_isTaken (h : e.isTaken = false) : e.command = none := by
  cases e <;> first | rfl | cases h

theorem lastCommand_append (hmid : ∀ e ∈ mid, e.isTaken = false) :
    lastCommand (mid ++ log) = lastCommand log := by
  have hnone : mid.findSome? CentralEvent.command = none :=
    List.findSome?_eq_none_iff.mpr fun e he => command_of_not_isTaken (hmid e he)
  rw [lastCommand, List.findSome?_append, hnone]
  rfl

theorem statuses_append (log' : List CentralEvent) :
    statuses (log ++ log') = statuses log ++ statuses log' :=
  List.filterMap_append

/-- The callbacks of an operation in the log. -/
theorem statuses_called (cbs : List ClientCallback) :
    statuses (cbs.map CentralEvent.called).reverse
      = (cbs.filterMap ClientCallback.status).reverse := by
  rw [statuses, List.filterMap_reverse, List.filterMap_map]
  rfl

theorem not_isTaken_called {cbs : List ClientCallback} :
    ∀ e ∈ (cbs.map CentralEvent.called).reverse, e.isTaken = false := by
  intro e he
  obtain ⟨cb, -, rfl⟩ := List.mem_map.mp (List.mem_reverse.mp he)
  rfl

end Log

/-! ## The command is the call's -/

section Command

variable {b : Build} {isValid : RequestedConnParams → Bool} {T : Type} [DecidableEq T]
  {exact : Prop}

/-- A command alone decides on the op code, whatever is read for it. -/
theorem op_of_yields {cmd : Nat} {o o' : ClientOp} (h : (clientSession b cmd).Yields o)
    (h' : (clientSession b cmd).Yields o') :
    (answerOf o).map Prod.fst = (answerOf o').map Prod.fst := by
  have huuid : ∀ {len : Nat} {op : List UInt8 → ClientOp} {o : ClientOp},
      (readUuid len fun u => .done (op u)).Yields o → ∃ u, o = op u := by
    intro len op o ho
    obtain ⟨u, hu⟩ := yields_readUuid ho
    exact ⟨u, Fetch.yields_done.mp hu⟩
  unfold clientSession at h h'
  split at h
  case h_3 =>
    obtain ⟨len, h⟩ := Fetch.yields_load.mp h
    obtain ⟨len', h'⟩ := Fetch.yields_load.mp h'
    obtain ⟨u, rfl⟩ := huuid h
    obtain ⟨u', rfl⟩ := huuid h'
    rfl
  case h_6 =>
    simp only [Fetch.yields_load] at h h'
    obtain ⟨packed, len, h⟩ := h
    obtain ⟨packed', len', h'⟩ := h'
    obtain ⟨u, rfl⟩ := huuid h
    obtain ⟨u', rfl⟩ := huuid h'
    rfl
  all_goals
    simp only [clientWritePayload, Fetch.yields_load, Fetch.yields_read, Fetch.yields_done]
      at h h'
    grind [answerOf]

/-- What is being read for is a command of the call. -/
structure Named (b : Build) (isValid : RequestedConnParams → Bool) (σ : ReqState T) : Prop
    extends Mailbox.WellFormed (mailbox b isValid) σ where
  reading : ∀ rd, σ.reader = some rd → rd.consumer = .clientSession →
    ∀ o, rd.fetch.Yields o → ∃ op, o = .client op ∧
      (answerOf op).map Prod.fst = (answerOf (clientAsks b rd.req)).map Prod.fst

theorem Named.idle {σ : ReqState T} (h : σ.Idle) : Named b isValid σ where
  toWellFormed := .idle h
  reading rd hrd := by rw [h.reader] at hrd; cases hrd

/-- A command is taken, with all its parameters still to read. -/
theorem reading_of_take {a : ApiCall} {c : ReqCall} (hcall : (mailbox b isValid).call a = some c)
    (hslot : c.slot = Slot.centralCmd) {o : Outcome}
    (ho : ((mailbox b isValid).handle .clientSession c.cmd).Yields o) :
    ∃ op, o = .client op ∧
      (answerOf op).map Prod.fst = (answerOf (clientAsks b a)).map Prod.fst := by
  have hentry := mailbox_call.mp hcall
  obtain ⟨op, hop, rfl⟩ := Fetch.yields_map.mp ho
  have hslot' : a.slot = .centralCmd := (call_spec hentry).2.2.1.symm.trans hslot
  -- what the call itself would leave to be read
  have hasks := Fetch.yields_eval (Params.puts bootMem.params (c.early ++ c.late))
    (clientSession b c.cmd)
  rw [handover_client hentry hslot'] at hasks
  exact ⟨op, rfl, op_of_yields hop hasks⟩

theorem Named.step {σ σ' : ReqState T} {l : Mailbox.Label Slot ApiCall Consumer T}
    (h : Named b isValid σ) (hs : Mailbox.Steps (mailbox b isValid) σ l σ') :
    Named b isValid σ' := by
  have hwf := h.toWellFormed.steps hs
  cases hs with
  | enter | put | publish | refuse | pass | discard => exact ⟨hwf, h.reading⟩
  | takeFreeing hreader hq hholds | takeHolding hreader hq hholds =>
      refine ⟨hwf, ?_⟩
      intro rd hrd hconsumer o ho
      cases hrd
      cases hconsumer
      obtain ⟨c, hcall, hslot, hcmd⟩ := h.queued _ _ hq
      rw [← hcmd] at ho
      exact reading_of_take hcall hslot ho
  | read hreader =>
      refine ⟨hwf, ?_⟩
      intro rd hrd hconsumer o ho
      cases hrd
      exact h.reading _ hreader hconsumer o ho.of_step
  | finishFreed | finishFreeing =>
      refine ⟨hwf, ?_⟩
      intro rd hrd
      cases hrd

/-- What the pump has read for a command is of its call: the op code always,
and where `exact` holds the handle too. -/
def Carries (b : Build) (exact : Prop) (σ : ReqState T) : Prop :=
  ∀ a o, σ.reader = some ⟨.clientSession, a, .done o⟩ → ∃ op, o = .client op ∧
    ∀ code handle, answerOf (clientAsks b a) = some (code, handle) →
      ∃ handle', answerOf op = some (code, handle') ∧ (exact → handle' = handle)

theorem carries_of_reach {σ : ReqState T}
    (h : ((mailbox b isValid).machine T).Reach
      (fun σ l => exact → Mailbox.Undisturbed (mailbox b isValid) (· = .clientSession) σ l) σ) :
    Carries b exact σ := by
  intro a o hreader
  have hnamed : Named b isValid σ := by
    refine Machine.Reach.invariant (P := Named b isValid) (fun _ => .idle) ?_ h
    intro σ l σ' hinv _ hs
    exact hinv.step (Mailbox.steps_of_step hs)
  obtain ⟨op, rfl, hop⟩ := hnamed.reading _ hreader rfl o .done
  refine ⟨op, rfl, fun code handle hasks => ?_⟩
  rw [hasks] at hop
  obtain ⟨⟨_, handle'⟩, ho, heq⟩ := Option.map_eq_some_iff.mp hop
  cases heq
  refine ⟨handle', ho, fun hexact => ?_⟩
  have hreach := h.mono fun _ _ hok => hok hexact
  have hfaithful := Mailbox.faithful_of_reach (mailbox_lawful b isValid) hreach
  have hsame : Outcome.client op = .client (clientAsks b a) := hfaithful.reading _ rfl hreader
  cases hsame
  rw [hasks] at ho
  cases ho
  rfl

end Command

/-! ## The invariant -/

section Invariant

variable {b : Build} {isValid : RequestedConnParams → Bool} {T : Type} {exact : Prop}
  {s t : Central T} {log : List CentralEvent}

/-- `Told` of the command taken last. -/
def LastTold (b : Build) (exact : Prop) (log : List CentralEvent) : Prop :=
  ∀ place a op handle, lastCommand log = some (place, a) →
    answerOf (clientAsks b a) = some (op, handle) →
    Told exact place op handle (sinceTaken log)

/-- The command taken last is not under way. -/
def LastOver (log : List CentralEvent) : Prop :=
  ∀ a, lastCommand log = some (.client, a) →
    .ended ∈ sinceTaken log ∨ .dropped ∈ sinceTaken log

/-- `d` has one status left, which fits. -/
abbrev OnceFits (exact : Prop) (op : UInt8) (handle : UInt16) (d : ClientDialogue) : Prop :=
  d.Once ClientCallback.status (ClientStatus.Fits exact op handle)

/-- The command taken last is under way, with `d` left to do: it has its
status, or this is still to come. -/
def LastWorking (b : Build) (exact : Prop) (log : List CentralEvent) (d : ClientDialogue) :
    Prop :=
  ∃ a, lastCommand log = some (.client, a) ∧ .ended ∉ sinceTaken log ∧
    ∀ op handle, answerOf (clientAsks b a) = some (op, handle) →
      (statuses (sinceTaken log) = [] ∧ OnceFits exact op handle d)
      ∨ ∃ x, x.Fits exact op handle ∧ statuses (sinceTaken log) = [x] ∧ Silent d

/-- The command that one of the three loops is at the reads for. -/
def readsOf (mail : ReqState T) : Option (Place × ApiCall) :=
  mail.reader.bind fun rd => (placeOf rd.consumer).map fun place => (place, rd.req)

/-- The invariant: commands are over one behind the other, and what the last
one has come to fits the place the session is at. -/
structure Answering (b : Build) (exact : Prop) (s : Central T) : Prop where
  -- what is being read for has been taken last, and nothing has come of it
  reading : ∀ place a, readsOf s.mail = some (place, a) →
    s.pc.place = some place ∧ lastCommand s.log = some (place, a) ∧ sinceTaken s.log = []
  before : EachEvent (fun e log => e.isTaken = true → LastTold b exact log ∧ LastOver log) s.log
  now : LastTold b exact s.log
  working : ∀ d, s.pc = .working d → LastWorking b exact s.log d
  resting : (∀ d, s.pc ≠ .working d) → readsOf s.mail = none → LastOver s.log

theorem LastWorking.told {d : ClientDialogue} (h : LastWorking b exact log d) :
    LastTold b exact log := by
  obtain ⟨a, hlast, hended, hstatus⟩ := h
  intro place a' op handle hlast' hasks
  rw [hlast] at hlast'
  cases hlast'
  refine ⟨fun hplace => absurd rfl hplace, fun _ hmem => absurd hmem hended, fun _ => ?_⟩
  rcases hstatus op handle hasks with ⟨hnone, -⟩ | ⟨x, hx, hone, -⟩
  · exact .inl hnone
  · exact .inr ⟨x, hx, hone⟩

/-- The events of a stretch of the operation. -/
theorem LastWorking.flush {d : ClientDialogue} (h : LastWorking b exact log d) :
    LastWorking b exact ((d.flush.1.map .called).reverse ++ log) d.flush.2 := by
  obtain ⟨a, hlast, hended, hstatus⟩ := h
  have hsince : sinceTaken ((d.flush.1.map .called).reverse ++ log)
      = (d.flush.1.map .called).reverse ++ sinceTaken log :=
    since_append_of_not not_isTaken_called
  refine ⟨a, (lastCommand_append not_isTaken_called).trans hlast, ?_, ?_⟩
  · rw [hsince, List.mem_append]
    rintro (hmem | hmem)
    · obtain ⟨cb, -, hcb⟩ := List.mem_map.mp (List.mem_reverse.mp hmem)
      cases hcb
    · exact hended hmem
  · intro op handle hasks
    rw [hsince, statuses_append, statuses_called]
    rcases hstatus op handle hasks with ⟨hnone, honce⟩ | ⟨x, hx, hone, hquiet⟩
    · rcases honce.flush with ⟨hnew, hleft⟩ | ⟨x, hx, hnew, hleft⟩
      · exact .inl ⟨by rw [hnew, hnone]; rfl, hleft⟩
      · exact .inr ⟨x, hx, by rw [hnew, hnone]; rfl, hleft⟩
    · exact .inr ⟨x, hx, by rw [hquiet.flush.1, hone]; rfl, hquiet.flush.2⟩

/-- What has come to its end has been answered. -/
theorem LastWorking.ended {store : ClientCharStore} (h : LastWorking b exact log (.ret store)) :
    LastTold b exact (.ended :: log) ∧ LastOver (.ended :: log) := by
  obtain ⟨a, hlast, hended, hstatus⟩ := h
  have hsince : sinceTaken (.ended :: log) = .ended :: sinceTaken log := since_cons_of_not rfl
  refine ⟨?_, fun _ _ => .inl (by rw [hsince]; exact List.mem_cons_self)⟩
  intro place a' op handle hlast' hasks
  have hlast' : lastCommand log = some (place, a') := hlast'
  rw [hlast] at hlast'
  cases hlast'
  rw [hsince]
  rcases hstatus op handle hasks with ⟨-, honce⟩ | ⟨x, hx, hone, -⟩
  · exact (Dialogue.not_once_ret honce).elim
  · have hone : statuses (.ended :: sinceTaken log) = [x] := hone
    exact ⟨fun hplace => absurd rfl hplace, fun _ _ => ⟨x, hx, hone⟩,
      fun _ => .inr ⟨x, hx, hone⟩⟩

/-- Nothing is told yet of a command that has just been taken. -/
theorem lastTold_of_since_nil (h : sinceTaken log = []) : LastTold b exact log := by
  intro place a op handle _ _
  rw [h]
  exact ⟨fun _ => rfl, nofun, fun _ => .inl rfl⟩

theorem readsOf_eq_none {mail : ReqState T} (h : mail.reader = none) : readsOf mail = none := by
  rw [readsOf, h]
  rfl

/-- The loops go on outside an operation, and outside their reads. -/
theorem Answering.rest {pc : CentralPc} (h : Answering b exact s)
    (hfrom : ∀ d, s.pc ≠ .working d) (hnot : s.mail.reader = none) (hto : ∀ d, pc ≠ .working d) :
    Answering b exact { s with pc } where
  reading place a hreads := by
    have hnone : readsOf s.mail = none := readsOf_eq_none hnot
    rw [hnone] at hreads
    cases hreads
  before := h.before
  now := h.now
  working d hd := absurd hd (hto d)
  resting _ hreads := h.resting hfrom hreads

/-- The slots and the calls go on. -/
theorem Answering.elsewhere {mail : ReqState T} (h : Answering b exact s)
    (hsame : readsOf mail = readsOf s.mail) : Answering b exact { s with mail } where
  reading place a hreads := h.reading place a (hsame ▸ hreads)
  before := h.before
  now := h.now
  working := h.working
  resting hrest hreads := h.resting hrest (hsame ▸ hreads)

/-- An operation goes on, at an await of the runtime thread. -/
theorem Answering.proceed {d : ClientDialogue} (hnot : s.mail.reader = none)
    (hbefore : EachEvent (fun e log => e.isTaken = true → LastTold b exact log ∧ LastOver log)
      s.log)
    (hd : LastWorking b exact s.log d) : Answering b exact (s.proceed d) := by
  have hflush := hd.flush
  have hbefore' := hbefore.append_of_not (d.flush.1.map CentralEvent.called).reverse
    not_isTaken_called
  have hnone : readsOf s.mail = none := readsOf_eq_none hnot
  unfold Central.proceed
  rcases d.flush_cases with ⟨store, hret⟩ | ⟨q, next, hask⟩
  · rw [hret] at hflush ⊢
    have hended := hflush.ended
    refine ⟨fun place a hreads => ?_, ⟨nofun, hbefore'⟩, hended.1, nofun, fun _ _ => hended.2⟩
    cases hnone.symm.trans hreads
  · rw [hask] at hflush ⊢
    refine ⟨fun place a hreads => ?_, hbefore', hflush.told, ?_, fun hnot => absurd rfl (hnot _)⟩
    · cases hnone.symm.trans hreads
    · intro d' hd'
      cases hd'
      exact hflush

/-- A loop takes a command where none is under way. -/
theorem Answering.taken {mail : ReqState T} {place : Place} {a : ApiCall}
    (h : Answering b exact s) (hnot : s.mail.reader = none)
    (hreads : readsOf mail = some (place, a)) (hpc : s.pc.place = some place) :
    Answering b exact { s with mail, log := .taken place a :: s.log } := by
  have hrest : ∀ d, s.pc ≠ .working d := by
    intro d hd
    rw [hd] at hpc
    cases hpc
  refine ⟨?_, ⟨fun _ => ⟨h.now, h.resting hrest (readsOf_eq_none hnot)⟩, h.before⟩,
    lastTold_of_since_nil rfl, fun d hd => absurd hd (hrest d), fun _ hnone => ?_⟩
  · intro place' a' hreads'
    cases hreads.symm.trans hreads'
    exact ⟨hpc, rfl, rfl⟩
  · cases hreads.symm.trans hnone

theorem placeOf_client {k : Consumer} (h : placeOf k = some .client) : k = .clientSession := by
  cases k <;> first | rfl | cases h

/-- The parameters are read, and the loop goes on. -/
theorem Answering.carryOut {mail : ReqState T} {k : Consumer} {a : ApiCall} {o : Outcome}
    {place : Place} (h : Answering b exact s) (hcarries : Carries b exact s.mail)
    (hreader : s.mail.reader = some ⟨k, a, .done o⟩) (hplace : placeOf k = some place)
    (hmail : mail.reader = none) :
    Answering b exact (Central.carryOut b { s with mail } o) := by
  have hreads : readsOf s.mail = some (place, a) := by
    rw [readsOf, hreader, Option.bind_some, hplace]
    rfl
  obtain ⟨hpc, hlast, hsince⟩ := h.reading place a hreads
  -- behind a command that is dropped, or taken by another loop than the pump
  have hdropped : ∀ pc : CentralPc, place ≠ .client → (∀ d, pc ≠ .working d) →
      Answering b exact { s with mail, pc } := by
    intro pc hnot hwork
    refine ⟨?_, h.before, h.now, fun d hd => absurd hd (hwork d), ?_⟩
    · intro place' a' hreads'
      cases (readsOf_eq_none hmail).symm.trans hreads'
    · intro _ _ a' ha'
      have ha' : lastCommand s.log = some (.client, a') := ha'
      rw [hlast] at ha'
      cases ha'
      exact absurd rfl hnot
  obtain ⟨old, pc, log⟩ := s
  unfold Central.carryOut
  cases pc with
  | away | working | sleeping => cases hpc
  | idle =>
      cases hpc
      cases o with
      | idle op => cases op <;> exact hdropped _ nofun nofun
      | _ => exact hdropped .idle nofun nofun
  | scanning =>
      cases hpc
      cases o with
      | scan op => cases op <;> exact hdropped _ nofun nofun
      | _ => exact hdropped .scanning nofun nofun
  | polling store =>
      cases hpc
      cases placeOf_client hplace
      obtain ⟨op, rfl, hop⟩ := hcarries a o hreader
      refine Answering.proceed hmail h.before ⟨a, hlast, ?_, fun code handle hasks => .inl ⟨?_, ?_⟩⟩
      · show .ended ∉ sinceTaken log
        rw [hsince]
        nofun
      · show statuses (sinceTaken log) = []
        rw [hsince]
        rfl
      · obtain ⟨handle', ho, hexact⟩ := hop code handle hasks
        apply (once_clientOperation ho).mono
        rintro x ⟨rfl, rfl⟩
        exact ⟨rfl, hexact⟩

/-- **An access** of a call or a loop. -/
theorem Answering.access [DecidableEq T] {mail : ReqState T}
    {l : Mailbox.Label Slot ApiCall Consumer T}
    (h : Answering b exact s) (hcarries : Carries b exact s.mail)
    (hmail : (mailbox b isValid).step s.mail l = some mail) (hs : s.behind b mail l = some t) :
    Answering b exact t := by
  have hcases := Mailbox.steps_of_step hmail
  cases hcases with
  | enter | put | publish | refuse | pass | discard =>
      cases hs
      exact h.elsewhere rfl
  | read hreader =>
      cases hs
      apply h.elsewhere
      rw [readsOf, readsOf, hreader]
      rfl
  | @takeFreeing k q hreader | @takeHolding k q hreader =>
      simp only [Central.behind] at hs
      cases hplace : placeOf k with
      | none =>
          rw [hplace] at hs
          cases hs
          apply h.elsewhere
          rw [readsOf_eq_none hreader, readsOf, Option.bind_some, hplace]
          rfl
      | some place =>
          simp only [hplace, Option.ite_none_right_eq_some, Option.some.injEq] at hs
          obtain ⟨hpc, rfl⟩ := hs
          apply h.taken hreader ?_ hpc
          rw [readsOf, Option.bind_some, hplace]
          rfl
  | @finishFreed k a o hreader | @finishFreeing k a o hreader =>
      simp only [Central.behind, hreader] at hs
      cases hplace : placeOf k with
      | none =>
          rw [hplace] at hs
          cases hs
          apply h.elsewhere
          rw [readsOf_eq_none rfl, readsOf, hreader, Option.bind_some, hplace]
          rfl
      | some place =>
          rw [hplace] at hs
          cases hs
          exact h.carryOut hcarries hreader hplace rfl

/-- **At an await** of the runtime thread. -/
theorem Answering.turn {i : CentralLabel T} (h : Answering b exact s)
    (hnot : s.mail.reader = none) (hs : s.turn i = some t) : Answering b exact t := by
  cases i with
  | access l => cases hs
  | toIdle | leave =>
      simp only [Central.turn] at hs
      split at hs
      · rename_i hpc
        cases hs
        exact h.rest (by rw [hpc]; nofun) hnot nofun
      · rename_i hpc
        cases hs
        exact h.rest (by rw [hpc]; nofun) hnot nofun
      · cases hs
  | linkUp | wake =>
      simp only [Central.turn] at hs
      split at hs
      · rename_i hpc
        cases hs
        exact h.rest (by rw [hpc]; nofun) hnot nofun
      · cases hs
  | pass =>
      simp only [Central.turn] at hs
      split at hs
      · rename_i store hpc
        simp only [Option.ite_none_right_eq_some, Option.some.injEq] at hs
        obtain ⟨-, rfl⟩ := hs
        exact h.rest (by rw [hpc]; nofun) hnot nofun
      · cases hs
  | answer f =>
      simp only [Central.turn] at hs
      split at hs
      · rename_i q next hpc
        cases hs
        obtain ⟨a, hlast, hended, hstatus⟩ := h.working _ hpc
        refine Answering.proceed hnot h.before ⟨a, hlast, hended, fun op handle hasks => ?_⟩
        -- one of the answers the dialogue is prepared for
        rcases hstatus op handle hasks with ⟨hnone, honce⟩ | ⟨x, hx, hone, hquiet⟩
        · cases honce with
          | ask hall => exact .inl ⟨hnone, hall (f q)⟩
        · cases hquiet with
          | ask hall => exact .inr ⟨x, hx, hone, hall (f q)⟩
      · cases hs
  | drop =>
      have hdropped : t = { s with pc := .away, log := .dropped :: s.log } := by
        simp only [Central.turn] at hs
        split at hs <;> cases hs <;> rfl
      subst hdropped
      have hsince : sinceTaken (.dropped :: s.log) = .dropped :: sinceTaken s.log :=
        since_cons_of_not rfl
      have hnone : readsOf s.mail = none := readsOf_eq_none hnot
      refine ⟨?_, ⟨nofun, h.before⟩, ?_, nofun, fun _ _ _ _ => .inr ?_⟩
      · intro place a hreads
        cases hnone.symm.trans hreads
      · intro place a op handle hlast hasks
        have htold := h.now place a op handle hlast hasks
        rw [hsince]
        refine ⟨htold.dropped, fun hplace hmem => ?_, htold.once⟩
        rcases List.mem_cons.mp hmem with hne | hmem
        · cases hne
        · exact htold.answered hplace hmem
      · rw [hsince]
        exact List.mem_cons_self

end Invariant

/-! ## Every run -/

section Runs

variable {b : Build} {isValid : RequestedConnParams → Bool} {T : Type} {exact : Prop}
  {s : Central T}

theorem mail_proceed {d : ClientDialogue} : (s.proceed d).mail = s.mail := by
  unfold Central.proceed
  split <;> rfl

theorem mail_carryOut {o : Outcome} : (Central.carryOut b s o).mail = s.mail := by
  unfold Central.carryOut
  split <;> first | rfl | exact mail_proceed

theorem mail_behind {mail : ReqState T} {l : Mailbox.Label Slot ApiCall Consumer T} {t : Central T}
    (hs : s.behind b mail l = some t) : t.mail = mail := by
  unfold Central.behind at hs
  split at hs
  · split at hs
    · split_ifs at hs
      cases hs
      rfl
    · cases hs
      rfl
  · split at hs
    · split at hs
      · cases hs
        exact mail_carryOut
      · cases hs
        rfl
    · cases hs
  · cases hs
    rfl

theorem mail_turn {i : CentralLabel T} {t : Central T} (hs : s.turn i = some t) :
    t.mail = s.mail := by
  unfold Central.turn at hs
  repeat' split at hs
  all_goals first
    | cases hs
      done
    | cases hs
      first | rfl | exact mail_proceed

variable [DecidableEq T]

/-- What a step of the central is. -/
theorem centralStep_cases {i : CentralLabel T} {t : Central T}
    (hs : centralStep b isValid s i = some t) :
    (∃ l mail, i = .access l ∧ (mailbox b isValid).step s.mail l = some mail
      ∧ s.behind b mail l = some t)
    ∨ s.mail.reader = none ∧ s.turn i = some t := by
  unfold centralStep at hs
  split at hs
  · obtain ⟨mail, hmail, hbehind⟩ := Option.bind_eq_some_iff.mp hs
    exact .inl ⟨_, mail, rfl, hmail, hbehind⟩
  · simp only [Option.isNone_iff_eq_none, Option.ite_none_right_eq_some] at hs
    exact .inr hs

/-- The slots go through a run of theirs. -/
theorem mail_of_reach
    (h : (central b isValid T).Reach (fun s l => exact → ParametersKept b isValid s l) s) :
    ((mailbox b isValid).machine T).Reach
      (fun σ l => exact → Mailbox.Undisturbed (mailbox b isValid) (· = .clientSession) σ l)
      s.mail := by
  refine Machine.Reach.simulate (N := central b isValid T) (f := Central.mail)
    (fun _ hinit => hinit.1) ?_ h
  intro s i t hok hs
  rcases centralStep_cases hs with ⟨l, mail, rfl, hstep, hbehind⟩ | ⟨-, hturn⟩
  · exact .inr ⟨l, hok, mail_behind hbehind ▸ hstep⟩
  · exact .inl (mail_turn hturn)

/-- Op codes fit in every run, and handles where the parameters are kept. -/
theorem answering_of_reach
    (h : (central b isValid T).Reach (fun s l => exact → ParametersKept b isValid s l) s) :
    Answering b exact s := by
  induction h with
  | @start s h =>
      obtain ⟨hidle, hpc, hlog⟩ := h
      refine ⟨?_, ?_, ?_, ?_, ?_⟩
      · intro place a hreads
        cases (readsOf_eq_none hidle.reader).symm.trans hreads
      · rw [hlog]
        trivial
      · intro place a op handle hlast
        rw [hlog] at hlast
        cases hlast
      · intro d hworking
        rw [hpc] at hworking
        cases hworking
      · intro _ _ a hlast
        rw [hlog] at hlast
        cases hlast
  | @next s t i h hok hs ih =>
      rcases centralStep_cases hs with ⟨l, mail, rfl, hstep, hbehind⟩ | ⟨hnot, hturn⟩
      · exact ih.access (carries_of_reach (mail_of_reach h)) hstep hbehind
      · exact ih.turn hnot hturn

/-- What is told of a command, in a run where it fits. -/
theorem told_of_reach
    (h : (central b isValid T).Reach (fun s l => exact → ParametersKept b isValid s l) s)
    {post mid pre : List CentralEvent} {place : Place} {a : ApiCall} {op : UInt8}
    {handle : UInt16} (hlog : s.log = post ++ (mid ++ .taken place a :: pre))
    (hmid : ∀ e ∈ mid, e.isTaken = false)
    (hpost : post = [] ∨ ∃ later e, post = later ++ [e] ∧ e.isTaken = true)
    (hasks : answerOf (clientAsks b a) = some (op, handle)) :
    Told exact place op handle mid
      ∧ (place = .client → post ≠ [] → .ended ∈ mid ∨ .dropped ∈ mid) := by
  have hinv := answering_of_reach h
  have hlast : lastCommand (mid ++ .taken place a :: pre) = some (place, a) :=
    (lastCommand_append hmid).trans rfl
  have hsince : sinceTaken (mid ++ .taken place a :: pre) = mid := since_append_cons hmid rfl
  have htold : LastTold b exact (mid ++ .taken place a :: pre)
      ∧ (post ≠ [] → LastOver (mid ++ .taken place a :: pre)) := by
    rcases hpost with rfl | ⟨later, e, rfl, he⟩
    · exact ⟨hlog ▸ hinv.now, fun hne => absurd rfl hne⟩
    · have hbefore := hinv.before
      rw [hlog, List.append_assoc] at hbefore
      have hboth := hbefore.of_append he
      exact ⟨hboth.1, fun _ => hboth.2⟩
  constructor
  · have hthis := htold.1 place a op handle hlast hasks
    rwa [hsince] at hthis
  · rintro rfl hne
    have hover := htold.2 hne a hlast
    rwa [hsince] at hover

/-- **GATT client commands are answered** where a link is up: a command the
pump of `client_session` has taken is answered at most once, with its op
code, and exactly once when its operation comes to its end; the pump takes
the next command behind that, or behind a new link. The answer has the
command's handle in the runs in which no call writes over what the pump is
still to read. A command taken while no link is up is dropped without an
answer. -/
theorem client_commands_answered (h : (central b isValid T).Reachable s)
    {post mid pre : List CentralEvent} {place : Place} {a : ApiCall} {op : UInt8}
    {handle : UInt16} (hlog : s.log = post ++ (mid ++ .taken place a :: pre))
    (hmid : ∀ e ∈ mid, e.isTaken = false)
    -- up to the next command, or up to now
    (hpost : post = [] ∨ ∃ later e, post = later ++ [e] ∧ e.isTaken = true)
    (hasks : answerOf (clientAsks b a) = some (op, handle)) :
    (place ≠ .client → statuses mid = [])
    ∧ (place = .client →
        (.ended ∈ mid → ∃ x, x.op = op ∧ statuses mid = [x])
        ∧ (statuses mid = [] ∨ ∃ x, x.op = op ∧ statuses mid = [x])
        ∧ (post ≠ [] → .ended ∈ mid ∨ .dropped ∈ mid)
        ∧ ((central b isValid T).Reach (ParametersKept b isValid) s →
            ∀ x ∈ statuses mid, x.handle = handle)) := by
  have hany : (central b isValid T).Reach
      (fun s l => False → ParametersKept b isValid s l) s := h.mono fun _ _ _ => False.elim
  obtain ⟨htold, hover⟩ := told_of_reach hany hlog hmid hpost hasks
  refine ⟨htold.dropped, fun hplace => ⟨fun hended => ?_, ?_, hover hplace, fun hkept x hx => ?_⟩⟩
  · obtain ⟨x, hx, hone⟩ := htold.answered hplace hended
    exact ⟨x, hx.1, hone⟩
  · rcases htold.once hplace with hnone | ⟨x, hx, hone⟩
    · exact .inl hnone
    · exact .inr ⟨x, hx.1, hone⟩
  · have hall : (central b isValid T).Reach
        (fun s l => True → ParametersKept b isValid s l) s := hkept.mono fun _ _ hok _ => hok
    obtain ⟨hexact, -⟩ := told_of_reach hall hlog hmid hpost hasks
    rcases hexact.once hplace with hnone | ⟨y, hy, hone⟩
    · rw [hnone] at hx
      cases hx
    · rw [hone, List.mem_singleton] at hx
      subst hx
      exact hy.2 trivial

end Runs

/-- The host's answers of the two runs below. -/
def hostAnswers : (q : ClientQuery) → q.Answer
  | .services | .servicesByUuid _ | .characteristics _ => none
  | .findInformation _ _ | .readByType _ _ _ => ([], false)
  | .readHandle _ | .readHandleBlob _ _ => some [0x2a]
  | .writeHandle _ _ | .writeHandleWithoutResponse _ _ => true

/-- The accesses of a call that is accepted: `n` writes, the busy test and
the command. -/
def accepted (n : Nat) (a : ApiCall) : List (CentralLabel Unit) :=
  .access (.enter () a) :: List.replicate (n + 2) (.access (.act ()))

/-- The parameters are kept where the calls are calm. -/
def calmCentral (s : Central Unit) : CentralLabel Unit → Bool
  | .access l => Mailbox.calm allSlots [()] s.mail l
  | _ => true

theorem parametersKept_of_calm {b : Build} {isValid : RequestedConnParams → Bool}
    (s : Central Unit) (l : CentralLabel Unit) (h : calmCentral s l = true) :
    ParametersKept b isValid s l := by
  cases l with
  | access l => exact Mailbox.undisturbed_of_calm mem_allSlots (by simp) h
  | _ => trivial

/-- A read with its answer, and the next command. -/
theorem client_commands_answered_read :
    let mid : List CentralEvent :=
      [.ended, .called (.onClientStatus 5 0 3), .called (.onRead 3 [0x2a])]
    (.ended ∈ mid → ∃ x, x.op = 5 ∧ statuses mid = [x])
    ∧ (statuses mid = [] ∨ ∃ x, x.op = 5 ∧ statuses mid = [x])
    ∧ (([.taken .client .clientDiscoverAll] : List CentralEvent) ≠ [] →
        .ended ∈ mid ∨ .dropped ∈ mid)
    ∧ ∀ x ∈ statuses mid, x.handle = 3 := by
  intro mid
  have hexec : ((central { central := true } (fun _ => true) Unit).execWhile calmCentral
        { mail := .start bootMem.params }
        (.linkUp :: accepted 1 (.clientRead 3) ++ [.access (.take .clientSession), .access .read,
          .access .finish, .answer hostAnswers, .wake] ++ accepted 1 .clientDiscoverAll ++
          [.access (.take .clientSession)])).map
      (fun s => decide (s.log = [.taken .client .clientDiscoverAll] ++
        (mid ++ .taken .client (.clientRead 3) :: []))) = some true := by
    decide
  obtain ⟨s, hreach, hs⟩ := Machine.exists_reach_of_execWhile
    (fun s l => parametersKept_of_calm s l) _
    (show (central { central := true } (fun _ => true) Unit).init { mail := .start bootMem.params }
      from ⟨Mailbox.State.idle_start, rfl, rfl⟩) hexec
  have hasks : answerOf (clientAsks { central := true } (.clientRead 3)) = some (5, 3) := by decide
  obtain ⟨hended, honce, hnext, hhandle⟩ := (client_commands_answered
    (hreach.mono fun _ _ _ => trivial) (of_decide_eq_true hs) (by decide)
    (.inr ⟨[], _, rfl, rfl⟩) hasks).2 rfl
  exact ⟨hended, honce, hnext, hhandle hreach⟩

/-- Every command that is followed by another has had its one status. -/
def AnsweredOnce {T : Type} (b : Build) (s : Central T) : Prop :=
  ∀ later next post mid pre place a op handle, next.isTaken = true →
    s.log = later ++ next :: post → post = mid ++ .taken place a :: pre →
    (∀ e ∈ mid, e.isTaken = false) → answerOf (clientAsks b a) = some (op, handle) →
    ∃ x, x.Answers op handle ∧ statuses mid = [x]

/-- Two reads while no link is up are taken and not answered. -/
theorem command_dropped_while_idle :
    ∃ s, (central { central := true } (fun _ => true) Unit).Reachable s
      ∧ ¬ AnsweredOnce { central := true } s := by
  have hexec : ((central { central := true } (fun _ => true) Unit).exec
        { mail := .start bootMem.params }
        (.toIdle :: accepted 1 (.clientRead 3) ++ [.access (.take .waitIdle), .access .finish] ++
          accepted 1 (.clientRead 4) ++ [.access (.take .waitIdle)])).map
      (fun s => decide
        (s.log = [.taken .idle (.clientRead 4), .taken .idle (.clientRead 3)])) = some true := by
    decide
  obtain ⟨s, hreach, hs⟩ := Machine.exists_reachable_of_exec _
    (show (central { central := true } (fun _ => true) Unit).init { mail := .start bootMem.params }
      from ⟨Mailbox.State.idle_start, rfl, rfl⟩) hexec
  refine ⟨s, hreach, fun hall => ?_⟩
  obtain ⟨x, -, hx⟩ := hall [] _ _ [] [] _ _ _ _ rfl (of_decide_eq_true hs) rfl
    (List.forall_mem_nil _) rfl
  cases hx

end RuntimeBle.Client
