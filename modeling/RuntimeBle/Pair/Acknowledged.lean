import Mathlib.Data.List.Infix
import RuntimeBle.Lib.Machine
import RuntimeBle.Pair.Exchange

/-!
# Pair — Acknowledged

The command loop of a client and the event loop of a server, each at its own
pace: requests on their way, replies on theirs, and either loop dropped at
any of its awaits.

The server's loop replies to a write before it tells its application, and to
a read behind its callback. So a write may be acknowledged that is never
told: the one whose reply is being sent when the loop is dropped.
-/

namespace RuntimeBle.Pair

open RuntimeBle.Lib RuntimeBle.Server RuntimeBle.Client
open RuntimeBle.Request (ClientOp)

/-! ## The two loops -/

/-- The answers that only the server's reply makes. -/
def isReply : (q : ClientQuery) → q.Answer → Bool
  | .writeHandle _ _, ok => ok
  | .readHandle _, r => r.isSome
  | _, _ => false

/-- The request that a line has a reply to. -/
def acknowledged : ClientLine → Option GattEvent
  | .answered q a => if isReply q a then event q else none
  | .said _ => none

/-- The event is a write. -/
def isWrite : GattEvent → Bool
  | .write _ _ _ => true
  | _ => false

/-- Where the server's loop is: in `gconn.next()`, in `reply.send()` with the
callbacks that are to come behind it, or dropped, with those that were. -/
inductive GattPc where
  | next
  | sending (behind : List ServerCallback)
  | dropped (behind : List ServerCallback)

/-- `client` is what is left of the client's loop, and `lines` its lines, the
newest first. `asking` is the number of the request that it waits for. Of
the requests, the oldest first, `handled` are those the server's loop has
taken, and `replies` the numbers of those whose reply is out. -/
structure AttLink where
  client : ClientDialogue
  lines : List ClientLine
  asking : Option Nat := none
  waiting : List GattEvent := []
  handled : List GattEvent := []
  replies : List Nat := []
  server : GattPc := .next
  told : List ServerCallback := []

/-- `request`: the client's host sends the request of the question; `other`:
another request of a procedure. `answer`: it answers the question.
`take`: `gconn.next()` returns, and `accept()` is `Ok` or not; `reply`: the
reply goes out; `sent`: `reply.send()` returns; `drop`: the loop is dropped
where it waits. -/
inductive AttLabel (b : Build) where
  | request
  | other (ev : GattEvent)
  | answer (host : (q : ClientQuery) → q.Answer)
  | take (accepted : Bool) (application : ServerCallback → Bytes b.valueLen × Nat)
  | reply
  | sent
  | drop

section Step

variable (b : Build) (callbacks : RuntimeBleCallbacks) (g : Gatt)

/-- The callbacks of an event before its reply. -/
def beforeReply (application : ServerCallback → Bytes b.valueLen × Nat) :
    GattEvent → List ServerCallback
  | .read h => (gattRead b callbacks g application h).1
  | _ => []

/-- The callbacks of an event behind its reply. -/
def behindReply : GattEvent → List ServerCallback
  | .write h off data => gattWrite b callbacks g h off data
  | _ => []

/-- One step of the client, of the server's loop or of the link between them. -/
def attStep (s : AttLink) : AttLabel b → Option AttLink
  | .request =>
      match s.client, s.asking with
      | .ask q _, none => (event q).map fun ev =>
          { s with
            -- the position the request will have among those handled
            asking := some (s.handled.length + s.waiting.length)
            waiting := s.waiting ++ [ev] }
      | _, _ => none
  | .other ev => if isWrite ev then none else some { s with waiting := s.waiting ++ [ev] }
  | .answer host =>
      match s.client with
      | .ask q next =>
          -- the host makes no reply up
          if isReply q (host q) = true → s.asking.any (· ∈ s.replies) then
            some
              { s with
                client := (next (host q)).flush.2
                lines := ((next (host q)).flush.1.map .said).reverse
                  ++ .answered q (host q) :: s.lines
                asking := none }
          else none
      | _ => none
  | .take accepted application =>
      match s.server, s.waiting with
      | .next, ev :: waiting =>
          let told := (beforeReply b callbacks g application ev).reverse ++ s.told
          if accepted then
            some
              { s with
                waiting, told
                handled := s.handled ++ [ev]
                server := .sending (behindReply b callbacks g ev) }
          else
            some
              { s with
                waiting
                handled := s.handled ++ [ev]
                told := (behindReply b callbacks g ev).reverse ++ told }
      | _, _ => none
  | .reply =>
      match s.server with
      | .sending _ => some { s with replies := (s.handled.length - 1) :: s.replies }
      | _ => none
  | .sent =>
      match s.server with
      | .sending behind => some { s with server := .next, told := behind.reverse ++ s.told }
      | _ => none
  | .drop =>
      match s.server with
      | .next => some { s with server := .dropped [] }
      | .sending behind => some { s with server := .dropped behind }
      | .dropped _ => none

/-- The client's loop with the commands `os`. -/
def AttLink.start (b' : Build) (os : List ClientOp) : AttLink where
  client := (clientCommands b' os).flush.2
  lines := ((clientCommands b' os).flush.1.map .said).reverse

/-- The link from where the client has yet to ask. -/
def attLink (b' : Build) (os : List ClientOp) : Machine AttLink (AttLabel b) where
  init s := s = AttLink.start b' os
  step := attStep b callbacks g

end Step

/-! ## What a status claims -/

/-- A host that answers with errors. -/
def refuse : (q : ClientQuery) → q.Answer
  | .services | .servicesByUuid _ | .characteristics _ => none
  | .findInformation _ _ | .readByType _ _ _ => ([], false)
  | .readHandle _ | .readHandleBlob _ _ => none
  | .writeHandle _ _ | .writeHandleWithoutResponse _ _ => false

/-- The status of an operation that the server's loop replies to is OK. -/
def claimsReply : ClientCallback → Bool
  | .onClientStatus op status _ =>
      status == clientStatusOk && [clientOpRead, clientOpWrite, clientOpSubscribe,
        clientOpSubscribeIndicate, clientOpUnsubscribe].contains op
  | _ => false

/-- Before each such status, the last answer is a reply. -/
def Backed (ls : List ClientLine) : Prop :=
  ∀ pre e post, ls = pre ++ .said e :: post → claimsReply e = true →
    ∃ (pre' : List ClientLine) (q : ClientQuery) (a : q.Answer) (said : List ClientCallback),
      pre = pre' ++ .answered q a :: said.map .said ∧ isReply q a = true

section Claims

variable {ls ls' : List ClientLine} {b : Build} {store : ClientCharStore}

theorem Backed.of_append (h : Backed (ls ++ ls')) : Backed ls := by
  intro pre e post heq hclaims
  apply h pre e (post ++ ls') _ hclaims
  rw [heq, List.append_assoc]
  rfl

theorem Backed.append (h : Backed ls) (h' : Backed ls') : Backed (ls ++ ls') := by
  intro pre e post heq hclaims
  rcases List.append_eq_append_iff.mp heq with ⟨mid, rfl, hls'⟩ | ⟨mid, hls, hpost⟩
  · obtain ⟨pre', q, a, said, rfl, hreply⟩ := h' mid e post hls' hclaims
    exact ⟨ls ++ pre', q, a, said, (List.append_assoc ..).symm, hreply⟩
  · cases mid with
    | nil =>
        obtain ⟨pre', q, a, said, hnil, -⟩ := h' [] e post hpost.symm hclaims
        cases pre' <;> cases hnil
    | cons l mid =>
        cases hpost
        exact h pre e mid hls hclaims

theorem backed_of_unclaimed (h : ∀ e, .said e ∈ ls → claimsReply e = false) : Backed ls := by
  intro pre e post heq hclaims
  have hmem : .said e ∈ ls := by
    rw [heq]
    exact List.mem_append_right _ List.mem_cons_self
  rw [h e hmem] at hclaims
  cases hclaims

/-- One question, and what is said behind it. -/
theorem backed_answered {q : ClientQuery} {a : q.Answer} (said : List ClientCallback)
    (h : ∀ e ∈ said, claimsReply e = true → isReply q a = true) :
    Backed (.answered q a :: said.map .said) := by
  intro pre e post heq hclaims
  cases pre with
  | nil => cases heq
  | cons l pre =>
      obtain ⟨rfl, hsaid⟩ := List.cons.inj heq
      obtain ⟨before, behind, rfl, rfl, hbehind⟩ := List.map_eq_append_iff.mp hsaid
      obtain ⟨e', behind, rfl, he', -⟩ := List.map_eq_cons_iff.mp hbehind
      cases he'
      exact ⟨[], q, a, before, rfl, h e (List.mem_append_right _ List.mem_cons_self) hclaims⟩

theorem backed_write (h h' : UInt16) (bytes : List UInt8) (op : UInt8) :
    (Dialogue.ask (.writeHandle h bytes) fun ok => emitClientStatus op ok h' store :
      ClientDialogue).Ensures fun ls _ => Backed ls := by
  refine .ask fun ok => .emit (.ret (backed_answered [_] fun e he hclaims => ?_))
  cases List.mem_singleton.mp he
  cases ok with
  | true => rfl
  | false => cases hclaims

theorem backed_read (h : UInt16) :
    (Dialogue.ask (.readHandle h) (clientReadDone b clientOpRead h store) :
      ClientDialogue).Ensures fun ls _ => Backed ls := by
  refine .ask fun r => ?_
  cases r with
  | none =>
      refine .emit (.emit (.ret (backed_answered [_, _] fun e he hclaims => ?_)))
      rcases List.mem_pair.mp he with rfl | rfl <;> cases hclaims
  | some value => exact .emit (.emit (.ret (backed_answered [_, _] fun _ _ _ => rfl)))

/-- The status of another operation has another op code. -/
theorem backed_of_once {d : ClientDialogue} {op : UInt8} {h : UInt16} (hd : OnceAnswered op h d)
    (hop : ∀ status h, claimsReply (.onClientStatus op status h) = false) :
    d.Ensures fun ls _ => Backed ls := by
  intro ls store' hplays
  apply backed_of_unclaimed
  intro e he
  cases e with
  | onClientStatus op' status h' =>
      obtain ⟨rfl, -⟩ := hd.of_plays hplays he rfl
      exact hop status h'
  | _ => rfl

theorem backed_clientOperation (o : ClientOp) :
    (clientOperation b store o).Ensures fun ls _ => Backed ls := by
  have hother : ∀ {op : UInt8} {h : UInt16}, answerOf o = some (op, h) →
      (∀ status h, claimsReply (.onClientStatus op status h) = false) →
      (clientOperation b store o).Ensures fun ls _ => Backed ls :=
    fun ho => backed_of_once (once_clientOperation ho)
  cases o with
  | disconnect | ignored => exact .ret (backed_of_unclaimed fun e he => nomatch he)
  | read h => exact backed_read h
  | write h bytes => exact backed_write h h bytes clientOpWrite
  | subscribe h => exact backed_write (cccdFor store h) h [1, 0] clientOpSubscribe
  | subscribeIndicate h => exact backed_write (cccdFor store h) h [2, 0] clientOpSubscribeIndicate
  | unsubscribe h => exact backed_write (cccdFor store h) h [0, 0] clientOpUnsubscribe
  | discoverServices | discover _ | discoverAll | discoverDescriptors _ _ | readByUuid _ _ _
  | readBlob _ _ | writeNoRsp _ _ => exact hother rfl fun status _ => Bool.and_false _

/-- Any part of a run of the client's loop. -/
theorem backed_of_plays {os : List ClientOp} {left : ClientDialogue}
    (h : (clientCommands b os).Plays ls left) : Backed ls := by
  have hrun : (clientCommands b os).Ensures fun ls _ => Backed ls := by
    apply Dialogue.Ensures.forEach fun _ ls _ => Backed ls
    · exact backed_of_unclaimed fun e he => nomatch he
    · intro done o left ls store _ hdone ls' store' hplays
      exact hdone.append (backed_clientOperation o ls' store' hplays)
  -- the run may be carried on to its end
  have hend := Dialogue.plays_run refuse left
  exact (hrun _ _ (h.trans hend)).of_append

end Claims

/-! ## The client -/

/-- All requests, the oldest first. -/
def AttLink.sent (s : AttLink) : List GattEvent := s.handled ++ s.waiting

/-- The request of the question that is to be answered, once it is sent. -/
def AttLink.current (s : AttLink) : List GattEvent :=
  match s.client with
  | .ask q _ => if s.asking.isSome then (event q).toList else []
  | _ => []

/-- The requests of the client, of the questions that are answered and of
the one that is to be answered. -/
def AttLink.requests (s : AttLink) : List GattEvent :=
  s.lines.reverse.filterMap eventOf ++ s.current

/-- The client's lines are those of its loop. What it is answered is in the
order of its requests, and so are the writes among them; what is waited for
is behind all that has been acknowledged. -/
structure Asking (b' : Build) (os : List ClientOp) (s : AttLink) : Prop where
  plays : (clientCommands b' os).Plays s.lines.reverse s.client
  writes : (s.sent.filter isWrite).Sublist (s.requests.filter isWrite)
  asked : ∀ q next k, s.client = .ask q next → s.asking = some k →
    s.sent[k]? = event q ∧ (event q).isSome
  ordered : (s.lines.reverse.filterMap acknowledged).Sublist
    (s.handled.take (s.asking.getD s.sent.length))

/-- What is said has no part in it. -/
theorem filterMap_answered {α : Type} (f : ClientLine → Option α) (hf : ∀ e, f (.said e) = none)
    (ls : List ClientLine) (q : ClientQuery) (a : q.Answer) (said : List ClientCallback) :
    (ls ++ (.answered q a :: said.map .said : List ClientLine)).filterMap f
      = ls.filterMap f ++ (f (.answered q a)).toList := by
  have hsaid : (said.map .said : List ClientLine).filterMap f = [] := by
    rw [List.filterMap_map]
    exact List.filterMap_eq_nil_iff.mpr fun e _ => hf e
  rw [List.filterMap_append, List.filterMap_cons, hsaid]
  cases f (.answered q a) <;> rfl

section Client

variable {b b' : Build} {callbacks : RuntimeBleCallbacks} {g : Gatt} {os : List ClientOp}
  {s t : AttLink}

theorem Asking.start (b' : Build) (os : List ClientOp) : Asking b' os (.start b' os) := by
  have hsaid : (AttLink.start b' os).lines.reverse = (clientCommands b' os).flush.1.map .said :=
    List.reverse_reverse _
  refine ⟨?_, List.nil_sublist _, nofun, ?_⟩
  · rw [hsaid]
    exact Dialogue.plays_flush _
  · have hnone : (AttLink.start b' os).lines.reverse.filterMap acknowledged = [] := by
      rw [hsaid, List.filterMap_map]
      exact List.filterMap_eq_nil_iff.mpr fun _ _ => rfl
    rw [hnone]
    exact List.nil_sublist _

/-- The client's host sends its request. -/
theorem Asking.request (h : Asking b' os s) {q : ClientQuery} {next : q.Answer → ClientDialogue}
    {ev : GattEvent} (hclient : s.client = .ask q next) (hasking : s.asking = none)
    (hev : event q = some ev) :
    Asking b' os
      { s with
        asking := some (s.handled.length + s.waiting.length)
        waiting := s.waiting ++ [ev] } := by
  have hcurrent : s.current = [] := by
    simp [AttLink.current, hclient, hasking]
  refine ⟨h.plays, ?_, ?_, ?_⟩
  · have hwrites := h.writes
    rw [AttLink.requests, hcurrent, List.append_nil] at hwrites
    simp only [AttLink.sent, AttLink.requests, AttLink.current, hclient, Option.isSome_some,
      if_true, hev, Option.toList_some, List.filter_append] at hwrites ⊢
    rw [← List.append_assoc]
    exact hwrites.append (List.Sublist.refl _)
  · intro q' next' k hclient' hk
    cases hclient.symm.trans hclient'
    cases hk
    rw [hev]
    refine ⟨?_, rfl⟩
    rw [AttLink.sent, ← List.append_assoc, ← List.length_append, List.getElem?_concat_length]
  · have hordered := h.ordered
    rw [hasking, Option.getD_none, AttLink.sent, List.length_append] at hordered
    exact hordered

/-- More requests behind those that have been sent. -/
theorem Asking.other (h : Asking b' os s) {ev : GattEvent} (hev : isWrite ev = false) :
    Asking b' os { s with waiting := s.waiting ++ [ev] } := by
  refine ⟨h.plays, ?_, ?_, ?_⟩
  · have hsent : (s.handled ++ (s.waiting ++ [ev])).filter isWrite = s.sent.filter isWrite := by
      simp [AttLink.sent, hev]
    rw [AttLink.sent, hsent]
    exact h.writes
  · intro q next k hclient hk
    obtain ⟨hev', hsome⟩ := h.asked q next k hclient hk
    refine ⟨?_, hsome⟩
    have hlt : k < s.sent.length := by
      rw [← hev'] at hsome
      simpa using hsome
    rw [AttLink.sent, ← List.append_assoc]
    exact (List.getElem?_append_left hlt).trans hev'
  · refine h.ordered.trans (List.take_sublist_take_left ?_)
    cases s.asking with
    | none =>
        simp only [AttLink.sent, Option.getD_none, List.length_append]
        omega
    | some k => exact le_refl k

/-- A question is answered. -/
theorem Asking.answer (h : Asking b' os s) (hreplies : ∀ k ∈ s.replies, k < s.handled.length)
    {q : ClientQuery} {next : q.Answer → ClientDialogue} (hclient : s.client = .ask q next)
    (a : q.Answer) (hreply : isReply q a = true → s.asking.any (· ∈ s.replies)) :
    Asking b' os
      { s with
        client := (next a).flush.2
        lines := ((next a).flush.1.map .said).reverse ++ .answered q a :: s.lines
        asking := none } := by
  have hlines : ∀ said : List ClientLine, (said.reverse ++ .answered q a :: s.lines).reverse
      = s.lines.reverse ++ .answered q a :: said := by
    simp
  refine ⟨?_, ?_, nofun, ?_⟩
  · rw [hlines]
    have hplays := h.plays
    rw [hclient] at hplays
    exact hplays.trans (.ask a (Dialogue.plays_flush _))
  · have hcurrent : s.current.Sublist (event q).toList := by
      simp only [AttLink.current, hclient]
      split
      · exact List.Sublist.refl _
      · exact List.nil_sublist _
    have hnone : AttLink.current
        { s with
          client := (next a).flush.2
          lines := ((next a).flush.1.map .said).reverse ++ .answered q a :: s.lines
          asking := none } = [] := by
      unfold AttLink.current
      split <;> rfl
    rw [AttLink.requests, hnone, List.append_nil, hlines, filterMap_answered eventOf fun _ => rfl]
    exact h.writes.trans (((List.Sublist.refl _).append hcurrent).filter _)
  · have hsent : s.handled.length ≤ s.sent.length := by
      rw [AttLink.sent, List.length_append]
      omega
    rw [hlines, filterMap_answered acknowledged fun _ => rfl]
    show List.Sublist _ (s.handled.take s.sent.length)
    rw [List.take_of_length_le hsent]
    cases hok : isReply q a with
    | false =>
        have hnone : acknowledged (.answered q a) = none := by simp [acknowledged, hok]
        rw [hnone, Option.toList_none, List.append_nil]
        exact h.ordered.trans (List.take_sublist _ _)
    | true =>
        -- its reply is out: the request is handled, behind all that was acknowledged before
        have hsome : acknowledged (.answered q a) = event q := by simp [acknowledged, hok]
        obtain ⟨k, hk, hmem⟩ := (Option.any_eq_true ..).mp (hreply hok)
        have hlt := hreplies k (of_decide_eq_true hmem)
        have hat := (h.asked q next k hclient hk).1
        rw [AttLink.sent, List.getElem?_append_left hlt] at hat
        have hordered := h.ordered
        rw [hk, Option.getD_some] at hordered
        apply List.Sublist.trans _ (List.take_sublist (k + 1) s.handled)
        rw [List.take_add_one, hat, hsome]
        exact hordered.append (List.Sublist.refl _)

/-- The server's loop takes a request. -/
theorem Asking.handle (h : Asking b' os s) {ev : GattEvent} {waiting : List GattEvent}
    (hwaiting : s.waiting = ev :: waiting) (server : GattPc) (told : List ServerCallback) :
    Asking b' os { s with waiting, handled := s.handled ++ [ev], server, told } := by
  have hsent : s.handled ++ [ev] ++ waiting = s.sent := by
    rw [AttLink.sent, hwaiting, List.append_assoc]
    rfl
  refine ⟨h.plays, ?_, ?_, ?_⟩
  · rw [AttLink.sent, hsent]
    exact h.writes
  · rw [AttLink.sent, hsent]
    exact h.asked
  · rw [AttLink.sent, hsent]
    exact h.ordered.trans (List.IsPrefix.take (List.prefix_append _ _) _).sublist

end Client

/-! ## The server -/

section Server

variable {b b' : Build} {callbacks : RuntimeBleCallbacks} {g : Gatt} {os : List ClientOp}
  {application application' : ServerCallback → Bytes b.valueLen × Nat} {s t : AttLink}

/-- Which callback a read makes does not depend on what it is answered. -/
theorem gattRead_callbacks (h : UInt16) :
    (gattRead b callbacks g application h).1 = (gattRead b callbacks g application' h).1 := by
  unfold gattRead
  dsimp only
  split
  · split <;> rfl
  · split
    · split <;> rfl
    · rfl

theorem gattEvent_eq (application application' : ServerCallback → Bytes b.valueLen × Nat)
    (ev : GattEvent) :
    gattEvent b callbacks g application ev
      = beforeReply b callbacks g application' ev ++ behindReply b callbacks g ev := by
  cases ev with
  | write h off data => rfl
  | read h => exact (gattRead_callbacks h).trans (List.append_nil _).symm
  | other => rfl

/-- All that is handled has been told. -/
def AllTold (application : ServerCallback → Bytes b.valueLen × Nat)
    (callbacks : RuntimeBleCallbacks) (g : Gatt) (s : AttLink) : Prop :=
  s.told.reverse = s.handled.flatMap (gattEvent b callbacks g application)

/-- The callbacks behind the last reply are owed. -/
def Owes (application : ServerCallback → Bytes b.valueLen × Nat) (callbacks : RuntimeBleCallbacks)
    (g : Gatt) (s : AttLink) (behind : List ServerCallback) : Prop :=
  ∃ done ev, s.handled = done ++ [ev] ∧ behind = behindReply b callbacks g ev
    ∧ s.told.reverse = done.flatMap (gattEvent b callbacks g application)
        ++ beforeReply b callbacks g application ev

/-- What the application has been told, and what is owed. -/
structure Telling (application : ServerCallback → Bytes b.valueLen × Nat)
    (callbacks : RuntimeBleCallbacks) (g : Gatt) (s : AttLink) : Prop where
  replies : ∀ k ∈ s.replies, k < s.handled.length
  told : match s.server with
    | .next => AllTold application callbacks g s
    | .sending behind => Owes application callbacks g s behind
    | .dropped behind => behind = [] ∧ AllTold application callbacks g s
        ∨ Owes application callbacks g s behind

/-- A request is taken, and its reply is to be sent. -/
theorem Telling.take (h : Telling application callbacks g s) (hserver : s.server = .next)
    (ev : GattEvent) (waiting : List GattEvent) :
    Telling application callbacks g
      { s with
        waiting
        handled := s.handled ++ [ev]
        server := .sending (behindReply b callbacks g ev)
        told := (beforeReply b callbacks g application' ev).reverse ++ s.told } := by
  obtain ⟨hreplies, htold⟩ := h
  rw [hserver] at htold
  constructor
  · intro k hk
    have hlt := hreplies k hk
    simp only [List.length_append]
    omega
  · refine ⟨s.handled, ev, rfl, rfl, ?_⟩
    have hbefore : beforeReply b callbacks g application' ev
        = beforeReply b callbacks g application ev := by
      cases ev with
      | read h => exact gattRead_callbacks h
      | write _ _ _ | other => rfl
    rw [List.reverse_append, List.reverse_reverse, hbefore]
    exact congrArg (· ++ _) htold

/-- It is taken, and no reply can be made. -/
theorem Telling.refuse (h : Telling application callbacks g s) (hserver : s.server = .next)
    (ev : GattEvent) (waiting : List GattEvent) :
    Telling application callbacks g
      { s with
        waiting
        handled := s.handled ++ [ev]
        told := (behindReply b callbacks g ev).reverse
          ++ ((beforeReply b callbacks g application' ev).reverse ++ s.told) } := by
  obtain ⟨hreplies, htold⟩ := h
  rw [hserver] at htold
  constructor
  · intro k hk
    have hlt := hreplies k hk
    simp only [List.length_append]
    omega
  · dsimp only
    rw [hserver]
    show List.reverse _ = (s.handled ++ [ev]).flatMap _
    rw [List.reverse_append, List.reverse_append, List.reverse_reverse, List.reverse_reverse, htold,
      List.flatMap_append, List.flatMap_singleton, gattEvent_eq application application',
      List.append_assoc]

theorem Telling.sent {behind : List ServerCallback} (h : Telling application callbacks g s)
    (hserver : s.server = .sending behind) :
    Telling application callbacks g
      { s with server := .next, told := behind.reverse ++ s.told } := by
  obtain ⟨hreplies, htold⟩ := h
  rw [hserver] at htold
  obtain ⟨done, ev, hhandled, rfl, htold⟩ := htold
  refine ⟨hreplies, ?_⟩
  show List.reverse _ = s.handled.flatMap _
  rw [List.reverse_append, List.reverse_reverse, htold, hhandled, List.flatMap_append,
    List.flatMap_singleton, gattEvent_eq application application, List.append_assoc]

end Server

/-! ## Together -/

section Steps

variable {b b' : Build} {callbacks : RuntimeBleCallbacks} {g : Gatt} {os : List ClientOp}
  {application : ServerCallback → Bytes b.valueLen × Nat} {s t : AttLink}

theorem asking_step {l : AttLabel b} (h : Asking b' os s)
    (htelling : Telling application callbacks g s)
    (hs : attStep b callbacks g s l = some t) : Asking b' os t := by
  cases l with
  | request =>
      simp only [attStep] at hs
      split at hs
      · rename_i q next hclient hasking
        obtain ⟨ev, hev, rfl⟩ := Option.map_eq_some_iff.mp hs
        exact h.request hclient hasking hev
      · cases hs
  | other ev =>
      simp only [attStep, Option.ite_none_left_eq_some, Option.some.injEq] at hs
      obtain ⟨hev, rfl⟩ := hs
      exact h.other (Bool.not_eq_true _ ▸ hev)
  | answer host =>
      simp only [attStep] at hs
      split at hs
      · rename_i q next hclient
        obtain ⟨hreply, heq⟩ := (Option.ite_none_right_eq_some ..).mp hs
        cases heq
        exact h.answer htelling.replies hclient (host q) hreply
      · cases hs
  | take accepted application' =>
      simp only [attStep] at hs
      split at hs
      · rename_i ev waiting hserver hwaiting
        cases accepted <;> cases hs <;> exact h.handle hwaiting _ _
      · cases hs
  | reply | sent | drop =>
      simp only [attStep] at hs
      split at hs <;> cases hs <;> exact ⟨h.plays, h.writes, h.asked, h.ordered⟩

theorem telling_step {l : AttLabel b} (h : Telling application callbacks g s)
    (hs : attStep b callbacks g s l = some t) : Telling application callbacks g t := by
  cases l with
  | request =>
      simp only [attStep] at hs
      split at hs
      · obtain ⟨ev, -, rfl⟩ := Option.map_eq_some_iff.mp hs
        exact ⟨h.replies, h.told⟩
      · cases hs
  | other ev =>
      simp only [attStep, Option.ite_none_left_eq_some, Option.some.injEq] at hs
      obtain ⟨-, rfl⟩ := hs
      exact ⟨h.replies, h.told⟩
  | answer host =>
      simp only [attStep] at hs
      split at hs
      · obtain ⟨-, heq⟩ := (Option.ite_none_right_eq_some ..).mp hs
        cases heq
        exact ⟨h.replies, h.told⟩
      · cases hs
  | take accepted application' =>
      simp only [attStep] at hs
      split at hs
      · rename_i ev waiting hserver hwaiting
        cases accepted with
        | true =>
            cases hs
            -- the loop handles the request, and stands before or behind its reply
            exact h.take hserver ev waiting
        | false =>
            cases hs
            exact h.refuse hserver ev waiting
      · cases hs
  | reply =>
      simp only [attStep] at hs
      split at hs
      · rename_i behind hserver
        cases hs
        refine ⟨fun k hk => ?_, h.told⟩
        rcases List.mem_cons.mp hk with rfl | hk
        · -- the reply is that of the request last taken
          have htold := h.told
          -- the loop is gone, with its last request told or not
          rw [hserver] at htold
          obtain ⟨done, ev, hhandled, -⟩ := htold
          simp only [hhandled, List.length_append, List.length_singleton]
          omega
        · exact h.replies k hk
      · cases hs
  | sent =>
      simp only [attStep] at hs
      split at hs
      · rename_i behind hserver
        cases hs
        exact h.sent hserver
      · cases hs
  | drop =>
      simp only [attStep] at hs
      have htold := h.told
      split at hs
      · rename_i hserver
        cases hs
        rw [hserver] at htold
        exact ⟨h.replies, .inl ⟨rfl, htold⟩⟩
      · rename_i behind hserver
        cases hs
        rw [hserver] at htold
        exact ⟨h.replies, .inr htold⟩
      · cases hs

theorem asking_telling_of_reachable (application : ServerCallback → Bytes b.valueLen × Nat)
    (h : (attLink b callbacks g b' os).Reachable s) :
    Asking b' os s ∧ Telling application callbacks g s := by
  refine Machine.Reach.invariant
    (P := fun s => Asking b' os s ∧ Telling application callbacks g s) ?_ ?_ h
  · rintro s rfl
    exact ⟨Asking.start b' os, nofun, rfl⟩
  · intro s l t hst _ hs
    exact ⟨asking_step hst.1 hst.2 hs, telling_step hst.2 hs⟩

/-- Of what is handled, all is told but what is owed, and only a write's
callback is owed. -/
theorem Telling.cases (h : Telling application callbacks g s) :
    AllTold application callbacks g s ∨ ∃ done h off data, s.handled = done ++ [.write h off data]
      ∧ s.server ≠ .next
      ∧ s.told.reverse = done.flatMap (gattEvent b callbacks g application) := by
  have howes : ∀ behind, s.server ≠ .next → Owes application callbacks g s behind →
      AllTold application callbacks g s ∨ ∃ done h off data,
        s.handled = done ++ [.write h off data] ∧ s.server ≠ .next
          ∧ s.told.reverse = done.flatMap (gattEvent b callbacks g application) := by
    rintro behind hserver ⟨done, ev, hhandled, -, htold⟩
    cases ev with
    | write h off data =>
        right
        exact ⟨done, h, off, data, hhandled, hserver, htold.trans (List.append_nil _)⟩
    | read _ | other =>
        left
        rw [AllTold, htold, hhandled, List.flatMap_append, List.flatMap_singleton,
          gattEvent_eq application application]
        exact congrArg _ (List.append_nil _).symm
  have htold := h.told
  cases hserver : s.server with
  | next =>
      rw [hserver] at htold
      exact .inl htold
  | sending behind =>
      rw [hserver] at htold howes
      exact howes behind nofun htold
  | dropped behind =>
      rw [hserver] at htold howes
      rcases htold with ⟨-, htold⟩ | htold
      · exact .inl htold
      · exact howes behind nofun htold

/-- **What is acknowledged is told, save the last.** In any run of a client's
loop and a server's, each at its own pace, a status claims success of a read,
a write or a subscription only behind a reply; the requests with a reply have
been handled by the server's loop, in their order, and the writes it has
handled are the client's, in their order. The callbacks that the application
of the server has been told are those of all requests handled; or of all but
the last, a write whose reply is being sent, or was when the loop was
dropped. -/
theorem acknowledged_is_told (h : (attLink b callbacks g b' os).Reachable s)
    (application : ServerCallback → Bytes b.valueLen × Nat) :
    Backed s.lines.reverse
    ∧ (s.lines.reverse.filterMap acknowledged).Sublist s.handled
    ∧ (s.handled.filter isWrite).Sublist (s.requests.filter isWrite)
    ∧ (s.told.reverse = s.handled.flatMap (gattEvent b callbacks g application)
      ∨ ∃ done h off data, s.handled = done ++ [.write h off data] ∧ s.server ≠ .next
        ∧ s.told.reverse = done.flatMap (gattEvent b callbacks g application)) := by
  obtain ⟨hasking, htelling⟩ := asking_telling_of_reachable application h
  refine ⟨backed_of_plays hasking.plays, hasking.ordered.trans (List.take_sublist ..), ?_,
    htelling.cases⟩
  apply List.Sublist.trans _ hasking.writes
  rw [AttLink.sent, List.filter_append]
  exact List.sublist_append_left ..

end Steps

/-- Two writes to the RX value of the UART service are acknowledged; the
server's loop is dropped when the second reply is out, and one is told. -/
theorem acknowledged_is_told_dropped :
    ∃ s, (attLink {} { onData := true } nusGatt {} [.write 8 [7], .write 8 [9]]).Reachable s
      ∧ s.lines.reverse.filterMap acknowledged = [.write 8 0 [7], .write 8 0 [9]]
      ∧ s.told = [.onData [7]]
      ∧ (s.lines.reverse.filterMap acknowledged).Sublist s.handled := by
  let application : ServerCallback → Bytes ({} : Build).valueLen × Nat := fun _ => default
  let write : List (AttLabel {}) := [.request, .take true application, .reply, .answer nusHost]
  have hexec : ((attLink {} { onData := true } nusGatt {} [.write 8 [7], .write 8 [9]]).exec
        (.start {} [.write 8 [7], .write 8 [9]]) (write ++ .sent :: write ++ [.drop])).map
      (fun s => decide
        (s.lines.reverse.filterMap acknowledged = [.write 8 0 [7], .write 8 0 [9]]
          ∧ s.told = [.onData [7]])) = some true := by
    decide
  obtain ⟨s, hreach, hs⟩ := Machine.exists_reachable_of_exec _ rfl hexec
  obtain ⟨hlines, htold⟩ := of_decide_eq_true hs
  exact ⟨s, hreach, hlines, htold, (acknowledged_is_told hreach application).2.1⟩

end RuntimeBle.Pair
