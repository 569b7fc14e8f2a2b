import RuntimeBle.Lib.Machine
import RuntimeBle.Link.Channel

/-!
# Pair — Sdus

An L2CAP channel between two devices of this runtime: what one application
has accepted of it by `runtime_ble_l2cap_send`, and what the other is told by
`on_l2cap_data`.

Both ends run `l2cap_serve`, the loop of `recv` included, and at each of them
one caller is at work at a time. Between them the SDUs that `writer.send` gets
through arrive whole and in their order, as an L2CAP channel has it; a
`writer.send` that fails leaves nothing behind.
-/

namespace RuntimeBle.Pair

open RuntimeBle.Lib RuntimeBle.Request RuntimeBle.Link

/-- The two devices of a channel. -/
inductive Side where
  | central
  | peripheral
deriving DecidableEq

/-- The one at the other end. -/
def Side.other : Side → Side
  | central => peripheral
  | peripheral => central

@[simp] theorem Side.other_other (side : Side) : side.other.other = side := by cases side <;> rfl

@[simp] theorem Side.other_ne (side : Side) : side.other ≠ side := by cases side <;> decide

theorem Side.eq_other {side side' : Side} (h : side' ≠ side) : side' = side.other := by
  cases side <;> cases side' <;> first | rfl | exact absurd rfl h

/-- One end: the channel as it sends, the SDUs under way to it, the oldest
first, and those its application has been told, the newest first. -/
structure End where
  channel : Channel
  inbox : List (List UInt8) := []
  heard : List (List UInt8) := []

/-- Both ends of the channel. -/
abbrev Ends := Side → End

/-- `own`: the next step of an end, with what becomes of a `writer.send` that
it comes to. `receive`: `reader.receive_sdu` is `Ok`. -/
inductive SduLabel where
  | own (side : Side) (i : ChannelStep) (comesThrough : Bool)
  | receive (side : Side)

/-- What a step hands to `writer.send`. -/
def sends (s : Channel) (i : ChannelStep) : Option (List UInt8) :=
  match i, s.pc with
  | .run, .reading (.done bytes) => some bytes
  | _, _ => none

section Step

variable (b : Side → Build)

/-- A step of one end; what it sends lies at the other end, if it comes
through. -/
def ownStep (s : Ends) (side : Side) (i : ChannelStep) (comesThrough : Bool) : Ends :=
  let me := s side
  let them := s side.other
  let sdus := if comesThrough then (sends me.channel i).toList else []
  Function.update (Function.update s side { me with channel := me.channel.step (b side) i })
    side.other { them with inbox := them.inbox ++ sdus }

/-- A step of one end, or an SDU that is received. -/
def sduStep (s : Ends) : SduLabel → Option Ends
  | .own side i comesThrough => some (ownStep b s side i comesThrough)
  | .receive side =>
      match (s side).inbox with
      | [] => none
      | sdu :: inbox =>
          -- `recv` is next to the loop of `send`
          if (s side).channel.pc.isLooping then
            some (Function.update s side { s side with inbox, heard := sdu :: (s side).heard })
          else none

/-- Both ends from where the channel is open. -/
def l2capPair : Machine Ends SduLabel where
  init s := ∀ side, ∃ mem disconnectReq, s side = { channel := .entered mem disconnectReq }
  step := sduStep b

/-- Each end is used in time, with SDUs of at most `VALUE_LEN` bytes, and what
is sent comes through. -/
def Undisturbed (s : Ends) : SduLabel → Prop
  | .own side i comesThrough => (s side).channel.InTime (b side) i ∧ comesThrough = true
  | .receive _ => True

end Step

/-! ## One step -/

section Steps

variable {b : Side → Build} {s t : Ends}

/-- A step passes on what it hands to `writer.send`. -/
theorem passed_step_eq (b : Build) (c : Channel) (i : ChannelStep) :
    passed (c.step b i).log = (sends c i).toList ++ passed c.log := by
  cases i with
  | run =>
      show passed (c.pump b).log = _
      unfold Channel.pump sends
      split
      case h_7 bytes hpc => simp [hpc]
      case h_8 fetch hmore hpc =>
        cases fetch with
        | done bytes => exact absurd rfl (hmore bytes)
        | load w next => simp [hpc]
        | read buf n next => simp [hpc]
      all_goals
        rename_i hpc
        simp [hpc]
  | enter data =>
      show passed (c.enterSend b data).log = _
      unfold Channel.enterSend
      split
      · split <;> rfl
      · rfl
  | act =>
      show passed c.act.log = _
      obtain heq | ⟨sending, -, ⟨x, todo, -, heq⟩ | ⟨-, heq⟩⟩ := Channel.act_cases c
      · rw [heq]
        rfl
      · rw [heq]
        rfl
      · rw [heq]
        unfold Channel.record
        split <;> rfl
  | disconnect =>
      show passed (c.disconnect b).log = _
      unfold Channel.disconnect Channel.record
      split
      · split <;> rfl
      · rfl
  | close =>
      show passed c.close.log = _
      unfold Channel.close
      split <;> rfl

theorem ownStep_side (side : Side) (i : ChannelStep) (comesThrough : Bool) :
    ownStep b s side i comesThrough side
      = { s side with channel := (s side).channel.step (b side) i } := by
  rw [ownStep, Function.update_of_ne side.other_ne.symm, Function.update_self]

theorem ownStep_other (side : Side) (i : ChannelStep) (comesThrough : Bool) :
    ownStep b s side i comesThrough side.other
      = { s side.other with
          inbox := (s side.other).inbox
            ++ if comesThrough then (sends (s side).channel i).toList else [] } := by
  rw [ownStep, Function.update_self]

/-- What is under way to an end, and what its application has been told. -/
def End.arriving (e : End) : List (List UInt8) := e.inbox.reverse ++ e.heard

/-- Hearing an SDU takes it from under way. -/
theorem arriving_receive {e : End} {sdu : List UInt8} {inbox : List (List UInt8)}
    (h : e.inbox = sdu :: inbox) :
    ({ e with inbox, heard := sdu :: e.heard } : End).arriving = e.arriving := by
  simp [End.arriving, h]

theorem arriving_ownStep (side : Side) (i : ChannelStep) (comesThrough : Bool) :
    (ownStep b s side i comesThrough side).arriving = (s side).arriving
    ∧ (ownStep b s side i comesThrough side.other).arriving
      = (if comesThrough then (sends (s side).channel i).toList else [])
        ++ (s side.other).arriving := by
  rw [ownStep_side, ownStep_other]
  refine ⟨rfl, ?_⟩
  cases comesThrough with
  | false => simp [End.arriving]
  | true => cases sends (s side).channel i <;> simp [End.arriving]

/-! ## Every run -/

/-- What arrives at an end has been passed on at the other. -/
structure Carried (b : Side → Build) (s : Ends) (side : Side) : Prop where
  sound : (s side).channel.Sound (b side)
  arriving : (s side).arriving.Sublist (passed (s side.other).channel.log)

/-- All that is passed on at the other end arrives. -/
structure Undropped (b : Side → Build) (s : Ends) (side : Side) : Prop where
  kept : (s side).channel.Kept (b side)
  arriving : (s side).arriving = passed (s side.other).channel.log

theorem Carried.ownStep (h : ∀ side, Carried b s side) (side : Side) (i : ChannelStep)
    (comesThrough : Bool) (side' : Side) : Carried b (ownStep b s side i comesThrough) side' := by
  obtain ⟨hmine, htheirs⟩ := arriving_ownStep (b := b) (s := s) side i comesThrough
  by_cases hside : side' = side
  · subst hside
    refine ⟨?_, ?_⟩
    · rw [ownStep_side]
      exact (h side').sound.step i
    · rw [hmine, ownStep_other]
      exact (h side').arriving
  · obtain rfl := Side.eq_other hside
    refine ⟨?_, ?_⟩
    · rw [ownStep_other]
      exact (h side.other).sound
    · have harriving := (h side.other).arriving
      rw [htheirs, Side.other_other, ownStep_side, passed_step_eq]
      rw [Side.other_other] at harriving
      split
      · exact harriving.append_left _
      · exact harriving.trans (List.sublist_append_right ..)

theorem Undropped.ownStep (h : ∀ side, Undropped b s side) (side : Side) (i : ChannelStep)
    (htime : (s side).channel.InTime (b side) i) (side' : Side) :
    Undropped b (ownStep b s side i true) side' := by
  obtain ⟨hmine, htheirs⟩ := arriving_ownStep (b := b) (s := s) side i true
  by_cases hside : side' = side
  · subst hside
    refine ⟨?_, ?_⟩
    · rw [ownStep_side]
      exact (h side').kept.step i htime
    · rw [hmine, ownStep_other]
      exact (h side').arriving
  · obtain rfl := Side.eq_other hside
    refine ⟨?_, ?_⟩
    · rw [ownStep_other]
      exact (h side.other).kept
    · have harriving := (h side.other).arriving
      rw [Side.other_other] at harriving
      rw [htheirs, Side.other_other, ownStep_side, passed_step_eq, if_pos rfl, harriving]

/-- An end that hears an SDU, seen from either. -/
theorem receive_spec {side : Side} (hs : sduStep b s (.receive side) = some t) :
    ∀ side', (t side').channel = (s side').channel ∧ (t side').arriving = (s side').arriving := by
  intro side'
  simp only [sduStep] at hs
  split at hs
  · cases hs
  · rename_i sdu inbox hinbox
    split_ifs at hs
    cases hs
    by_cases hside : side' = side
    · subst hside
      rw [Function.update_self]
      exact ⟨rfl, arriving_receive hinbox⟩
    · rw [Function.update_of_ne hside]
      exact ⟨rfl, rfl⟩

theorem init_end (h : (l2capPair b).init s) (side : Side) :
    (s side).channel.Kept (b side) ∧ (s side).arriving = [] ∧ (s side).channel.log = [] := by
  obtain ⟨mem, disconnectReq, hside⟩ := h side
  rw [hside]
  exact ⟨Channel.Kept.entered mem disconnectReq, rfl, rfl⟩

theorem carried_of_reachable (h : (l2capPair b).Reachable s) : ∀ side, Carried b s side := by
  apply Machine.Reach.invariant (P := fun s => ∀ side, Carried b s side) ?_ ?_ h
  · intro s hinit side
    obtain ⟨hkept, harriving, -⟩ := init_end hinit side
    refine ⟨hkept.sound, ?_⟩
    rw [harriving]
    exact List.nil_sublist _
  · intro s i t hinv _ hs side
    cases i with
    | own mine i comesThrough =>
        cases hs
        exact Carried.ownStep hinv mine i comesThrough side
    | receive mine =>
        obtain ⟨hchannel, harriving⟩ := receive_spec (b := b) hs side
        refine ⟨?_, ?_⟩
        · rw [hchannel]
          exact (hinv side).sound
        · rw [harriving, (receive_spec (b := b) hs side.other).1]
          exact (hinv side).arriving

theorem undropped_of_reach (h : (l2capPair b).Reach (Undisturbed b) s) :
    ∀ side, Undropped b s side := by
  apply Machine.Reach.invariant (P := fun s => ∀ side, Undropped b s side) ?_ ?_ h
  · intro s hinit side
    obtain ⟨hkept, harriving, -⟩ := init_end hinit side
    obtain ⟨-, -, hlog⟩ := init_end hinit side.other
    refine ⟨hkept, ?_⟩
    rw [harriving, hlog]
    rfl
  · intro s i t hinv hok hs side
    cases i with
    | own mine i comesThrough =>
        obtain ⟨htime, rfl⟩ := hok
        cases hs
        exact Undropped.ownStep hinv mine i htime side
    | receive mine =>
        obtain ⟨hchannel, harriving⟩ := receive_spec (b := b) hs side
        refine ⟨?_, ?_⟩
        · rw [hchannel]
          exact (hinv side).kept
        · rw [harriving, (receive_spec (b := b) hs side.other).1]
          exact (hinv side).arriving

/-- **SDUs from end to end**, over any run of both ends' pumps and of one
caller at each: an application is told no SDU but those that the other has
accepted, once, in their order, and as far as a value carries them. Where both
ends are used in time, with SDUs of at most `VALUE_LEN` bytes, and what is sent
comes through, none is missing as long as the other application does not
disconnect: what it has accepted is what has been told, what is under way, and,
while its channel is open, the SDU that awaits its pump. -/
theorem sdus_conserved (h : (l2capPair b).Reachable s) (side : Side) :
    (s side).heard.Sublist
      ((accepted (s side.other).channel.log).map (List.take (b side.other).valueLen))
    ∧ ((l2capPair b).Reach (Undisturbed b) s →
        .disconnectAccepted ∉ (s side.other).channel.log →
        ∃ waiting, accepted (s side.other).channel.log
            = waiting ++ ((s side).inbox.reverse ++ (s side).heard)
          ∧ ((s side.other).channel.pc ≠ .closed →
              waiting = (s side.other).channel.awaited (b side.other))) := by
  constructor
  · have hcarried := carried_of_reachable h
    have hpassed := (List.sublist_append_right _ _).trans (hcarried side).arriving
    exact hpassed.trans (hcarried side.other).sound.once_passed
  · intro hundisturbed hnot
    have hundropped := undropped_of_reach hundisturbed
    obtain ⟨waiting, haccepted, hwaiting⟩ := (hundropped side.other).kept.sdus hnot
    refine ⟨waiting, ?_, hwaiting⟩
    rw [haccepted, ← (hundropped side).arriving]
    rfl

end Steps

/-- A test for what is in time. -/
def testTime (b : Side → Build) (s : Ends) : SduLabel → Bool
  | .own side .act comesThrough =>
      comesThrough && (s side).channel.pc.isReset
        && ((s side).channel.caller.elim true fun c => c.sdu.length ≤ (b side).valueLen)
  | .own side .disconnect comesThrough => comesThrough && (s side).channel.pc.isLooping
  | .own _ _ comesThrough => comesThrough
  | .receive _ => true

theorem undisturbed_of_testTime {b : Side → Build} (s : Ends) (l : SduLabel)
    (h : testTime b s l = true) : Undisturbed b s l := by
  cases l with
  | receive side => trivial
  | own side i comesThrough =>
      cases i with
      | act =>
          simp only [testTime, Bool.and_eq_true] at h
          obtain ⟨⟨hthrough, hreset⟩, hlen⟩ := h
          refine ⟨fun _ _ c hc _ => ⟨hreset, ?_⟩, hthrough⟩
          rw [hc] at hlen
          exact of_decide_eq_true hlen
      | disconnect =>
          simp only [testTime, Bool.and_eq_true] at h
          exact ⟨fun _ _ => h.2, h.1⟩
      | run | enter | close => exact ⟨trivial, h⟩

/-- An SDU in each direction: one has been told, the other is under way. -/
theorem sdus_conserved_both_ways :
    let b : Side → Build := fun _ => { l2cap := true }
    ∃ s, (l2capPair b).Reach (Undisturbed b) s
      ∧ (s .peripheral).heard = [[0xaa, 0xbb]] ∧ (s .central).inbox = [[0xcc]]
      ∧ (s .peripheral).heard.Sublist
          ((accepted (s .central).channel.log).map (List.take (b .central).valueLen)) := by
  intro b
  let start : Ends := fun _ => { channel := .entered bootMem false }
  let opening (side : Side) : List SduLabel := List.replicate 3 (.own side .run true)
  let sending (side : Side) (data : List UInt8) : List SduLabel :=
    .own side (.enter (some data)) true
      :: (List.replicate 3 (.own side .act true) ++ List.replicate 5 (.own side .run true))
  have hexec : ((l2capPair b).execWhile (testTime b) start
        (opening .central ++ opening .peripheral ++ sending .central [0xaa, 0xbb]
          ++ sending .peripheral [0xcc] ++ [.receive .peripheral])).map
      (fun s => decide ((s .peripheral).heard = [[0xaa, 0xbb]] ∧ (s .central).inbox = [[0xcc]]))
        = some true := by
    decide
  obtain ⟨s, hreach, hs⟩ := Machine.exists_reach_of_execWhile undisturbed_of_testTime _
    (show (l2capPair b).init start from fun _ => ⟨bootMem, false, rfl⟩) hexec
  obtain ⟨hheard, hinbox⟩ := of_decide_eq_true hs
  exact ⟨s, hreach, hheard, hinbox,
    (sdus_conserved (hreach.mono fun _ _ _ => trivial) .peripheral).1⟩

end RuntimeBle.Pair
