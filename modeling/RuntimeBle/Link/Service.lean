import RuntimeBle.Link.Channel

/-!
# Link — Service

What is accepted on a channel is served: passed on, or answered by the
channel writer, in a lap of the pump.
-/

namespace RuntimeBle.Link

open RuntimeBle.Lib RuntimeBle.Request

namespace Channel

variable {b : Build} {s : Channel}

/-! ## Progress -/

theorem log_record (e : ChannelEvent) : ∃ later, (s.record e).log = later ++ s.log := by
  unfold record
  split
  · exact ⟨[e], rfl⟩
  · exact ⟨[], rfl⟩

/-- The log only grows. -/
theorem log_step (s : Channel) (i : ChannelStep) :
    ∃ later, (s.step b i).log = later ++ s.log := by
  cases i with
  | run =>
      show ∃ later, (s.pump b).log = later ++ s.log
      unfold pump
      split
      case h_5 => exact ⟨[.disconnected], rfl⟩
      case h_7 bytes _ => exact ⟨[.passed bytes], rfl⟩
      all_goals exact ⟨[], rfl⟩
  | enter data =>
      show ∃ later, (s.enterSend b data).log = later ++ s.log
      unfold enterSend
      split
      · split <;> exact ⟨[], rfl⟩
      · exact ⟨[], rfl⟩
  | act =>
      show ∃ later, s.act.log = later ++ s.log
      obtain heq | ⟨c, -, ⟨x, todo, -, heq⟩ | ⟨-, heq⟩⟩ := act_cases s
      · exact ⟨[], congrArg Channel.log heq⟩
      · rw [heq]
        exact ⟨[], rfl⟩
      · rw [heq]
        exact log_record (s := s.requested c) _
  | disconnect =>
      show ∃ later, (s.disconnect b).log = later ++ s.log
      unfold disconnect
      split
      · exact log_record (s := { s with disconnectReq := true }) _
      · exact ⟨[], rfl⟩
  | close =>
      show ∃ later, s.close.log = later ++ s.log
      unfold close
      split <;> exact ⟨[], rfl⟩

theorem passed_append (later log : List ChannelEvent) :
    passed (later ++ log) = passed later ++ passed log := List.filterMap_append

/-- What is passed on stays passed on. -/
theorem passed_step {sdus : List (List UInt8)} (i : ChannelStep) (h : sdus <:+ passed s.log) :
    sdus <:+ passed (s.step b i).log := by
  obtain ⟨later, hlater⟩ := log_step s i
  rw [hlater, passed_append]
  exact h.trans (List.suffix_append ..)

/-- An SDU stands in the buffer, and nothing else is to be done first:
`sdus` are this one and those before it. -/
structure Waiting (b : Build) (sdus : List (List UInt8)) (s : Channel) : Prop where
  sound : s.Sound b
  reset : s.pc.isReset = true
  slot : s.mem.slot .l2capSendReq ≠ 0
  quiet : s.pc ≠ .disconnecting ∧ (s.pc.isLooping = true → s.disconnectReq = false)
  sdus : sdus = s.standing b :: passed s.log

/-- The accesses of the pump before the one that passes an SDU on. -/
def passesIn (s : Channel) : Nat :=
  match s.pc with
  | .reading fetch => fetch.accesses s.mem.params
  | .polled => 3
  | .polling => 4
  | .sleeping | .clearing => 5
  | .sending => 6
  | _ => 0

theorem Waiting.passesIn_lt {sdus : List (List UInt8)} (h : s.Waiting b sdus) :
    s.passesIn < lap := by
  unfold passesIn
  split
  · rename_i fetch hpc
    have hleft := (h.sound.reading fetch hpc).2.2
    exact Nat.lt_of_le_of_lt hleft (by decide)
  all_goals decide

/-- The pump comes nearer, or passes the SDU on. -/
theorem Waiting.pump {sdus : List (List UInt8)} (h : s.Waiting b sdus) :
    sdus <:+ passed (s.pump b).log ∨
      (s.pump b).Waiting b sdus ∧ (s.pump b).passesIn + 1 ≤ s.passesIn := by
  have hsound := h.sound.pump
  have hreset := h.reset
  unfold Channel.pump at hsound ⊢
  split at hsound
  case h_1 hpc => rw [hpc] at hreset; cases hreset
  case h_2 hpc => rw [hpc] at hreset; cases hreset
  case h_3 hpc =>
    exact .inr ⟨⟨hsound, rfl, h.slot, ⟨by simp, fun _ => rfl⟩, h.sdus⟩, by simp [passesIn, hpc]⟩
  case h_4 hpc =>
    have hreq := h.quiet.2 (by rw [hpc]; rfl)
    simp only [hreq] at hsound ⊢
    exact .inr ⟨⟨hsound, rfl, h.slot, ⟨by simp, fun _ => rfl⟩, h.sdus⟩, by simp [passesIn, hpc]⟩
  case h_5 hpc => exact absurd hpc h.quiet.1
  case h_6 hpc =>
    rw [if_pos h.slot] at hsound ⊢
    have hreq := h.quiet.2 (by rw [hpc]; rfl)
    refine .inr ⟨⟨hsound, rfl, h.slot, ⟨by simp, fun _ => hreq⟩, h.sdus⟩, ?_⟩
    simp [passesIn, hpc, l2capPump, Fetch.accesses]
  case h_7 bytes hpc =>
    have hbytes : bytes = s.standing b := (h.sound.reading _ hpc).2.1
    have hsdus : sdus = bytes :: passed s.log := by rw [hbytes, ← h.sdus]
    left
    rw [passed_passed]
    exact hsdus ▸ List.suffix_refl _
  case h_8 fetch hmore hpc =>
    have hreq := h.quiet.2 (by rw [hpc]; rfl)
    have hless := Fetch.accesses_step (p := s.mem.params) hmore
    refine .inr ⟨⟨hsound, rfl, h.slot, ⟨by simp, fun _ => hreq⟩, h.sdus⟩, ?_⟩
    simp only [passesIn, hpc]
    omega
  case h_9 hpc =>
    have hreq := h.quiet.2 (by rw [hpc]; rfl)
    exact .inr ⟨⟨hsound, rfl, h.slot, ⟨by simp, fun _ => hreq⟩, h.sdus⟩, by simp [passesIn, hpc]⟩
  case h_10 hpc =>
    have hreq := h.quiet.2 (by rw [hpc]; rfl)
    exact .inr ⟨⟨hsound, rfl, h.slot, ⟨by simp, fun _ => hreq⟩, h.sdus⟩, by simp [passesIn, hpc]⟩
  case h_11 hpc => rw [hpc] at hreset; cases hreset

/-- **An SDU that waits is passed on** in a lap of the pump. -/
theorem Waiting.passes {sdus : List (List UInt8)} (h : s.Waiting b sdus) {is : List ChannelStep}
    (hclose : .close ∉ is) (hdisconnect : .disconnect ∉ is) (hlap : lap ≤ is.count .run) :
    sdus <:+ passed (is.foldl (step b) s).log := by
  refine goal_of_ticks (P := Waiting b sdus) (fun s => sdus <:+ passed s.log)
    (fun i => i ≠ .close ∧ i ≠ .disconnect) (· == ChannelStep.run) passesIn
    (fun _ => passed_step) ?_ h ?_ (Nat.lt_of_lt_of_le h.passesIn_lt hlap)
  · intro s i hs hi
    have hcaller : s.caller = none := hs.sound.caller_eq_none hs.slot
    cases i with
    | run => exact hs.pump
    | enter data =>
        have hsame : s.step b (.enter data) = s := by
          show s.enterSend b data = s
          unfold enterSend
          split
          · rename_i call _ hcall
            obtain ⟨sdu, -, -, -, rfl⟩ := l2capSend_ok hcall
            exact if_pos hs.slot
          · rfl
        rw [hsame]
        exact .inr ⟨hs, Nat.le_refl _⟩
    | act =>
        have hsame : s.step b .act = s := by rw [Channel.step, Channel.act, hcaller]
        rw [hsame]
        exact .inr ⟨hs, Nat.le_refl _⟩
    | disconnect => exact absurd rfl hi.2
    | close => exact absurd rfl hi.1
  · exact fun i hi => ⟨fun h => hclose (h ▸ hi), fun h => hdisconnect (h ▸ hi)⟩

/-- A disconnect request stands, or is being served; `log` is what had
happened then. -/
structure Asked (b : Build) (log : List ChannelEvent) (s : Channel) : Prop where
  sound : s.Sound b
  looping : s.pc.isLooping = true
  request : s.disconnectReq = true ∨ s.pc = .disconnecting
  log : ∃ later, s.log = later ++ log

/-- The writer has disconnected since. -/
def Answered (log : List ChannelEvent) (s : Channel) : Prop :=
  ∃ later, s.log = later ++ log ∧ .disconnected ∈ later

theorem Answered.step {log : List ChannelEvent} (h : s.Answered log) (i : ChannelStep) :
    (s.step b i).Answered log := by
  obtain ⟨later, hlater, hmem⟩ := h
  obtain ⟨more, hmore⟩ := log_step s i
  exact ⟨more ++ later, by rw [hmore, hlater, List.append_assoc], List.mem_append_right _ hmem⟩

/-- The accesses of the pump before the one that disconnects. -/
def disconnectsIn (s : Channel) : Nat :=
  match s.pc with
  | .polling => 1
  | .sleeping => 2
  | .sending => 3
  | .reading fetch => fetch.accesses s.mem.params + 4
  | .polled => 7
  | _ => 0

theorem Asked.disconnectsIn_lt {log : List ChannelEvent} (h : s.Asked b log) :
    s.disconnectsIn < lap := by
  unfold disconnectsIn
  split
  case h_4 fetch hpc =>
    have hleft := (h.sound.reading fetch hpc).2.2
    have hlap : lap = 8 := rfl
    omega
  all_goals decide

theorem Asked.pump {log : List ChannelEvent} (h : s.Asked b log) :
    (s.pump b).Answered log ∨
      (s.pump b).Asked b log ∧ (s.pump b).disconnectsIn + 1 ≤ s.disconnectsIn := by
  have hsound := h.sound.pump
  have hloop := h.looping
  obtain ⟨later, hlater⟩ := h.log
  unfold Channel.pump at hsound ⊢
  split at hsound
  case h_1 hpc => rw [hpc] at hloop; cases hloop
  case h_2 hpc => rw [hpc] at hloop; cases hloop
  case h_3 hpc => rw [hpc] at hloop; cases hloop
  case h_4 hpc =>
    have hreq := h.request.resolve_right (by rw [hpc]; simp)
    simp only [hreq] at hsound ⊢
    exact .inr ⟨⟨hsound, rfl, .inr rfl, later, hlater⟩, by simp [disconnectsIn, hpc]⟩
  case h_5 =>
    exact .inl ⟨.disconnected :: later, congrArg (_ :: ·) hlater, List.mem_cons_self⟩
  case h_6 hpc =>
    have hreq := h.request.resolve_right (by rw [hpc]; simp)
    by_cases hslot : s.mem.slot .l2capSendReq ≠ 0
    · rw [if_pos hslot] at hsound ⊢
      refine .inr ⟨⟨hsound, rfl, .inl hreq, later, hlater⟩, ?_⟩
      simp [disconnectsIn, hpc, l2capPump, Fetch.accesses]
    · rw [if_neg hslot] at hsound ⊢
      exact .inr ⟨⟨hsound, rfl, .inl hreq, later, hlater⟩, by simp [disconnectsIn, hpc]⟩
  case h_7 bytes hpc =>
    have hreq := h.request.resolve_right (by rw [hpc]; simp)
    refine .inr ⟨⟨hsound, rfl, .inl hreq, .passed bytes :: later, congrArg (_ :: ·) hlater⟩, ?_⟩
    simp [disconnectsIn, hpc, Fetch.accesses]
  case h_8 fetch hmore hpc =>
    have hreq := h.request.resolve_right (by rw [hpc]; simp)
    have hless := Fetch.accesses_step (p := s.mem.params) hmore
    refine .inr ⟨⟨hsound, rfl, .inl hreq, later, hlater⟩, ?_⟩
    simp only [disconnectsIn, hpc]
    omega
  case h_9 hpc =>
    have hreq := h.request.resolve_right (by rw [hpc]; simp)
    exact .inr ⟨⟨hsound, rfl, .inl hreq, later, hlater⟩, by simp [disconnectsIn, hpc]⟩
  case h_10 hpc =>
    have hreq := h.request.resolve_right (by rw [hpc]; simp)
    exact .inr ⟨⟨hsound, rfl, .inl hreq, later, hlater⟩, by simp [disconnectsIn, hpc]⟩
  case h_11 hpc => rw [hpc] at hloop; cases hloop

/-- A call leaves a disconnect request where it was. -/
theorem Asked.call {log : List ChannelEvent} (h : s.Asked b log) {i : ChannelStep}
    (hrun : i ≠ .run) (hclose : i ≠ .close) :
    (s.step b i).Asked b log ∧ (s.step b i).disconnectsIn ≤ s.disconnectsIn := by
  obtain ⟨hpc, hreq, hparams⟩ := step_call (b := b) (s := s) hrun hclose
  obtain ⟨later, hlater⟩ := h.log
  obtain ⟨more, hmore⟩ := log_step (b := b) s i
  refine ⟨⟨h.sound.step i, hpc ▸ h.looping, ?_, more ++ later, ?_⟩, ?_⟩
  · rw [hpc]
    exact h.request.imp_left hreq
  · rw [hmore, hlater, List.append_assoc]
  · unfold disconnectsIn
    rw [hpc]
    split
    case h_4 fetch hfetch =>
      have hcaller : s.caller = none :=
        h.sound.caller_eq_none (h.sound.reading fetch hfetch).1
      exact Nat.le_of_eq (congrArg (fun p => fetch.accesses p + 4) (hparams hcaller))
    all_goals exact Nat.le_refl _

/-- **A disconnect request is answered** in a lap of the pump. -/
theorem Asked.answered {log : List ChannelEvent} (h : s.Asked b log) {is : List ChannelStep}
    (hclose : .close ∉ is) (hlap : lap ≤ is.count .run) : (is.foldl (step b) s).Answered log := by
  refine goal_of_ticks (P := Asked b log) (Answered log) (· ≠ .close) (· == ChannelStep.run)
    disconnectsIn (fun _ i hs => hs.step i) ?_ h ?_ (Nat.lt_of_lt_of_le h.disconnectsIn_lt hlap)
  · intro s i hs hi
    by_cases hrun : i = .run
    · subst hrun
      exact hs.pump
    · obtain ⟨hs', hnear⟩ := hs.call hrun hi
      exact .inr ⟨hs', by simpa [hrun] using hnear⟩
  · exact fun i hi h => hclose (h ▸ hi)

/-! ## The whole channel -/

theorem Kept.faithful (h : s.Kept b) : s.Faithful b where
  once := h.sound.once_passed
  inOrder hnot := by
    obtain ⟨lost, hlost, -⟩ := h.sdus hnot
    exact ⟨lost, hlost.symm⟩
  passes hclosed hnot is hclose hdisconnect hlap := by
    obtain ⟨lost, hlost, hrest⟩ := h.sdus hnot
    rw [hrest hclosed] at hlost
    by_cases hwait : s.pc.isReset = true ∧ s.mem.slot .l2capSendReq ≠ 0
    · rw [awaited, if_pos hwait] at hlost
      have hwaiting : s.Waiting b (accepted s.log) :=
        ⟨h.sound, hwait.1, hwait.2, h.quiet hnot, hlost⟩
      exact hwaiting.passes hclose hdisconnect hlap
    · rw [awaited, if_neg hwait, List.nil_append] at hlost
      rw [hlost]
      exact foldl_keeps (P := fun t : Channel => passed s.log <:+ passed t.log)
        (fun _ i _ => passed_step i) List.suffix_rfl
  disconnects hclosed hun is hclose hlap := by
    obtain ⟨hloop, hreq⟩ := h.asked hun hclosed
    have hasked : s.Asked b s.log := ⟨h.sound, hloop, hreq, [], rfl⟩
    exact hasked.answered hclose hlap

/-- The pump alone. -/
def alone (n : Nat) : List ChannelStep := List.replicate n .run

theorem notMem_alone {n : Nat} {i : ChannelStep} (h : i ≠ .run) : i ∉ alone n :=
  fun hi => h (List.eq_of_mem_replicate hi)

theorem count_alone {n : Nat} : (alone n).count .run = n := List.count_replicate_self

theorem foldl_alone {P : Channel → Prop} (hpump : ∀ t, P t → P (t.pump b)) (n : Nat) (h : P s) :
    P ((alone n).foldl (step b) s) := by
  refine foldl_keeps ?_ h
  intro t i hi ht
  cases List.eq_of_mem_replicate hi
  exact hpump t ht

/-- A pump that finds no SDU passes none on. -/
structure Idle (sdus : List (List UInt8)) (s : Channel) : Prop where
  free : s.mem.slot .l2capSendReq = 0
  reading : ∀ fetch, s.pc ≠ .reading fetch
  sdus : passed s.log = sdus

theorem Idle.pump {sdus : List (List UInt8)} (h : s.Idle sdus) : (s.pump b).Idle sdus := by
  unfold Channel.pump
  split
  case h_4 => exact ⟨h.free, by cases s.disconnectReq <;> simp, h.sdus⟩
  case h_6 =>
    rw [if_neg (not_not_intro h.free)]
    exact ⟨h.free, by simp, h.sdus⟩
  case h_7 hpc => exact absurd hpc (h.reading _)
  case h_8 hpc => exact absurd hpc (h.reading _)
  case h_11 => exact h
  case h_2 | h_5 => exact ⟨freed_slot, by simp, h.sdus⟩
  all_goals exact ⟨h.free, by simp, h.sdus⟩

/-- Before the reset of `L2CAP_SEND_REQ` nothing that is accepted is passed
on. -/
theorem passed_of_opened (h : s.pc = .opened) (n : Nat) :
    passed ((alone n).foldl (step b) s).log = passed s.log := by
  cases n with
  | zero => rfl
  | succ n =>
      have hpump : s.pump b = { s with mem := s.freed, pc := .clearing } := by rw [pump, h]
      have hidle : (s.pump b).Idle (passed s.log) := by
        rw [hpump]
        exact ⟨freed_slot, by simp, rfl⟩
      have hlater := foldl_alone (P := Idle (passed s.log)) (fun _ => Idle.pump (b := b)) n hidle
      exact hlater.sdus

/-- A pump that has no disconnect request does not disconnect. -/
structure Quiet (n : Nat) (s : Channel) : Prop where
  request : s.disconnectReq = false
  pc : s.pc ≠ .disconnecting
  count : s.log.count .disconnected = n

theorem Quiet.pump {n : Nat} (h : s.Quiet n) : (s.pump b).Quiet n := by
  unfold Channel.pump
  split
  case h_3 => exact ⟨rfl, by simp, h.count⟩
  case h_4 =>
    rw [h.request]
    exact ⟨rfl, by simp, h.count⟩
  case h_5 hpc => exact absurd hpc h.pc
  case h_6 => exact ⟨h.request, by split <;> simp, h.count⟩
  case h_7 bytes _ =>
    refine ⟨h.request, by simp, ?_⟩
    rw [List.count_cons_of_ne ChannelEvent.noConfusion]
    exact h.count
  case h_11 => exact h
  all_goals exact ⟨h.request, by simp, h.count⟩

/-- Before the reset of `L2CAP_DISCONNECT_REQ` no request is answered. -/
theorem count_disconnected_of_clearing (h : s.pc = .clearing) (n : Nat) :
    ((alone n).foldl (step b) s).log.count .disconnected = s.log.count .disconnected := by
  cases n with
  | zero => rfl
  | succ n =>
      have hpump : (s.pump b).Quiet (s.log.count .disconnected) := by
        rw [pump, h]
        exact ⟨rfl, by simp, rfl⟩
      have hlater :=
        foldl_alone (P := Quiet (s.log.count .disconnected)) (fun _ => Quiet.pump (b := b)) n hpump
      exact hlater.count

theorem count_disconnected_of_opened (h : s.pc = .opened) (n : Nat) :
    ((alone n).foldl (step b) s).log.count .disconnected = s.log.count .disconnected := by
  cases n with
  | zero => rfl
  | succ n =>
      have hpump : s.pump b = { s with mem := s.freed, pc := .clearing } := by rw [pump, h]
      have hclearing : (s.pump b).pc = .clearing := by rw [hpump]
      apply (count_disconnected_of_clearing hclearing n).trans
      rw [hpump]

/-- What a step does not do in time is lost. -/
theorem Kept.inTime_of_faithful (h : s.Kept b) {i : ChannelStep}
    (hfaithful : (s.step b i).Faithful b) : s.InTime b i := by
  cases i with
  | run | enter data | close => trivial
  | act =>
      intro hopen hnot c hc htodo
      have hact : s.act = { s.requested c with log := .accepted c.sdu :: s.log } := by
        have hstep : s.act = (s.requested c).record (.accepted c.sdu) := by
          simp [Channel.act, hc, htodo]
        rw [hstep]
        exact record_of_open (s.requested c) hopen
      -- were it not in time, the SDU would be missing behind a lap of the pump alone
      have hclosed : s.pc ≠ .closed := fun hpc => by rw [hpc] at hopen; cases hopen
      have hpasses : accepted s.act.log
          <:+ passed ((alone lap).foldl (Channel.step b) s.act).log := by
        refine hfaithful.passes ?_ ?_ (alone lap) (notMem_alone (by simp)) (notMem_alone (by simp))
          (Nat.le_of_eq count_alone.symm)
        · show s.act.pc ≠ .closed
          rw [hact]
          exact hclosed
        · show .disconnectAccepted ∉ s.act.log
          rw [hact, List.mem_cons, not_or]
          exact ⟨ChannelEvent.noConfusion, hnot⟩
      have haccepted : accepted s.act.log = c.sdu :: accepted s.log := by rw [hact]; rfl
      constructor
      · -- before the reset as many are passed on as were, one fewer than accepted
        by_contra hreset
        have hpc : s.act.pc = .opened := by
          rw [hact]
          show s.pc = .opened
          revert hopen hreset
          cases s.pc <;> simp [PumpPc.isOpen, PumpPc.isReset]
        obtain ⟨lost, hlost, -⟩ := h.sdus hnot
        have hsame : passed s.act.log = passed s.log := by rw [hact]; rfl
        have hlen := hpasses.length_le
        rw [passed_of_opened hpc lap, hsame, haccepted, hlost] at hlen
        simp only [List.length_cons, List.length_append] at hlen
        omega
      · -- what is passed on is cut, so the SDU itself fits
        have hsound : ((alone lap).foldl (Channel.step b) s.act).Sound b :=
          foldl_keeps (fun t i _ ht => ht.step i) h.sound.act
        have hmem : c.sdu ∈ passed ((alone lap).foldl (Channel.step b) s.act).log :=
          hpasses.subset (haccepted ▸ List.mem_cons_self)
        obtain ⟨sdu, -, hcut⟩ := List.mem_map.mp (hsound.once_passed.subset hmem)
        rw [← hcut]
        exact List.length_take_le ..
  | disconnect =>
      intro hb hopen
      by_contra hloop
      -- before the loop the flag is reset, and nothing answers the request
      have hpc : s.pc = .opened ∨ s.pc = .clearing := by
        revert hopen hloop
        cases s.pc <;> simp [PumpPc.isOpen, PumpPc.isLooping]
      have hstep : s.step b .disconnect
          = { s with disconnectReq := true, log := .disconnectAccepted :: s.log } := by
        rw [Channel.step, Channel.disconnect, if_pos hb]
        exact record_of_open { s with disconnectReq := true } hopen
      have hpc' : (s.step b .disconnect).pc = .opened ∨ (s.step b .disconnect).pc = .clearing := by
        rw [hstep]
        exact hpc
      have hclosed : (s.step b .disconnect).pc ≠ .closed := by
        rcases hpc' with hpc' | hpc' <;> rw [hpc'] <;> simp
      have hun : Unanswered (s.step b .disconnect).log := by
        rw [hstep]
        exact unanswered_disconnectAccepted
      obtain ⟨later, hlater, hmem⟩ := hfaithful.disconnects hclosed hun (alone lap)
        (notMem_alone (by simp)) (Nat.le_of_eq count_alone.symm)
      have hcount := congrArg (List.count .disconnected) hlater
      have hnone : ((alone lap).foldl (Channel.step b) (s.step b .disconnect)).log.count
          .disconnected = (s.step b .disconnect).log.count .disconnected := by
        rcases hpc' with hpc' | hpc'
        · exact count_disconnected_of_opened hpc' lap
        · exact count_disconnected_of_clearing hpc' lap
      rw [List.count_append, hnone] at hcount
      have hpos := List.count_pos_iff.mpr hmem
      omega

/-- **The requests on a channel are served**, where one channel is open and
one caller is at work at a time, in exactly the runs whose steps come in time:
no SDU is accepted before the reset of `L2CAP_SEND_REQ` or longer than a
value, unless a disconnect request came first, and no disconnect request
before the reset of `L2CAP_DISCONNECT_REQ`. -/
theorem l2cap_requests_served_iff (b : Build) (mem : ReqMem) (disconnectReq : Bool)
    (is : List ChannelStep) :
    Always (step b) (Faithful b) (entered mem disconnectReq) is
      ↔ EachStep (step b) (InTime b) (entered mem disconnectReq) is :=
  always_iff_eachStep (P := Kept b) (fun _ h => h.faithful) (fun _ i h htime => h.step i htime)
    (fun _ _ h hfaithful => h.inTime_of_faithful hfaithful) is _ (.entered mem disconnectReq)

/-- A build with channels. -/
def l2capBuild : Build := { l2cap := true }

/-- `on_l2cap_connected` calls `runtime_ble_l2cap_send`. -/
def sendInCallback : List ChannelStep := [.run, .enter (some [0xaa]), .act, .act, .act]

/-- It calls `runtime_ble_l2cap_disconnect`. -/
def disconnectInCallback : List ChannelStep := [.run, .disconnect]

/-- A run from where `l2cap_serve` is entered. -/
def calledBack (is : List ChannelStep) : Channel :=
  is.foldl (step l2capBuild) (entered bootMem false)

/-- What is accepted from inside `on_l2cap_connected` is lost: however long
the pump goes on, the SDU is not passed on, and the writer does not
disconnect. -/
theorem request_in_callback_lost :
    (¬ Always (step l2capBuild) (Faithful l2capBuild) (entered bootMem false) sendInCallback
      ∧ accepted (calledBack sendInCallback).log = [[0xaa]]
      ∧ ∀ n, passed ((alone n).foldl (step l2capBuild) (calledBack sendInCallback)).log = [])
    ∧ (¬ Always (step l2capBuild) (Faithful l2capBuild) (entered bootMem false) disconnectInCallback
      ∧ (calledBack disconnectInCallback).log = [.disconnectAccepted]
      ∧ ∀ n, ((alone n).foldl (step l2capBuild) (calledBack disconnectInCallback)).log.count
          .disconnected = 0) := by
  have hsend : ∀ n,
      passed ((alone n).foldl (step l2capBuild) (calledBack sendInCallback)).log = [] :=
    passed_of_opened rfl
  have hdisconnect : ∀ n, ((alone n).foldl (step l2capBuild)
      (calledBack disconnectInCallback)).log.count .disconnected = 0 :=
    count_disconnected_of_opened rfl
  refine ⟨⟨fun h => ?_, rfl, hsend⟩, fun h => ?_, rfl, hdisconnect⟩
  · have hlast : (calledBack sendInCallback).Faithful l2capBuild := h.foldl
    have hpc : (calledBack sendInCallback).pc = .opened := rfl
    have hpasses := hlast.passes (by simp [hpc]) (by decide) (alone lap) (notMem_alone (by simp))
      (notMem_alone (by simp)) (Nat.le_of_eq count_alone.symm)
    have hlen := hpasses.length_le
    rw [hsend lap] at hlen
    exact absurd hlen (by decide)
  · have hlast : (calledBack disconnectInCallback).Faithful l2capBuild := h.foldl
    have hpc : (calledBack disconnectInCallback).pc = .opened := rfl
    obtain ⟨later, hlater, hmem⟩ := hlast.disconnects (by simp [hpc]) unanswered_disconnectAccepted
      (alone lap) (notMem_alone (by simp)) (Nat.le_of_eq count_alone.symm)
    have hcount := congrArg (List.count .disconnected) hlater
    rw [List.count_append, hdisconnect lap] at hcount
    have hpos := List.count_pos_iff.mpr hmem
    omega

end Channel

end RuntimeBle.Link
