import Mathlib.Data.List.Basic

/-!
# Lib — Dialogue

Programs that ask questions of someone else, who may take their time over
an answer, and emit events as they go. What a program does between two
questions is `flush`ed at once.

`Quiet` and `Once` are about the events that `sel` picks: no run emits one,
and every run that comes to its end emits exactly one, with `P`. `Plays` is
a part of a run, with all that is said in it; `Ensures` is about the runs to
the end, whatever the answers, and `run` is the one that is answered by a
function, `runWith` by one with a state.
-/

namespace RuntimeBle.Lib

/-- What a program says and asks until it returns, as a tree of the answers. -/
inductive Dialogue (Q : Type) (A : Q → Type) (E R : Type) : Type
  | ret (r : R)
  | emit (e : E) (next : Dialogue Q A E R)
  | ask (q : Q) (next : A q → Dialogue Q A E R)

variable {Q E R R' X α : Type} {A : Q → Type}

namespace Dialogue

/-- One dialogue and then another. -/
def bind (d : Dialogue Q A E R) (f : R → Dialogue Q A E R') : Dialogue Q A E R' :=
  match d with
  | ret r => f r
  | emit e next => emit e (next.bind f)
  | ask q next => ask q fun a => (next a).bind f

/-- `for x in xs { .. }` with a value carried along. -/
def forEach (xs : List α) (r : R) (body : α → R → Dialogue Q A E R) : Dialogue Q A E R :=
  match xs with
  | [] => ret r
  | x :: xs => (body x r).bind fun r => forEach xs r body

/-- The events up to the next question or the end, and what is left. -/
def flush : Dialogue Q A E R → List E × Dialogue Q A E R
  | emit e next => (e :: next.flush.1, next.flush.2)
  | d => ([], d)

/-- The events are emitted first. -/
def emits (es : List E) (d : Dialogue Q A E R) : Dialogue Q A E R := es.foldr emit d

/-! ## Selected events -/

variable (sel : E → Option X) (P : X → Prop)

/-- Nothing that `sel` selects is said, whatever the answers. -/
inductive Quiet : Dialogue Q A E R → Prop
  | ret {r : R} : Quiet (ret r)
  | emit {e : E} {d : Dialogue Q A E R} (he : sel e = none) (h : Quiet d) : Quiet (emit e d)
  | ask {q : Q} {next : A q → Dialogue Q A E R} (h : ∀ a, Quiet (next a)) : Quiet (ask q next)

/-- One such thing is said, whatever the answers, and it satisfies `P`. -/
inductive Once : Dialogue Q A E R → Prop
  | here {e : E} {x : X} {d : Dialogue Q A E R} (he : sel e = some x) (hx : P x)
      (h : Quiet sel d) : Once (emit e d)
  | emit {e : E} {d : Dialogue Q A E R} (he : sel e = none) (h : Once d) : Once (emit e d)
  | ask {q : Q} {next : A q → Dialogue Q A E R} (h : ∀ a, Once (next a)) : Once (ask q next)

variable {sel P} {d : Dialogue Q A E R} {f : R → Dialogue Q A E R'}

theorem Quiet.bind (hd : Quiet sel d) (hf : ∀ r, Quiet sel (f r)) : Quiet sel (d.bind f) := by
  induction hd with
  | ret => exact hf _
  | emit he _ ih => exact .emit he ih
  | ask _ ih => exact .ask ih

/-- **The sequencing rule**: nothing is selected before, one event behind. -/
theorem Quiet.bind_once (hd : Quiet sel d) (hf : ∀ r, Once sel P (f r)) :
    Once sel P (d.bind f) := by
  induction hd with
  | ret => exact hf _
  | emit he _ ih => exact .emit he ih
  | ask _ ih => exact .ask ih

theorem Quiet.forEach {body : α → R → Dialogue Q A E R} (h : ∀ x r, Quiet sel (body x r))
    (xs : List α) (r : R) : Quiet sel (Dialogue.forEach xs r body) := by
  induction xs generalizing r with
  | nil => exact .ret
  | cons x xs ih => exact (h x r).bind ih

theorem Quiet.emits {es : List E} (hes : ∀ e ∈ es, sel e = none) (hd : Quiet sel d) :
    Quiet sel (d.emits es) := by
  induction es with
  | nil => exact hd
  | cons e es ih =>
      exact .emit (hes e List.mem_cons_self) (ih fun e' he' => hes e' (List.mem_cons_of_mem _ he'))

theorem Once.emits {es : List E} (hes : ∀ e ∈ es, sel e = none) (hd : Once sel P d) :
    Once sel P (d.emits es) := by
  induction es with
  | nil => exact hd
  | cons e es ih =>
      exact .emit (hes e List.mem_cons_self) (ih fun e' he' => hes e' (List.mem_cons_of_mem _ he'))

theorem Once.mono {P' : X → Prop} (h : Once sel P d) (himp : ∀ x, P x → P' x) :
    Once sel P' d := by
  induction h with
  | here he hx h => exact .here he (himp _ hx) h
  | emit he _ ih => exact .emit he ih
  | ask _ ih => exact .ask ih

theorem Once.say {e : E} {x : X} {r : R} (he : sel e = some x) (hx : P x) :
    Once sel P (Dialogue.emit e (Dialogue.ret r) : Dialogue Q A E R) :=
  .here he hx .ret

/-! ## Flushing -/

theorem Quiet.flush (h : Quiet sel d) :
    d.flush.1.filterMap sel = [] ∧ Quiet sel d.flush.2 := by
  induction h with
  | ret => exact ⟨rfl, .ret⟩
  | emit he _ ih => exact ⟨(List.filterMap_cons_none he).trans ih.1, ih.2⟩
  | ask h => exact ⟨rfl, .ask h⟩

/-- **The flushing rule**: the one event is still to come, or it has been
emitted and none is left. -/
theorem Once.flush (h : Once sel P d) :
    (d.flush.1.filterMap sel = [] ∧ Once sel P d.flush.2)
    ∨ ∃ x, P x ∧ d.flush.1.filterMap sel = [x] ∧ Quiet sel d.flush.2 := by
  induction h with
  | here he hx h =>
      refine .inr ⟨_, hx, ?_, h.flush.2⟩
      exact (List.filterMap_cons_some he).trans (congrArg _ h.flush.1)
  | emit he _ ih =>
      rcases ih with ⟨hnone, honce⟩ | ⟨x, hx, hone, hquiet⟩
      · exact .inl ⟨(List.filterMap_cons_none he).trans hnone, honce⟩
      · exact .inr ⟨x, hx, (List.filterMap_cons_none he).trans hone, hquiet⟩
  | ask h => exact .inl ⟨rfl, .ask h⟩

/-- What is at its end has emitted it. -/
theorem not_once_ret {r : R} : ¬ Once sel P (ret r : Dialogue Q A E R) := nofun

/-- A flushed program is at its end or waits for an answer. -/
theorem flush_cases (d : Dialogue Q A E R) :
    (∃ r, d.flush.2 = ret r) ∨ ∃ q next, d.flush.2 = ask q next := by
  induction d with
  | ret r => exact .inl ⟨r, rfl⟩
  | emit e next ih => exact ih
  | ask q next => exact .inr ⟨q, next, rfl⟩

/-! ## Runs -/

/-- A line of a run: an event, or a question with its answer. -/
inductive Line (Q : Type) (A : Q → Type) (E : Type) : Type
  | said (e : E)
  | answered (q : Q) (a : A q)

/-- `Plays d ls d'`: by the lines `ls`, `d` comes to `d'`. -/
inductive Plays : Dialogue Q A E R → List (Line Q A E) → Dialogue Q A E R → Prop
  | refl {d : Dialogue Q A E R} : Plays d [] d
  | emit {e : E} {next d' : Dialogue Q A E R} {ls : List (Line Q A E)} (h : Plays next ls d') :
      Plays (emit e next) (.said e :: ls) d'
  | ask {q : Q} {next : A q → Dialogue Q A E R} {d' : Dialogue Q A E R}
      {ls : List (Line Q A E)} (a : A q) (h : Plays (next a) ls d') :
      Plays (ask q next) (.answered q a :: ls) d'

theorem Plays.trans {d₁ d₂ d₃ : Dialogue Q A E R} {ls ls' : List (Line Q A E)}
    (h : Plays d₁ ls d₂) (h' : Plays d₂ ls' d₃) : Plays d₁ (ls ++ ls') d₃ := by
  induction h with
  | refl => exact h'
  | emit _ ih => exact .emit (ih h')
  | ask a _ ih => exact .ask a (ih h')

theorem plays_flush (d : Dialogue Q A E R) : Plays d (d.flush.1.map .said) d.flush.2 := by
  induction d with
  | ret r => exact .refl
  | emit e next ih => exact .emit ih
  | ask q next => exact .refl

theorem plays_ret {r r' : R} {ls : List (Line Q A E)}
    (h : Plays (ret r : Dialogue Q A E R) ls (ret r')) : ls = [] ∧ r' = r := by
  cases h
  exact ⟨rfl, rfl⟩

/-- A run of a sequence is taken apart where the second program begins. -/
theorem plays_bind {d : Dialogue Q A E R} {f : R → Dialogue Q A E R'} {r' : R'}
    {ls : List (Line Q A E)} (h : Plays (d.bind f) ls (ret r')) :
    ∃ ls₁ ls₂ r, ls = ls₁ ++ ls₂ ∧ Plays d ls₁ (ret r) ∧ Plays (f r) ls₂ (ret r') := by
  induction d generalizing ls with
  | ret r => exact ⟨[], ls, r, rfl, .refl, h⟩
  | emit e next ih =>
      cases h with
      | emit h =>
          obtain ⟨ls₁, ls₂, r, rfl, h₁, h₂⟩ := ih h
          exact ⟨_ :: ls₁, ls₂, r, rfl, .emit h₁, h₂⟩
  | ask q next ih =>
      cases h with
      | ask a h =>
          obtain ⟨ls₁, ls₂, r, rfl, h₁, h₂⟩ := ih a h
          exact ⟨_ :: ls₁, ls₂, r, rfl, .ask a h₁, h₂⟩

/-- No part of a run says what is selected. -/
theorem Quiet.of_plays {d d' : Dialogue Q A E R} {ls : List (Line Q A E)} (h : Quiet sel d)
    (hplays : Plays d ls d') {e : E} (he : .said e ∈ ls) : sel e = none := by
  induction hplays with
  | refl => cases he
  | emit _ ih =>
      cases h with
      | emit hnone h =>
          rcases List.mem_cons.mp he with heq | he
          · cases heq
            exact hnone
          · exact ih h he
  | ask a _ ih =>
      cases h with
      | ask h =>
          rcases List.mem_cons.mp he with heq | he
          · cases heq
          · exact ih (h a) he

/-- What is selected in a part of a run has `P`. -/
theorem Once.of_plays {d d' : Dialogue Q A E R} {ls : List (Line Q A E)} (h : Once sel P d)
    (hplays : Plays d ls d') {e : E} {x : X} (he : .said e ∈ ls) (hx : sel e = some x) : P x := by
  induction hplays with
  | refl => cases he
  | emit hplays ih =>
      cases h with
      | here hsome hP h =>
          rcases List.mem_cons.mp he with heq | he
          · cases heq
            rw [hsome] at hx
            cases hx
            exact hP
          · rw [h.of_plays hplays he] at hx
            cases hx
      | emit hnone h =>
          rcases List.mem_cons.mp he with heq | he
          · cases heq
            rw [hnone] at hx
            cases hx
          · exact ih h he
  | ask a _ ih =>
      cases h with
      | ask h =>
          rcases List.mem_cons.mp he with heq | he
          · cases heq
          · exact ih (h a) he

/-! ## What may be asked -/

/-- Nothing is asked but with `P`. -/
inductive Asks (P : Q → Prop) : Dialogue Q A E R → Prop
  | ret {r : R} : Asks P (ret r)
  | emit {e : E} {d : Dialogue Q A E R} (h : Asks P d) : Asks P (emit e d)
  | ask {q : Q} {next : A q → Dialogue Q A E R} (hq : P q) (h : ∀ a, Asks P (next a)) :
      Asks P (ask q next)

section Asking

variable {P : Q → Prop} {d : Dialogue Q A E R}

theorem Asks.bind {f : R → Dialogue Q A E R'} (hd : Asks P d) (hf : ∀ r, Asks P (f r)) :
    Asks P (d.bind f) := by
  induction hd with
  | ret => exact hf _
  | emit _ ih => exact .emit ih
  | ask hq _ ih => exact .ask hq ih

theorem Asks.forEach {body : α → R → Dialogue Q A E R} (h : ∀ x r, Asks P (body x r))
    (xs : List α) (r : R) : Asks P (Dialogue.forEach xs r body) := by
  induction xs generalizing r with
  | nil => exact .ret
  | cons x xs ih => exact (h x r).bind ih

theorem Asks.emits {es : List E} (hd : Asks P d) : Asks P (d.emits es) := by
  induction es with
  | nil => exact hd
  | cons e es ih => exact .emit ih

theorem Asks.mono {P' : Q → Prop} (h : Asks P d) (himp : ∀ q, P q → P' q) : Asks P' d := by
  induction h with
  | ret => exact .ret
  | emit _ ih => exact .emit ih
  | ask hq _ ih => exact .ask (himp _ hq) ih

theorem Asks.of_plays {d' : Dialogue Q A E R} {ls : List (Line Q A E)} (h : Asks P d)
    (hplays : Plays d ls d') : ∀ q a, .answered q a ∈ ls → P q := by
  induction hplays with
  | refl =>
      intro q a hmem
      cases hmem
  | emit _ ih =>
      intro q a hmem
      cases h with
      | emit h =>
          rcases List.mem_cons.mp hmem with heq | hmem
          · cases heq
          · exact ih h q a hmem
  | ask a' _ ih =>
      intro q a hmem
      cases h with
      | ask hq h =>
          rcases List.mem_cons.mp hmem with heq | hmem
          · cases heq
            exact hq
          · exact ih (h a') q a hmem

end Asking

/-! ## Scripts -/

/-- A line without its answer. -/
def Line.shape : Line Q A E → E ⊕ Q
  | said e => .inl e
  | answered q _ => .inr q

/-- Whatever is answered, `d` says and asks what is in the script. -/
inductive Follows : List (E ⊕ Q) → Dialogue Q A E R → Prop
  | ret {r : R} : Follows [] (ret r)
  | emit {es : List (E ⊕ Q)} {e : E} {d : Dialogue Q A E R} (h : Follows es d) :
      Follows (.inl e :: es) (emit e d)
  | ask {es : List (E ⊕ Q)} {q : Q} {next : A q → Dialogue Q A E R}
      (h : ∀ a, Follows es (next a)) : Follows (.inr q :: es) (ask q next)

theorem Follows.bind {es es' : List (E ⊕ Q)} {d : Dialogue Q A E R} {f : R → Dialogue Q A E R'}
    (hd : Follows es d) (hf : ∀ r, Follows es' (f r)) : Follows (es ++ es') (d.bind f) := by
  induction hd with
  | ret => exact hf _
  | emit _ ih => exact .emit ih
  | ask _ ih => exact .ask ih

theorem Follows.forEach {script : α → List (E ⊕ Q)} {body : α → R → Dialogue Q A E R}
    (h : ∀ x r, Follows (script x) (body x r)) (xs : List α) (r : R) :
    Follows (xs.flatMap script) (Dialogue.forEach xs r body) := by
  induction xs generalizing r with
  | nil => exact .ret
  | cons x xs ih => exact (h x r).bind ih

/-- Every part of a run is a part of the script, from its beginning. -/
theorem Follows.of_plays {es : List (E ⊕ Q)} {d d' : Dialogue Q A E R} {ls : List (Line Q A E)}
    (h : Follows es d) (hplays : Plays d ls d') : ls.map Line.shape <+: es := by
  induction hplays generalizing es with
  | refl => exact List.nil_prefix
  | emit _ ih =>
      cases h with
      | emit h => exact List.cons_prefix_cons.mpr ⟨rfl, ih h⟩
  | ask a _ ih =>
      cases h with
      | ask h => exact List.cons_prefix_cons.mpr ⟨rfl, ih (h a)⟩

/-! ## Whole runs -/

/-- Every run of `d` to its end leaves lines and a result as `post` has it. -/
def Ensures (d : Dialogue Q A E R) (post : List (Line Q A E) → R → Prop) : Prop :=
  ∀ ls r, Plays d ls (ret r) → post ls r

section Rules

variable {d : Dialogue Q A E R} {post mid : List (Line Q A E) → R → Prop}
  {post' : List (Line Q A E) → R' → Prop}

theorem Ensures.mono (h : d.Ensures mid) (himp : ∀ ls r, mid ls r → post ls r) :
    d.Ensures post :=
  fun ls r hplays => himp ls r (h ls r hplays)

theorem Ensures.ret {r : R} (h : post [] r) : (Dialogue.ret r : Dialogue Q A E R).Ensures post := by
  intro ls r' hplays
  obtain ⟨rfl, rfl⟩ := plays_ret hplays
  exact h

theorem Ensures.emit {e : E} (h : d.Ensures fun ls r => post (.said e :: ls) r) :
    (Dialogue.emit e d).Ensures post := by
  intro ls r hplays
  cases hplays with
  | emit hplays => exact h _ r hplays

theorem Ensures.ask {q : Q} {next : A q → Dialogue Q A E R}
    (h : ∀ a, (next a).Ensures fun ls r => post (.answered q a :: ls) r) :
    (Dialogue.ask q next).Ensures post := by
  intro ls r hplays
  cases hplays with
  | ask a hplays => exact h a _ r hplays

/-- **The rule of sequences.** -/
theorem Ensures.bind {f : R → Dialogue Q A E R'} (h : d.Ensures mid)
    (hf : ∀ ls r, mid ls r → (f r).Ensures fun ls' r' => post' (ls ++ ls') r') :
    (d.bind f).Ensures post' := by
  intro ls r' hplays
  obtain ⟨ls₁, ls₂, r, rfl, h₁, h₂⟩ := plays_bind hplays
  exact hf ls₁ r (h ls₁ r h₁) ls₂ r' h₂

/-- **The rule of loops**, with what holds behind the rounds `done`. -/
theorem Ensures.forEach {body : α → R → Dialogue Q A E R}
    (inv : List α → List (Line Q A E) → R → Prop) {xs : List α} {r : R} (hinit : inv [] [] r)
    (hbody : ∀ done x left ls r, xs = done ++ x :: left → inv done ls r →
      (body x r).Ensures fun ls' r' => inv (done ++ [x]) (ls ++ ls') r') :
    (Dialogue.forEach xs r body).Ensures (inv xs) := by
  have hrest : ∀ (left done : List α) (ls : List (Line Q A E)) (r : R), xs = done ++ left →
      inv done ls r →
      (Dialogue.forEach left r body).Ensures fun ls' r' => inv xs (ls ++ ls') r' := by
    intro left
    induction left with
    | nil =>
        intro done ls r hxs h
        rw [List.append_nil] at hxs
        refine .ret ?_
        rw [List.append_nil, hxs]
        exact h
    | cons x left ih =>
        intro done ls r hxs h
        refine (hbody done x left ls r hxs h).bind fun ls₁ r₁ h₁ => ?_
        have hxs' : xs = done ++ [x] ++ left := by rw [hxs, List.append_assoc]; rfl
        refine (ih (done ++ [x]) (ls ++ ls₁) r₁ hxs' h₁).mono fun ls₂ r₂ h₂ => ?_
        rwa [List.append_assoc] at h₂
  exact hrest xs [] [] r rfl hinit

theorem Ensures.emits {es : List E}
    (h : d.Ensures fun ls r => post (es.map .said ++ ls) r) : (d.emits es).Ensures post := by
  induction es generalizing post with
  | nil => exact h
  | cons e es ih => exact .emit (ih h)

end Rules

/-- The run in which `answer` answers. -/
def run (answer : (q : Q) → A q) : Dialogue Q A E R → List (Line Q A E) × R
  | ret r => ([], r)
  | emit e next => (.said e :: (next.run answer).1, (next.run answer).2)
  | ask q next =>
      (.answered q (answer q) :: ((next (answer q)).run answer).1,
        ((next (answer q)).run answer).2)

section Answered

variable (answer : (q : Q) → A q)

/-- **A program comes to its end**, whoever answers. -/
theorem plays_run (d : Dialogue Q A E R) :
    Plays d (d.run answer).1 (ret (d.run answer).2) := by
  induction d with
  | ret r => exact .refl
  | emit e next ih => exact .emit ih
  | ask q next ih => exact .ask _ (ih _)

theorem answered_run {d : Dialogue Q A E R} {q : Q} {a : A q}
    (h : .answered q a ∈ (d.run answer).1) : a = answer q := by
  induction d with
  | ret r => cases h
  | emit e next ih =>
      rcases List.mem_cons.mp h with heq | h
      · cases heq
      · exact ih h
  | ask q' next ih =>
      rcases List.mem_cons.mp h with heq | h
      · cases heq
        rfl
      · exact ih _ h

theorem run_bind (d : Dialogue Q A E R) (f : R → Dialogue Q A E R') :
    ((d.bind f).run answer).2 = ((f (d.run answer).2).run answer).2 := by
  induction d with
  | ret r => rfl
  | emit e next ih => exact ih
  | ask q next ih => exact ih _

theorem run_forEach (xs : List α) (r : R) (body : α → R → Dialogue Q A E R) :
    ((forEach xs r body).run answer).2
      = xs.foldl (fun r x => ((body x r).run answer).2) r := by
  induction xs generalizing r with
  | nil => rfl
  | cons x xs ih =>
      rw [forEach, run_bind, List.foldl_cons]
      exact ih _

/-- The events of the run in which `answer` answers. -/
def heard : Dialogue Q A E R → List E
  | ret _ => []
  | emit e next => e :: next.heard
  | ask q next => (next (answer q)).heard

theorem heard_bind (d : Dialogue Q A E R) (f : R → Dialogue Q A E R') :
    (d.bind f).heard answer = d.heard answer ++ (f (d.run answer).2).heard answer := by
  induction d with
  | ret r => rfl
  | emit e next ih => exact congrArg (e :: ·) ih
  | ask q next ih => exact ih _

/-- Rounds that say the same whatever is carried along. -/
theorem heard_forEach {body : α → R → Dialogue Q A E R} {es : α → List E} {xs : List α}
    (h : ∀ x ∈ xs, ∀ r, (body x r).heard answer = es x) (r : R) :
    (forEach xs r body).heard answer = xs.flatMap es := by
  induction xs generalizing r with
  | nil => rfl
  | cons x xs ih =>
      rw [forEach, heard_bind, h x List.mem_cons_self, List.flatMap_cons,
        ih fun x' hx' => h x' (List.mem_cons_of_mem _ hx')]

end Answered

/-! ## Answers from a state -/

section Stateful

variable {S Z : Type} (answer : S → (q : Q) → S × A q)

/-- The run in which an answerer answers that has a state: the lines, the
state it is left in, and the result. -/
def runWith (d : Dialogue Q A E R) (s : S) : List (Line Q A E) × S × R :=
  match d with
  | ret r => ([], s, r)
  | emit e next => (.said e :: (next.runWith s).1, (next.runWith s).2)
  | ask q next =>
      let out := (next (answer s q).2).runWith (answer s q).1
      (.answered q (answer s q).2 :: out.1, out.2)

theorem plays_runWith (d : Dialogue Q A E R) :
    ∀ s, Plays d (d.runWith answer s).1 (ret (d.runWith answer s).2.2) := by
  induction d with
  | ret r => exact fun _ => .refl
  | emit e next ih => exact fun s => .emit (ih s)
  | ask q next ih => exact fun s => .ask _ (ih _ _)

theorem runWith_bind (d : Dialogue Q A E R) (f : R → Dialogue Q A E R') (s : S) :
    (d.bind f).runWith answer s
      = ((d.runWith answer s).1
          ++ ((f (d.runWith answer s).2.2).runWith answer (d.runWith answer s).2.1).1,
        ((f (d.runWith answer s).2.2).runWith answer (d.runWith answer s).2.1).2) := by
  induction d generalizing s with
  | ret r => rfl
  | emit e next ih => simp only [bind, runWith, ih, List.cons_append]
  | ask q next ih => simp only [bind, runWith, ih, List.cons_append]

/-- Questions that leave the state alone. -/
theorem Asks.state_runWith {d : Dialogue Q A E R}
    (h : Asks (fun q => ∀ s, (answer s q).1 = s) d) (s : S) : (d.runWith answer s).2.1 = s := by
  induction h generalizing s with
  | ret => rfl
  | emit _ ih => exact ih s
  | ask hq _ ih =>
      rename_i q next _
      show ((next (answer s q).2).runWith answer (answer s q).1).2.1 = s
      rw [ih, hq]

/-- What is answered is answered from some state. -/
theorem answered_runWith {d : Dialogue Q A E R} {s : S} {q : Q} {a : A q}
    (h : .answered q a ∈ (d.runWith answer s).1) : ∃ s', a = (answer s' q).2 := by
  induction d generalizing s with
  | ret r => cases h
  | emit e next ih =>
      rcases List.mem_cons.mp h with heq | h
      · cases heq
      · exact ih h
  | ask q' next ih =>
      rcases List.mem_cons.mp h with heq | h
      · cases heq
        exact ⟨s, rfl⟩
      · exact ih _ h

/-- **The rule of simulation**: `spec` does what each round does to the
state, and so what the loop does. -/
theorem runWith_forEach (Rel : Z → S → R → Prop) (spec : Z → α → Z)
    {body : α → R → Dialogue Q A E R} {xs : List α}
    (hbody : ∀ x ∈ xs, ∀ z s r, Rel z s r →
      Rel (spec z x) ((body x r).runWith answer s).2.1 ((body x r).runWith answer s).2.2)
    {z : Z} {s : S} {r : R} (h : Rel z s r) :
    Rel (xs.foldl spec z) ((forEach xs r body).runWith answer s).2.1
      ((forEach xs r body).runWith answer s).2.2 := by
  induction xs generalizing z s r with
  | nil => exact h
  | cons x xs ih =>
      rw [forEach, runWith_bind]
      exact ih (fun x' hx' => hbody x' (List.mem_cons_of_mem _ hx'))
        (hbody x List.mem_cons_self z s r h)

end Stateful

/-! ## Attempts

Programs that go on as long as they are granted what they ask for. -/

section Attempts

variable {es es' : List (E ⊕ Q)} {b : Bool}

/-- `d?; next`. -/
def andThen (d next : Dialogue Q (fun _ => Bool) E Bool) : Dialogue Q (fun _ => Bool) E Bool :=
  d.bind fun ok => if ok then next else ret false

/-- Says and asks what is in the script, up to the first refusal. -/
def tries (b : Bool) : List (E ⊕ Q) → Dialogue Q (fun _ => Bool) E Bool
  | [] => ret b
  | .inl e :: es => emit e (tries b es)
  | .inr q :: es => ask q fun ok => if ok then tries b es else ret false

/-- The lines of a script that is granted throughout. -/
def granted (es : List (E ⊕ Q)) : List (Line Q (fun _ => Bool) E) :=
  es.map (Sum.elim .said fun q => .answered q true)

theorem tries_andThen : (tries true es).andThen (tries b es') = tries b (es ++ es') := by
  induction es with
  | nil => rfl
  | cons e es ih =>
      cases e with
      | inl e => exact congrArg (emit e) ih
      | inr q =>
          refine congrArg (ask q) (funext fun ok => ?_)
          cases ok with
          | false => rfl
          | true => exact ih

/-- An attempt is flushed up to its next question. -/
theorem flush_tries (b : Bool) (es : List (E ⊕ Q)) : ∃ said rest,
    es = said.map .inl ++ rest ∧ (tries b es).flush = (said, tries b rest)
      ∧ ∀ e rest', rest ≠ .inl e :: rest' := by
  induction es with
  | nil => exact ⟨[], [], rfl, rfl, nofun⟩
  | cons e es ih =>
      cases e with
      | inl e =>
          obtain ⟨said, rest, hes, hflush, hrest⟩ := ih
          refine ⟨e :: said, rest, ?_, ?_, hrest⟩
          · rw [hes]
            rfl
          · rw [tries, flush, hflush]
      | inr q => exact ⟨[], .inr q :: es, rfl, rfl, nofun⟩

end Attempts

end Dialogue

end RuntimeBle.Lib
