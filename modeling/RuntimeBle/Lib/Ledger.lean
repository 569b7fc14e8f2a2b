import Mathlib.Data.List.Perm.Basic
import Mathlib.Logic.Function.Basic

/-!
# Lib — Ledger

Allocations that are made, lent to a borrower, and released by hand.

A ledger is kept by `book`, which refuses what must not happen: to allocate
twice, to release what is not held or still lent. `Settled` is what an owner
wants of a whole history, in terms of the history alone; `settled_of_replay`
gets it from a ledger that took every entry and holds nothing at the end.
`Settles` is the judgement for pieces of a program: what they allocate and
release, whatever else the ledger holds.
-/

namespace RuntimeBle.Lib

/-- `lend ps`: a borrower of `ps` is made; `reclaim`: it is gone. -/
inductive Entry (P : Type) where
  | alloc (p : P)
  | release (p : P)
  | lend (ps : List P)
  | reclaim
deriving DecidableEq

/-- What has become of a part. -/
inductive Status where
  | fresh
  | held
  | released
deriving DecidableEq

namespace Status

/-- How often it was allocated. -/
def allocs : Status → Nat
  | fresh => 0
  | held | released => 1

/-- How often it was released. -/
def releases : Status → Nat
  | fresh | held => 0
  | released => 1

end Status

variable {P : Type}

/-- The entry is about the part. -/
def Entry.mentions : Entry P → P → Prop
  | .alloc q, p | .release q, p => q = p
  | .lend ps, p => p ∈ ps
  | .reclaim, _ => False

variable [DecidableEq P]

/-- Everything allocated is released once, after it was allocated and never
while a borrower has it; a borrower gets what is held. -/
structure Settled (entries : List (Entry P)) : Prop where
  once : ∀ p, entries.count (.release p) = entries.count (.alloc p) ∧
    entries.count (.alloc p) ≤ 1
  owned : ∀ pre p post, entries = pre ++ .release p :: post → .alloc p ∈ pre
  lent : ∀ pre ps post, entries = pre ++ .lend ps :: post →
    ∀ p ∈ ps, .alloc p ∈ pre ∧ .release p ∉ pre
  returned : ∀ pre ps mid p post, entries = pre ++ .lend ps :: (mid ++ .release p :: post) →
    p ∈ ps → .reclaim ∈ mid

/-- The status of every part, and what is lent. -/
structure Ledger (P : Type) where
  status : P → Status := fun _ => .fresh
  lent : List P := []

namespace Ledger

/-- One part changes. -/
def set (l : Ledger P) (p : P) (st : Status) : Ledger P :=
  { l with status := Function.update l.status p st }

/-- Some parts change. -/
def setAll (l : Ledger P) (ps : List P) (st : Status) : Ledger P :=
  { l with status := fun p => if p ∈ ps then st else l.status p }

/-- The ledger with one more entry, unless that is refused. -/
def book (l : Ledger P) : Entry P → Option (Ledger P)
  | .alloc p => if l.status p = .fresh then some (l.set p .held) else none
  | .release p => if l.status p = .held ∧ p ∉ l.lent then some (l.set p .released) else none
  | .lend ps =>
      if l.lent = [] ∧ ∀ p ∈ ps, l.status p = .held then some { l with lent := ps } else none
  | .reclaim => some { l with lent := [] }

/-- The entries booked one after the other, where each of them may be. -/
def replay (l : Ledger P) (entries : List (Entry P)) : Option (Ledger P) := entries.foldlM book l

variable {l l' : Ledger P} {e : Entry P} {entries pre post : List (Entry P)} {p q : P}
  {ps qs : List P} {st : Status}

@[simp] theorem replay_nil : l.replay [] = some l := rfl

@[simp] theorem replay_cons : l.replay (e :: entries) = (l.book e).bind (·.replay entries) := rfl

theorem replay_append : l.replay (pre ++ post) = (l.replay pre).bind (·.replay post) :=
  List.foldlM_append

@[simp] theorem set_lent : (l.set p st).lent = l.lent := rfl

@[simp] theorem setAll_lent : (l.setAll ps st).lent = l.lent := rfl

@[simp] theorem set_status_self : (l.set p st).status p = st := Function.update_self ..

theorem set_status_of_ne (h : q ≠ p) : (l.set p st).status q = l.status q :=
  Function.update_of_ne h ..

theorem setAll_status_of_mem (h : p ∈ ps) : (l.setAll ps st).status p = st := if_pos h

theorem setAll_status_of_not_mem (h : p ∉ ps) : (l.setAll ps st).status p = l.status p := if_neg h

omit [DecidableEq P] in
@[ext] theorem ext (hstatus : ∀ p, l.status p = l'.status p) (hlent : l.lent = l'.lent) :
    l = l' := by
  cases l
  cases l'
  obtain rfl := funext hstatus
  obtain rfl := hlent
  rfl

theorem set_set {st' : Status} : (l.set p st).set p st' = l.set p st' := by
  ext q
  · exact congrFun (Function.update_idem ..) q
  · rfl

theorem set_setAll : (l.set p st).setAll ps st = l.setAll (p :: ps) st := by
  ext q
  · by_cases hq : q ∈ ps
    · rw [setAll_status_of_mem hq, setAll_status_of_mem (List.mem_cons_of_mem _ hq)]
    · rw [setAll_status_of_not_mem hq]
      by_cases hqp : q = p
      · rw [hqp, set_status_self, setAll_status_of_mem List.mem_cons_self]
      · rw [set_status_of_ne hqp, setAll_status_of_not_mem (by simp [hqp, hq])]
  · rfl

theorem setAll_cons : (l.setAll ps st).set p st = l.setAll (p :: ps) st := by
  ext q
  · by_cases hqp : q = p
    · rw [hqp, set_status_self, setAll_status_of_mem List.mem_cons_self]
    · rw [set_status_of_ne hqp]
      simp [setAll, hqp]
  · rfl

theorem book_alloc : l.book (.alloc p) = some l' ↔ l.status p = .fresh ∧ l.set p .held = l' := by
  rw [book, Option.ite_none_right_eq_some, Option.some_inj]

theorem book_release : l.book (.release p) = some l' ↔
    (l.status p = .held ∧ p ∉ l.lent) ∧ l.set p .released = l' := by
  rw [book, Option.ite_none_right_eq_some, Option.some_inj]

theorem book_lend : l.book (.lend ps) = some l' ↔
    (l.lent = [] ∧ ∀ p ∈ ps, l.status p = .held) ∧ { l with lent := ps } = l' := by
  rw [book, Option.ite_none_right_eq_some, Option.some_inj]

/-! ## What a ledger counts -/

/-- An entry that is taken is counted in the status of what it is about. -/
theorem counts_of_book (h : l.book e = some l') (p : P) :
    (l'.status p).allocs = (l.status p).allocs + (if e = .alloc p then 1 else 0) ∧
      (l'.status p).releases = (l.status p).releases + (if e = .release p then 1 else 0) := by
  cases e with
  | alloc q =>
      obtain ⟨hfresh, rfl⟩ := book_alloc.mp h
      by_cases hp : p = q
      · subst hp
        simp [hfresh, Status.allocs, Status.releases]
      · simp [set_status_of_ne hp, Ne.symm hp]
  | release q =>
      obtain ⟨⟨hheld, -⟩, rfl⟩ := book_release.mp h
      by_cases hp : p = q
      · subst hp
        simp [hheld, Status.allocs, Status.releases]
      · simp [set_status_of_ne hp, Ne.symm hp]
  | lend ps =>
      obtain ⟨-, rfl⟩ := book_lend.mp h
      simp
  | reclaim =>
      cases h
      simp

theorem counts_of_replay : ∀ {l : Ledger P}, l.replay entries = some l' → ∀ p,
    (l'.status p).allocs = (l.status p).allocs + entries.count (.alloc p) ∧
      (l'.status p).releases = (l.status p).releases + entries.count (.release p) := by
  induction entries with
  | nil =>
      intro l h p
      cases h
      exact ⟨rfl, rfl⟩
  | cons e entries ih =>
      intro l h p
      obtain ⟨m, hm, hrest⟩ := Option.bind_eq_some_iff.mp h
      obtain ⟨halloc, hrelease⟩ := ih hrest p
      obtain ⟨halloc', hrelease'⟩ := counts_of_book hm p
      simp only [List.count_cons, beq_iff_eq]
      omega

/-- What is held has been allocated, and not released. -/
theorem mem_of_held (h : ({} : Ledger P).replay entries = some l) (hp : l.status p = .held) :
    .alloc p ∈ entries ∧ .release p ∉ entries := by
  obtain ⟨halloc, hrelease⟩ := counts_of_replay h p
  rw [hp] at halloc hrelease
  simp only [Status.allocs, Status.releases] at halloc hrelease
  exact ⟨List.count_pos_iff.mp (by omega), List.count_eq_zero.mp (by omega)⟩

/-- A borrower keeps what it has until it is gone. -/
theorem lent_of_replay : ∀ {l : Ledger P}, l.replay entries = some l' → l.lent ≠ [] →
    .reclaim ∉ entries → l'.lent = l.lent := by
  induction entries with
  | nil =>
      intro l h _ _
      cases h
      rfl
  | cons e entries ih =>
      intro l h hlent hreclaim
      obtain ⟨m, hm, hrest⟩ := Option.bind_eq_some_iff.mp h
      obtain ⟨he, hentries⟩ := not_or.mp (List.mem_cons.not.mp hreclaim)
      have hsame : m.lent = l.lent := by
        cases e with
        | alloc p => exact (book_alloc.mp hm).2 ▸ rfl
        | release p => exact (book_release.mp hm).2 ▸ rfl
        | lend ps => exact absurd (book_lend.mp hm).1.1 hlent
        | reclaim => exact absurd rfl he
      rw [ih hrest (hsame ▸ hlent) hentries, hsame]

/-- And has nothing that no entry is about. -/
theorem not_mem_lent_of_replay (hentries : ∀ e ∈ entries, ¬ e.mentions p) :
    ∀ {l : Ledger P}, l.replay entries = some l' → p ∉ l.lent → p ∉ l'.lent := by
  induction entries with
  | nil =>
      intro l h hp
      cases h
      exact hp
  | cons e entries ih =>
      intro l h hp
      obtain ⟨m, hm, hrest⟩ := Option.bind_eq_some_iff.mp h
      apply ih (fun e' he' => hentries e' (List.mem_cons_of_mem _ he')) hrest
      have he := hentries e List.mem_cons_self
      cases e with
      | alloc q => exact (book_alloc.mp hm).2 ▸ hp
      | release q => exact (book_release.mp hm).2 ▸ hp
      | lend ps => exact (book_lend.mp hm).2 ▸ he
      | reclaim =>
          cases hm
          exact List.not_mem_nil

theorem replay_split (h : l.replay (pre ++ e :: post) = some l') :
    ∃ m n, l.replay pre = some m ∧ m.book e = some n ∧ n.replay post = some l' := by
  rw [replay_append] at h
  obtain ⟨m, hm, hrest⟩ := Option.bind_eq_some_iff.mp h
  obtain ⟨n, hn, hpost⟩ := Option.bind_eq_some_iff.mp hrest
  exact ⟨m, n, hm, hn, hpost⟩

/-- **A ledger that has taken every entry and holds nothing** is settled. -/
theorem settled_of_replay (h : ({} : Ledger P).replay entries = some l)
    (hend : ∀ p, l.status p ≠ .held) : Settled entries := by
  constructor
  · intro p
    obtain ⟨halloc, hrelease⟩ := counts_of_replay h p
    have hp := hend p
    cases hst : l.status p with
    | held => exact absurd hst hp
    | fresh | released =>
        rw [hst] at halloc hrelease
        simp only [Status.allocs, Status.releases] at halloc hrelease
        omega
  · rintro pre p post rfl
    obtain ⟨m, n, hm, hn, -⟩ := replay_split h
    exact (mem_of_held hm (book_release.mp hn).1.1).1
  · rintro pre ps post rfl p hp
    obtain ⟨m, n, hm, hn, -⟩ := replay_split h
    exact mem_of_held hm ((book_lend.mp hn).1.2 p hp)
  · rintro pre ps mid p post rfl hp
    obtain ⟨m, n, -, hn, hrest⟩ := replay_split h
    obtain ⟨m', n', hm', hn', -⟩ := replay_split hrest
    by_contra hreclaim
    have hlent : n.lent = ps := (book_lend.mp hn).2 ▸ rfl
    have hsame := lent_of_replay hm' (hlent ▸ List.ne_nil_of_mem hp) hreclaim
    rw [hlent] at hsame
    exact (book_release.mp hn').1.2 (hsame ▸ hp)

/-! ## Frames -/

/-- An entry does to the rest of the ledger what it does without `p`. -/
theorem book_set (he : ¬ e.mentions p) : (l.set p st).book e = (l.book e).map (·.set p st) := by
  cases e with
  | alloc q =>
      have hq : q ≠ p := he
      have hcomm : (l.set p st).set q .held = (l.set q .held).set p st := by
        ext r
        · exact congrFun (Function.update_comm hq.symm ..) r
        · rfl
      rw [book, book, set_status_of_ne hq, hcomm]
      split <;> rfl
  | release q =>
      have hq : q ≠ p := he
      have hcomm : (l.set p st).set q .released = (l.set q .released).set p st := by
        ext r
        · exact congrFun (Function.update_comm hq.symm ..) r
        · rfl
      rw [book, book, set_status_of_ne hq, hcomm, set_lent]
      split <;> rfl
  | lend ps =>
      have hsame : (∀ q ∈ ps, (l.set p st).status q = .held) ↔ ∀ q ∈ ps, l.status q = .held := by
        refine forall₂_congr fun q hq => ?_
        rw [set_status_of_ne (ne_of_mem_of_not_mem hq he)]
      simp only [book, set_lent, hsame]
      split <;> rfl
  | reclaim => rfl

theorem replay_set (hentries : ∀ e ∈ entries, ¬ e.mentions p) : ∀ {l : Ledger P},
    (l.set p st).replay entries = (l.replay entries).map (·.set p st) := by
  induction entries with
  | nil => intro l; rfl
  | cons e entries ih =>
      intro l
      rw [replay_cons, replay_cons, book_set (hentries e List.mem_cons_self), Option.map_bind,
        Option.bind_map]
      congr 1
      funext m
      exact ih fun e' he' => hentries e' (List.mem_cons_of_mem _ he')

end Ledger

/-! ## Pieces of a program -/

open Ledger

/-- Whatever else the ledger holds, `entries` allocate and release `ps`. -/
structure Settles (ps : List P) (entries : List (Entry P)) : Prop where
  within : ∀ e ∈ entries, ∀ p, e.mentions p → p ∈ ps
  replay : ∀ l : Ledger P, l.lent = [] → (∀ p ∈ ps, l.status p = .fresh) →
    l.replay entries = some (l.setAll ps .released)

variable {ps qs rs : List P} {entries : List (Entry P)} {p : P}

theorem Settles.settled (h : Settles ps entries) : Settled entries := by
  refine settled_of_replay (h.replay {} rfl fun _ _ => rfl) fun p => ?_
  by_cases hp : p ∈ ps
  · rw [setAll_status_of_mem hp]
    exact Status.noConfusion
  · rw [setAll_status_of_not_mem hp]
    exact Status.noConfusion

theorem settles_nil : Settles ([] : List P) [] where
  within := by simp
  replay _ _ _ := rfl

/-- **The bracket rule**: an allocation around a piece of a program, and it
may go when the piece is not yet through. -/
theorem Settles.around (pre mid : List (Entry P)) (h : Settles ps (pre ++ mid)) (hp : p ∉ ps) :
    Settles (p :: ps) (.alloc p :: (pre ++ .release p :: mid)) where
  within e he q hq := by
    simp only [List.mem_cons, List.mem_append] at he
    rcases he with rfl | he | rfl | he
    · exact List.mem_cons.mpr (.inl hq.symm)
    · exact List.mem_cons_of_mem _ (h.within e (List.mem_append_left _ he) q hq)
    · exact List.mem_cons.mpr (.inl hq.symm)
    · exact List.mem_cons_of_mem _ (h.within e (List.mem_append_right _ he) q hq)
  replay l hlent hfresh := by
    have hapart : ∀ e ∈ pre ++ mid, ¬ e.mentions p := fun e he hm => hp (h.within e he p hm)
    have hpre : ∀ e ∈ pre, ¬ e.mentions p := fun e he => hapart e (List.mem_append_left _ he)
    have hmid : ∀ e ∈ mid, ¬ e.mentions p := fun e he => hapart e (List.mem_append_right _ he)
    have hpiece := h.replay l hlent fun q hq => hfresh q (List.mem_cons_of_mem _ hq)
    rw [replay_append] at hpiece
    obtain ⟨m, hm, hrest⟩ := Option.bind_eq_some_iff.mp hpiece
    have hkept : p ∉ m.lent :=
      not_mem_lent_of_replay hpre hm (hlent ▸ List.not_mem_nil)
    have halloc : l.book (.alloc p) = some (l.set p .held) :=
      book_alloc.mpr ⟨hfresh p List.mem_cons_self, rfl⟩
    have hrelease : (m.set p .held).book (.release p) = some (m.set p .released) := by
      refine book_release.mpr ⟨⟨set_status_self, hkept⟩, ?_⟩
      exact set_set
    rw [replay_cons, halloc, Option.bind_some, replay_append, replay_set hpre, hm,
      Option.map_some, Option.bind_some, replay_cons, hrelease, Option.bind_some, replay_set hmid,
      hrest, Option.map_some, setAll_cons]

theorem replay_allocs : ∀ {ps : List P} {l : Ledger P}, ps.Nodup →
    (∀ p ∈ ps, l.status p = .fresh) → l.replay (ps.map .alloc) = some (l.setAll ps .held) := by
  intro ps
  induction ps with
  | nil => intro l _ _; rfl
  | cons p ps ih =>
      intro l hnodup hfresh
      obtain ⟨hp, hnodup⟩ := List.nodup_cons.mp hnodup
      have halloc : l.book (.alloc p) = some (l.set p .held) :=
        book_alloc.mpr ⟨hfresh p List.mem_cons_self, rfl⟩
      rw [List.map_cons, replay_cons, halloc, Option.bind_some, ih hnodup, set_setAll]
      intro q hq
      rw [set_status_of_ne (ne_of_mem_of_not_mem hq hp)]
      exact hfresh q (List.mem_cons_of_mem _ hq)

theorem replay_releases : ∀ {ps : List P} {l : Ledger P}, ps.Nodup → l.lent = [] →
    (∀ p ∈ ps, l.status p = .held) → l.replay (ps.map .release) = some (l.setAll ps .released) := by
  intro ps
  induction ps with
  | nil => intro l _ _ _; rfl
  | cons p ps ih =>
      intro l hnodup hlent hheld
      obtain ⟨hp, hnodup⟩ := List.nodup_cons.mp hnodup
      have hrelease : l.book (.release p) = some (l.set p .released) :=
        book_release.mpr ⟨⟨hheld p List.mem_cons_self, hlent ▸ List.not_mem_nil⟩, rfl⟩
      rw [List.map_cons, replay_cons, hrelease, Option.bind_some,
        ih (l := l.set p .released) hnodup hlent, set_setAll]
      intro q hq
      rw [set_status_of_ne (ne_of_mem_of_not_mem hq hp)]
      exact hheld q (List.mem_cons_of_mem _ hq)

/-- **The pool rule**: allocations one after the other, a borrower of some
of them, and once it is gone the releases, in any order. -/
theorem settles_pool (hps : ps.Nodup) (hqs : qs.Perm ps) (hrs : rs ⊆ ps) :
    Settles ps (ps.map .alloc ++ .lend rs :: .reclaim :: qs.map .release) where
  within e he p hp := by
    simp only [List.mem_append, List.mem_map, List.mem_cons] at he
    rcases he with ⟨q, hq, rfl⟩ | rfl | rfl | ⟨q, hq, rfl⟩
    · exact hp ▸ hq
    · exact hrs hp
    · exact hp.elim
    · exact hp ▸ hqs.subset hq
  replay l hlent hfresh := by
    have hheld : ∀ p ∈ ps, (l.setAll ps .held).status p = .held := fun _ hp =>
      setAll_status_of_mem hp
    have hlend : (l.setAll ps .held).book (.lend rs)
        = some { status := (l.setAll ps .held).status, lent := rs } :=
      book_lend.mpr ⟨⟨hlent, fun p hp => hheld p (hrs hp)⟩, rfl⟩
    have hreclaim : Ledger.book { status := (l.setAll ps .held).status, lent := rs } .reclaim
        = some (l.setAll ps .held) := by
      rw [book, Option.some_inj]
      exact Ledger.ext (fun _ => rfl) hlent.symm
    rw [replay_append, replay_allocs hps hfresh, Option.bind_some, replay_cons, hlend,
      Option.bind_some, replay_cons, hreclaim, Option.bind_some,
      replay_releases (l := l.setAll ps .held) (hqs.nodup_iff.mpr hps) hlent fun p hp =>
        hheld p (hqs.subset hp)]
    congr 1
    ext p
    · by_cases hp : p ∈ ps
      · rw [setAll_status_of_mem hp, setAll_status_of_mem (hqs.mem_iff.mpr hp)]
      · rw [setAll_status_of_not_mem hp, setAll_status_of_not_mem (hqs.mem_iff.not.mpr hp),
          setAll_status_of_not_mem hp]
    · rfl

end RuntimeBle.Lib
