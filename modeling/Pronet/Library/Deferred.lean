import Mathlib

/-! Handlers that change a state under a lock, and have effects: some of them in the section,
and others behind it, in the order of the handler but in any order with the effects of other
handlers. What has happened, and what is still to happen, is all that was ever decided. -/
namespace Pronet.Library

variable {ε : Type*}

/-- The effects that have happened, and for each handler those that it still has to make. -/
structure Deferred (ε : Type*) where
  done : List ε
  pending : List (List ε)
  deriving DecidableEq, Repr

namespace Deferred

def empty : Deferred ε := ⟨[], []⟩

/-- A section with the effects `inside`, which leaves those `behind` to its handler. -/
def enter (d : Deferred ε) (inside behind : List ε) : Deferred ε :=
  ⟨d.done ++ inside, if behind.isEmpty then d.pending else d.pending ++ [behind]⟩

/-- The next effect of the handler at place `i`. -/
def proceed (d : Deferred ε) (i : Nat) : Option (Deferred ε) :=
  match d.pending[i]? with
  | some (e :: rest) => some ⟨d.done ++ [e], d.pending.set i rest⟩
  | _ => none

/-- All the effects that have been decided. -/
def total (d : Deferred ε) : List ε := d.done ++ d.pending.flatten

variable {d d' : Deferred ε}

theorem proceed_eq_some {i : Nat} (h : d.proceed i = some d') :
    ∃ e rest, d.pending[i]? = some (e :: rest) ∧ d' = ⟨d.done ++ [e], d.pending.set i rest⟩ := by
  unfold proceed at h
  split at h
  · rename_i e rest heq
    cases h
    exact ⟨e, rest, heq, rfl⟩
  · cases h

theorem total_enter (d : Deferred ε) (inside behind : List ε) :
    (d.enter inside behind).total.Perm (d.total ++ (inside ++ behind)) := by
  have hflat : (d.enter inside behind).pending.flatten = d.pending.flatten ++ behind := by
    unfold enter
    dsimp only
    split
    · rename_i hempty
      rw [List.isEmpty_iff.mp hempty, List.append_nil]
    · rw [List.flatten_append, List.flatten_singleton]
  unfold total
  rw [hflat]
  unfold enter
  dsimp only
  rw [List.append_assoc, List.append_assoc]
  refine List.Perm.append_left d.done ?_
  rw [← List.append_assoc, ← List.append_assoc]
  exact List.perm_append_comm.append_right behind

theorem flatten_set_perm {l : List (List ε)} {i : Nat} {e : ε} {rest : List ε} (h : l[i]? = some (e :: rest)) :
    l.flatten.Perm (e :: (l.set i rest).flatten) := by
  induction l generalizing i with
  | nil => cases h
  | cons first l ih =>
    cases i with
    | zero =>
      rw [List.getElem?_cons_zero, Option.some.injEq] at h
      rw [h]
      exact List.Perm.refl _
    | succ i =>
      rw [List.getElem?_cons_succ] at h
      rw [List.set_cons_succ, List.flatten_cons, List.flatten_cons]
      exact ((ih h).append_left first).trans List.perm_middle

theorem total_proceed {i : Nat} (h : d.proceed i = some d') : d'.total.Perm d.total := by
  obtain ⟨e, rest, hi, rfl⟩ := proceed_eq_some h
  unfold total
  rw [List.append_assoc, List.singleton_append]
  exact (flatten_set_perm hi).symm.append_left d.done

theorem mem_done_proceed {i : Nat} (h : d.proceed i = some d') {e : ε} (he : e ∈ d.done) : e ∈ d'.done := by
  obtain ⟨e', rest, -, rfl⟩ := proceed_eq_some h
  exact List.mem_append_left _ he

/-- Whatever is decided satisfies `P`. -/
def Each (P : ε → Prop) (d : Deferred ε) : Prop := ∀ e ∈ d.total, P e

theorem Each.enter {P : ε → Prop} (h : d.Each P) {inside behind : List ε} (hinside : ∀ e ∈ inside, P e)
    (hbehind : ∀ e ∈ behind, P e) : (d.enter inside behind).Each P := by
  intro e he
  have hmem := (total_enter d inside behind).subset he
  rcases List.mem_append.mp hmem with hold | hnew
  · exact h e hold
  · rcases List.mem_append.mp hnew with hnew | hnew
    · exact hinside e hnew
    · exact hbehind e hnew

theorem Each.proceed {P : ε → Prop} (h : d.Each P) {i : Nat} (hd : d.proceed i = some d') : d'.Each P :=
  fun e he => h e ((total_proceed hd).subset he)

/-- Each effect of kind `f` is of one of the kinds `g` and `k`. -/
def Splits {ι : Type*} (f g k : ε → Option ι) : Prop := ∀ e, f e = g e ∧ k e = none ∨ f e = k e ∧ g e = none

theorem Splits.perm {ι : Type*} {f g k : ε → Option ι} (h : Splits f g k) (l : List ε) :
    (l.filterMap f).Perm (l.filterMap g ++ l.filterMap k) := by
  induction l with
  | nil => exact List.Perm.refl _
  | cons e l ih =>
    rcases h e with ⟨hf, hk⟩ | ⟨hf, hg⟩
    · rw [List.filterMap_cons_none hk]
      cases hg : g e with
      | none =>
        rw [List.filterMap_cons_none hg, List.filterMap_cons_none (hf.trans hg)]
        exact ih
      | some a =>
        rw [List.filterMap_cons_some hg, List.filterMap_cons_some (hf.trans hg)]
        exact ih.cons a
    · rw [List.filterMap_cons_none hg]
      cases hk : k e with
      | none =>
        rw [List.filterMap_cons_none hk, List.filterMap_cons_none (hf.trans hk)]
        exact ih
      | some a =>
        rw [List.filterMap_cons_some hk, List.filterMap_cons_some (hf.trans hk)]
        exact (ih.cons a).trans List.perm_middle.symm

/-- What the effects of kind `taken` have taken has gone with those of kind `gone`, or is held. -/
def Balanced {ι : Type*} (taken gone : ε → Option ι) (held : List ι) (d : Deferred ε) : Prop :=
  (d.total.filterMap taken).Perm (d.total.filterMap gone ++ held)

section Balanced

variable {ι : Type*} {taken gone : ε → Option ι} {held held' : List ι}

theorem Balanced.enter (h : Balanced taken gone held d) {inside behind : List ε}
    (hstep : ((inside ++ behind).filterMap taken ++ held).Perm ((inside ++ behind).filterMap gone ++ held')) :
    Balanced taken gone held' (d.enter inside behind) := by
  have htotal := total_enter d inside behind
  have htaken := htotal.filterMap taken
  have hgone := htotal.filterMap gone
  rw [List.filterMap_append] at htaken hgone
  unfold Balanced at h ⊢
  calc ((d.enter inside behind).total.filterMap taken)
      |>.Perm (d.total.filterMap taken ++ (inside ++ behind).filterMap taken) := htaken
    _ |>.Perm (d.total.filterMap gone ++ held ++ (inside ++ behind).filterMap taken) := h.append_right _
    _ |>.Perm (d.total.filterMap gone ++ ((inside ++ behind).filterMap taken ++ held)) := by
      rw [List.append_assoc]
      exact List.perm_append_comm.append_left _
    _ |>.Perm (d.total.filterMap gone ++ ((inside ++ behind).filterMap gone ++ held')) := hstep.append_left _
    _ |>.Perm ((d.enter inside behind).total.filterMap gone ++ held') := by
      rw [← List.append_assoc]
      exact (hgone.append_right held').symm

theorem Balanced.proceed (h : Balanced taken gone held d) {i : Nat} (hd : d.proceed i = some d') :
    Balanced taken gone held d' := by
  have htotal := total_proceed hd
  exact ((htotal.filterMap taken).trans h).trans ((htotal.filterMap gone).symm.append_right held)

/-- What is taken once goes once, and is not held any more. -/
theorem Balanced.nodup (h : Balanced taken gone held d) (htaken : (d.total.filterMap taken).Nodup) :
    (d.total.filterMap gone ++ held).Nodup :=
  List.Perm.nodup h htaken

/-- One party lends what it has taken, and another one gives it back or ends it. -/
theorem Balanced.join {arrived back lent ended left gone : ε → Option ι} (h : Balanced taken left [] d)
    (closed : ε → Option ι)
    (hborrow : (d.total.filterMap lent).Perm (d.total.filterMap back ++ d.total.filterMap ended ++ held))
    (htaken : Splits taken arrived back) (hleft : Splits left lent closed) (hgone : Splits gone closed ended) :
    Balanced arrived gone held d := by
  unfold Balanced at h
  rw [List.append_nil] at h
  have hlend := ((htaken.perm d.total).symm.trans h).trans (hleft.perm d.total)
  have hall : (d.total.filterMap back ++ d.total.filterMap arrived).Perm
      (d.total.filterMap back ++ (d.total.filterMap gone ++ held)) := by
    calc d.total.filterMap back ++ d.total.filterMap arrived
      |>.Perm (d.total.filterMap arrived ++ d.total.filterMap back) := List.perm_append_comm
      _ |>.Perm (d.total.filterMap lent ++ d.total.filterMap closed) := hlend
      _ |>.Perm (d.total.filterMap back ++ d.total.filterMap ended ++ held ++ d.total.filterMap closed) :=
        hborrow.append_right _
      _ |>.Perm (d.total.filterMap back ++ (d.total.filterMap closed ++ (d.total.filterMap ended ++ held))) := by
        rw [List.append_assoc, List.append_assoc, ← List.append_assoc (d.total.filterMap ended)]
        exact List.perm_append_comm.append_left _
      _ |>.Perm (d.total.filterMap back ++ (d.total.filterMap gone ++ held)) := by
        rw [← List.append_assoc (d.total.filterMap closed)]
        exact ((hgone.perm d.total).symm.append_right held).append_left _
  exact (List.perm_append_left_iff _).mp hall

end Balanced

/-- In a list behind the effects `before`, each effect comes after the one that it needs. -/
def Follows (needs : ε → Option ε) (before l : List ε) : Prop :=
  ∀ pre e post, l = pre ++ e :: post → ∀ first ∈ needs e, first ∈ before ++ pre

/-- Each effect comes after the one that it needs, whatever the order of the handlers. -/
structure Ordered (needs : ε → Option ε) (d : Deferred ε) : Prop where
  done : Follows needs [] d.done
  pending : ∀ l ∈ d.pending, Follows needs d.done l

variable {needs : ε → Option ε}

theorem Follows.nil (before : List ε) : Follows needs before [] := by
  intro pre e post h
  simp at h

theorem Follows.mono {before more l : List ε} (h : Follows needs before l) (hsub : ∀ e ∈ before, e ∈ more) :
    Follows needs more l := by
  intro pre e post heq first hfirst
  rcases List.mem_append.mp (h pre e post heq first hfirst) with hmem | hmem
  · exact List.mem_append_left _ (hsub first hmem)
  · exact List.mem_append_right _ hmem

theorem Follows.append {before l more : List ε} (h : Follows needs before l)
    (hmore : Follows needs (before ++ l) more) : Follows needs before (l ++ more) := by
  intro pre e post heq first hfirst
  rcases List.append_eq_append_iff.mp heq with ⟨mid, hpre, hmore'⟩ | ⟨mid, hl, hpost⟩
  · have := hmore mid e post hmore' first hfirst
    rw [hpre, ← List.append_assoc]
    exact this
  · cases mid with
    | nil =>
      rw [List.append_nil] at hl
      have := hmore [] e post hpost.symm first hfirst
      rw [List.append_nil, hl] at this
      exact this
    | cons e' mid =>
      obtain ⟨rfl, -⟩ := List.cons.inj hpost
      exact h pre e mid hl first hfirst

theorem Follows.of_forall {before l : List ε} (h : ∀ e ∈ l, needs e = none) : Follows needs before l := by
  intro pre e post heq first hfirst
  rw [h e (by rw [heq]; simp)] at hfirst
  cases hfirst

theorem Follows.singleton {before : List ε} {e : ε} (h : ∀ first ∈ needs e, first ∈ before) :
    Follows needs before [e] := by
  intro pre e' post heq first hfirst
  cases pre with
  | nil =>
    obtain ⟨rfl, -⟩ := List.cons.inj heq
    exact List.mem_append_left _ (h first hfirst)
  | cons b pre => simp at heq

theorem Ordered.enter (h : d.Ordered needs) {inside behind : List ε} (hinside : Follows needs d.done inside)
    (hbehind : Follows needs (d.done ++ inside) behind) : (d.enter inside behind).Ordered needs := by
  have hold : ∀ l ∈ d.pending, Follows needs (d.done ++ inside) l :=
    fun l hl => (h.pending l hl).mono fun e he => List.mem_append_left _ he
  refine ⟨h.done.append (by simpa using hinside), ?_⟩
  unfold Deferred.enter
  dsimp only
  split
  · exact hold
  · intro l hl
    rcases List.mem_append.mp hl with hl | hl
    · exact hold l hl
    · rw [List.mem_singleton.mp hl]
      exact hbehind

theorem Ordered.proceed (h : d.Ordered needs) {i : Nat} (hd : d.proceed i = some d') : d'.Ordered needs := by
  obtain ⟨e, rest, hi, rfl⟩ := proceed_eq_some hd
  have hthread := h.pending _ (List.mem_of_getElem? hi)
  have hmono : ∀ l ∈ d.pending, Follows needs (d.done ++ [e]) l :=
    fun l hl => (h.pending l hl).mono fun e he => List.mem_append_left _ he
  refine ⟨h.done.append (Follows.singleton ?_), ?_⟩
  · intro first hfirst
    have := hthread [] e rest rfl first hfirst
    simpa using this
  · intro l hl
    rcases List.mem_or_eq_of_mem_set hl with hl | rfl
    · exact hmono l hl
    · intro pre e' post heq first hfirst
      have := hthread (e :: pre) e' post (by rw [heq]; rfl) first hfirst
      simpa using this

end Deferred

end Pronet.Library
