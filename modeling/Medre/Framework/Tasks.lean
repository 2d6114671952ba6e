import Mathlib.Logic.Relation
import Mathlib.Tactic.Common

/-! # Tasks that share a store

A task ends, raises, or puts a call to the store and goes on with the answer; between two calls
the others may act. `wp` is a rely-guarantee weakest precondition. -/

namespace Medre.Framework

/-- A task with the calls `κ`, the answers `ρ` and the errors `ε`. -/
inductive Task (κ : Type) (ρ : κ → Type) (ε α : Type) where
  | pure (a : α)
  | raise (e : ε)
  | call (c : κ) (k : ρ c → Task κ ρ ε α)

namespace Task

variable {κ : Type} {ρ : κ → Type} {ε α β γ : Type}

def bind : Task κ ρ ε α → (α → Task κ ρ ε β) → Task κ ρ ε β
  | .pure a, f => f a
  | .raise e, _ => .raise e
  | .call c k, f => .call c fun r => (k r).bind f

instance : Monad (Task κ ρ ε) where
  pure := .pure
  bind := bind

def perform (c : κ) : Task κ ρ ε (ρ c) := .call c .pure

/-- The value of a computation without calls, or its error. -/
def lift : Except ε α → Task κ ρ ε α
  | .ok a => .pure a
  | .error e => .raise e

/-- The actions of a loop over a list, from the left. -/
def fold (f : β → α → Task κ ρ ε β) (b : β) : List α → Task κ ρ ε β
  | [] => pure b
  | a :: as => do
    let b ← f b a
    fold f b as

variable {f : α → Task κ ρ ε β}

@[simp] theorem lift_ok_bind {a : α} : lift (.ok a) >>= f = f a := rfl

/-! ## What a task guarantees -/

section Wp

variable {σ : Type} (answer : σ → (c : κ) → σ × ρ c) (R G : σ → σ → Prop)

/-- From `s` every call of the task is within `G`, and the task ends in `Q` or raises in
`E`, when `R` may happen before each of its calls. -/
def wp : Task κ ρ ε α → (α → σ → Prop) → (ε → σ → Prop) → σ → Prop
  | .pure a, Q, _, s => Q a s
  | .raise e, _, E, s => E e s
  | .call c k, Q, E, s => ∀ s', R s s' →
      G s' (answer s' c).1 ∧ wp (k (answer s' c).2) Q E (answer s' c).1

variable {answer R G} {Q Q' : α → σ → Prop} {E E' : ε → σ → Prop} {s s' : σ}

variable {t : Task κ ρ ε α}

theorem wp_bind {Q : β → σ → Prop} :
    wp answer R G (t >>= f) Q E s ↔
      wp answer R G t (fun a => wp answer R G (f a) Q E) E s := by
  induction t generalizing s with
  | pure a => exact Iff.rfl
  | raise e => exact Iff.rfl
  | call c k ih =>
    exact forall_congr' fun s' => imp_congr_right fun _ => and_congr_right fun _ => ih _

theorem wp_mono (hQ : ∀ a s, Q a s → Q' a s) (hE : ∀ e s, E e s → E' e s)
    (h : wp answer R G t Q E s) : wp answer R G t Q' E' s := by
  induction t generalizing s with
  | pure a => exact hQ a s h
  | raise e => exact hE e s h
  | call c k ih => exact fun s' hR => ⟨(h s' hR).1, ih _ (h s' hR).2⟩

/-- Sequencing: what the first task ends in is what the second one starts from. -/
theorem wp_seq {Q' : β → σ → Prop}
    (h : wp answer R G t Q E s) (hf : ∀ a s, Q a s → wp answer R G (f a) Q' E s) :
    wp answer R G (t >>= f) Q' E s :=
  wp_bind.mpr (wp_mono hf (fun _ _ h => h) h)

theorem wp_perform {c : κ} {Q : ρ c → σ → Prop}
    (h : ∀ s', R s s' → G s' (answer s' c).1 ∧ Q (answer s' c).2 (answer s' c).1) :
    wp answer R G (perform c) Q E s := h

/-- A loop over a list keeps an invariant of what is done so far. -/
theorem wp_fold {f : β → α → Task κ ρ ε β} {I : List α → β → σ → Prop} {as : List α}
    (hstep : ∀ done a b s, done ++ [a] <+: as → I done b s →
      wp answer R G (f b a) (fun b' => I (done ++ [a]) b') E s) {b : β} (h : I [] b s) :
    wp answer R G (fold f b as) (fun b' => I as b') E s := by
  suffices hrest : ∀ rest done b s, done ++ rest = as → I done b s →
      wp answer R G (fold f b rest) (fun b' => I as b') E s from hrest as [] b s rfl h
  intro rest
  induction rest with
  | nil =>
    rintro done b s heq hI
    rw [List.append_nil] at heq
    rw [← heq]
    exact hI
  | cons a rest ih =>
    intro done b s heq hI
    have hpre : done ++ [a] <+: as := ⟨rest, by rw [← heq]; simp⟩
    refine wp_seq (hstep done a b s hpre hI) fun b' s' hI' => ?_
    exact ih (done ++ [a]) b' s' (by rw [← heq]; simp) hI'

/-- What the others do does not spoil what a task guarantees. -/
theorem wp_stable (htrans : ∀ a b c, R a b → R b c → R a c)
    (hQ : ∀ a s s', R s s' → Q a s → Q a s') (hE : ∀ e s s', R s s' → E e s → E e s')
    (hR : R s s') (h : wp answer R G t Q E s) : wp answer R G t Q E s' := by
  cases t with
  | pure a => exact hQ a s s' hR h
  | raise e => exact hE e s s' hR h
  | call c k => exact fun s'' hR' => h s'' (htrans s s' s'' hR hR')

end Wp

/-! ## The ends of a task -/

section Ends

variable {σ : Type} (answer : σ → (c : κ) → σ × ρ c) (R : σ → σ → Prop)

/-- The task may end so, from one state in another, when `R` happens before each of its
calls. -/
inductive Ends : Task κ ρ ε α → σ → Except ε α → σ → Prop
  | pure (a : α) (s : σ) : Ends (.pure a) s (.ok a) s
  | raise (e : ε) (s : σ) : Ends (.raise e) s (.error e) s
  | call {c : κ} {k : ρ c → Task κ ρ ε α} {s s' t : σ} {r : Except ε α} (others : R s s')
      (rest : Ends (k (answer s' c).2) (answer s' c).1 r t) : Ends (.call c k) s r t

variable {answer R} {G : σ → σ → Prop} {Q : α → σ → Prop} {E : ε → σ → Prop} {s s' : σ}

theorem ends_of_wp {t : Task κ ρ ε α} {r : Except ε α} (h : wp answer R G t Q E s)
    (hends : Ends answer R t s r s') :
    (∀ a, r = .ok a → Q a s') ∧ ∀ e, r = .error e → E e s' := by
  induction hends with
  | pure a s =>
    refine ⟨?_, nofun⟩
    rintro _ ⟨⟩
    exact h
  | raise e s =>
    refine ⟨nofun, ?_⟩
    rintro _ ⟨⟩
    exact h
  | call others _ ih => exact ih (h _ others).2

end Ends

/-! ## The calls of a task -/

/-- Every call the task may put satisfies `P`. -/
def Calls (P : κ → Prop) : Task κ ρ ε α → Prop
  | .pure _ => True
  | .raise _ => True
  | .call c k => P c ∧ ∀ r, Calls P (k r)

section Calls

variable {P : κ → Prop}

theorem calls_bind {t : Task κ ρ ε α} (ht : t.Calls P)
    (hf : ∀ a, (f a).Calls P) : (t >>= f).Calls P := by
  induction t with
  | pure a => exact hf a
  | raise e => trivial
  | call c k ih => exact ⟨ht.1, fun r => ih r (ht.2 r)⟩

theorem calls_perform {c : κ} (h : P c) : (perform c : Task κ ρ ε (ρ c)).Calls P :=
  ⟨h, fun _ => trivial⟩

theorem calls_lift {x : Except ε α} : (lift x : Task κ ρ ε α).Calls P := by
  cases x <;> trivial

theorem calls_fold {f : β → α → Task κ ρ ε β} (hf : ∀ b a, (f b a).Calls P) {b : β}
    {as : List α} : (fold f b as).Calls P := by
  induction as generalizing b with
  | nil => trivial
  | cons a as ih => exact calls_bind (hf b a) fun _ => ih

end Calls

/-! ## A task alone -/

section Alone

variable {σ : Type} (answer : σ → (c : κ) → σ × ρ c)

/-- The end of a task that nothing interleaves with. -/
def alone : Task κ ρ ε α → σ → Except ε α × σ
  | .pure a, s => (.ok a, s)
  | .raise e, s => (.error e, s)
  | .call c k, s => alone (k (answer s c).2) (answer s c).1

variable {answer} {s s' : σ}

theorem alone_bind {t : Task κ ρ ε α} {a : α} (h : alone answer t s = (.ok a, s')) :
    alone answer (t >>= f) s = alone answer (f a) s' := by
  induction t generalizing s with
  | pure b =>
    cases h
    rfl
  | raise e => cases h
  | call c k ih => exact ih _ h

theorem alone_of_wp {G : σ → σ → Prop} {Q : α → σ → Prop} {E : ε → σ → Prop} {t : Task κ ρ ε α}
    (h : wp answer Eq G t Q E s) {a : α} (ha : alone answer t s = (.ok a, s')) : Q a s' := by
  induction t generalizing s with
  | pure b =>
    cases ha
    exact h
  | raise e => cases ha
  | call c k ih => exact ih _ (h s rfl).2 ha

theorem ends_alone {R : σ → σ → Prop} (hR : ∀ s, R s s) (t : Task κ ρ ε α) (s : σ) :
    Ends answer R t s (alone answer t s).1 (alone answer t s).2 := by
  induction t generalizing s with
  | pure a => exact .pure a s
  | raise e => exact .raise e s
  | call c k ih => exact .call (hR s) (ih _ _)

end Alone

end Task

end Medre.Framework
