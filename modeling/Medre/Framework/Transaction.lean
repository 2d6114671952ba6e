import Mathlib.Logic.Relation
import Mathlib.Tactic.Common

/-! # Transaction bodies and what a committed one has done

A body reads and writes a store and may raise; `commit` keeps its writes on success only. The
`run_*` lemmas take a successful run apart, and `Follows` composes relations that every statement
respects. -/

namespace Medre.Framework

/-! ## Computations that may fail -/

theorem bind_of_ok {ε α β : Type} {a : Except ε α} {f : α → Except ε β} {u : α}
    {r : Except ε β} (ha : a = .ok u) (h : f u = r) : a >>= f = r := by
  rw [ha]
  exact h

theorem ok_of_bind {ε α β : Type} {a : Except ε α} {f : α → Except ε β} {v : β}
    (h : a >>= f = .ok v) : ∃ u, a = .ok u ∧ f u = .ok v := by
  cases a with
  | error e => cases h
  | ok u => exact ⟨u, rfl, h⟩

/-! ## Transaction bodies -/

/-- A transaction body over the store `σ` that may raise `ε`. -/
def Tx (σ ε α : Type) : Type := σ → Except ε (α × σ)

namespace Tx

variable {σ ε α β : Type}

def run (x : Tx σ ε α) (s : σ) : Except ε (α × σ) := x s

instance : Monad (Tx σ ε) where
  pure a := fun s => .ok (a, s)
  bind x f := fun s =>
    match x s with
    | .ok (a, t) => f a t
    | .error e => .error e

def raise (e : ε) : Tx σ ε α := fun _ => .error e

/-- A query: it reads the store and changes nothing. -/
def query (f : σ → α) : Tx σ ε α := fun s => .ok (f s, s)

def modify (f : σ → σ) : Tx σ ε Unit := fun s => .ok ((), f s)

/-- The value of a computation outside the store, or its error. -/
def lift (x : Except ε α) : Tx σ ε α := fun s =>
  match x with
  | .ok a => .ok (a, s)
  | .error e => .error e

/-- A savepoint: an error inside is caught and the writes inside are undone. -/
def attempt (x : Tx σ ε α) : Tx σ ε (Except ε α) := fun s =>
  match x s with
  | .ok (a, t) => .ok (.ok a, t)
  | .error e => .ok (.error e, s)

/-- The body goes on only when `b`. -/
def require (b : Bool) (e : ε) : Tx σ ε Unit :=
  if b then pure () else raise e

/-- The statement is issued only when `b`. -/
def onlyIf (b : Bool) (x : Tx σ ε Unit) : Tx σ ε Unit :=
  if b then x else pure ()

def within {τ : Type} (get : τ → σ) (put : τ → σ → τ) (x : Tx σ ε α) : Tx τ ε α := fun s =>
  match x (get s) with
  | .ok (a, t) => .ok (a, put s t)
  | .error e => .error e

/-! ## Successful runs, statement by statement -/

variable {x : Tx σ ε α} {f : α → Tx σ ε β} {s t u : σ}

@[simp] theorem run_bind {b : β} :
    (x >>= f).run s = .ok (b, u) ↔
      ∃ a t, x.run s = .ok (a, t) ∧ (f a).run t = .ok (b, u) := by
  show (match x.run s with
    | .ok (a, t) => (f a).run t
    | .error e => .error e) = _ ↔ _
  cases x.run s with
  | error e => simp
  | ok p =>
    obtain ⟨a, t⟩ := p
    simp

theorem run_bind_of_ok {a : α} (h : x.run s = .ok (a, t)) : (x >>= f).run s = (f a).run t := by
  show (match x.run s with
    | .ok (a, t) => (f a).run t
    | .error e => .error e) = _
  rw [h]

theorem run_bind_of_error {e : ε} (h : x.run s = .error e) : (x >>= f).run s = .error e := by
  show (match x.run s with
    | .ok (a, t) => (f a).run t
    | .error e => .error e) = _
  rw [h]

@[simp] theorem run_pure {a b : α} :
    (pure a : Tx σ ε α).run s = .ok (b, t) ↔ a = b ∧ s = t := by
  show Except.ok (a, s) = Except.ok (b, t) ↔ _
  simp

@[simp] theorem run_raise {e : ε} {b : α} :
    (raise e : Tx σ ε α).run s = .ok (b, t) ↔ False := by
  simp [raise, run]

@[simp] theorem run_query {g : σ → α} {a : α} :
    (query g : Tx σ ε α).run s = .ok (a, t) ↔ g s = a ∧ s = t := by
  simp [query, run]

@[simp] theorem run_modify {g : σ → σ} {b : Unit} :
    (modify g : Tx σ ε Unit).run s = .ok (b, t) ↔ g s = t := by
  simp [modify, run]

@[simp] theorem run_lift {y : Except ε α} {a : α} :
    (lift y : Tx σ ε α).run s = .ok (a, t) ↔ y = .ok a ∧ s = t := by
  unfold lift run
  cases y <;> simp

theorem run_attempt {r : Except ε α} :
    (attempt x).run s = .ok (r, t) ↔
      (∃ a, r = .ok a ∧ x.run s = .ok (a, t)) ∨
        (∃ e, r = .error e ∧ x.run s = .error e ∧ s = t) := by
  show (match x.run s with
    | .ok (a, t) => Except.ok (Except.ok a, t)
    | .error e => .ok (.error e, s)) = _ ↔ _
  cases x.run s with
  | error e => simp [eq_comm]
  | ok p =>
    obtain ⟨a, t⟩ := p
    simp [eq_comm]

@[simp] theorem run_require {b : Bool} {e : ε} {v : Unit} :
    (require b e : Tx σ ε Unit).run s = .ok (v, t) ↔ b = true ∧ s = t := by
  cases b <;> simp [require]

theorem run_onlyIf {b : Bool} {y : Tx σ ε Unit} {v : Unit} :
    (onlyIf b y).run s = .ok (v, t) ↔
      (b = true ∧ y.run s = .ok (v, t)) ∨ (b = false ∧ s = t) := by
  cases b <;> simp [onlyIf]

@[simp] theorem run_within {τ : Type} {get : τ → σ} {put : τ → σ → τ} {v w : τ} {a : α} :
    (within get put x).run v = .ok (a, w) ↔
      ∃ t, x.run (get v) = .ok (a, t) ∧ w = put v t := by
  show (match x.run (get v) with
    | .ok (a, t) => Except.ok (a, put v t)
    | .error e => .error e) = _ ↔ _
  cases x.run (get v) with
  | error e => simp
  | ok p =>
    obtain ⟨b, t⟩ := p
    simp [eq_comm]

theorem run_ite {p : Prop} [Decidable p] {y : Tx σ ε α} {a : α} :
    (if p then x else y).run s = .ok (a, t) ↔
      (p ∧ x.run s = .ok (a, t)) ∨ (¬p ∧ y.run s = .ok (a, t)) := by
  by_cases h : p <;> simp [h]

/-! ## Relations that a body follows -/

end Tx

/-- A way for the store to evolve that composes. -/
structure Evolution (σ : Type) where
  rel : σ → σ → Prop
  refl : ∀ s, rel s s
  trans : ∀ {a b c}, rel a b → rel b c → rel a c

namespace Tx

variable {σ ε α β : Type} {x : Tx σ ε α} {f : α → Tx σ ε β} {s t : σ}

/-- Every successful run of `x` moves the store along `E`. -/
def Follows (E : Evolution σ) (x : Tx σ ε α) : Prop :=
  ∀ s a t, x.run s = .ok (a, t) → E.rel s t

namespace Follows

variable {E F : Evolution σ}

theorem pure (a : α) : Follows E (pure a : Tx σ ε α) := by
  intro s b t h
  obtain ⟨-, rfl⟩ := run_pure.mp h
  exact E.refl s

theorem raise (e : ε) : Follows E (raise e : Tx σ ε α) := by
  intro s b t h
  exact (run_raise.mp h).elim

theorem query (g : σ → α) : Follows E (query g : Tx σ ε α) := by
  intro s b t h
  obtain ⟨-, rfl⟩ := run_query.mp h
  exact E.refl s

theorem lift (y : Except ε α) : Follows E (lift y : Tx σ ε α) := by
  intro s b t h
  obtain ⟨-, rfl⟩ := run_lift.mp h
  exact E.refl s

theorem require (b : Bool) (e : ε) : Follows E (require b e : Tx σ ε Unit) := by
  intro s v t h
  obtain ⟨-, rfl⟩ := run_require.mp h
  exact E.refl s

theorem modify {g : σ → σ} (h : ∀ s, E.rel s (g s)) : Follows E (modify g : Tx σ ε Unit) := by
  intro s v t hrun
  obtain rfl := run_modify.mp hrun
  exact h s

theorem bind (hx : Follows E x) (hf : ∀ a, Follows E (f a)) : Follows E (x >>= f) := by
  intro s b u h
  obtain ⟨a, t, ha, hb⟩ := run_bind.mp h
  exact E.trans (hx s a t ha) (hf a t b u hb)

theorem bind_lift {y : Except ε α} (hf : ∀ a, y = .ok a → Follows E (f a)) :
    Follows E (Tx.lift y >>= f) := by
  intro s b u h
  obtain ⟨a, t, ha, hb⟩ := run_bind.mp h
  obtain ⟨hy, rfl⟩ := run_lift.mp ha
  exact hf a hy s b u hb

theorem bind_query {g : σ → α} (hf : ∀ s, Follows E (f (g s))) : Follows E (Tx.query g >>= f) := by
  intro s b u h
  obtain ⟨a, t, ha, hb⟩ := run_bind.mp h
  obtain ⟨rfl, rfl⟩ := run_query.mp ha
  exact hf s s b u hb

theorem branch {p : Prop} [Decidable p] {y : Tx σ ε α} (hx : p → Follows E x)
    (hy : ¬p → Follows E y) : Follows E (if p then x else y) := by
  by_cases h : p
  · rw [if_pos h]
    exact hx h
  · rw [if_neg h]
    exact hy h

theorem ite {p : Prop} [Decidable p] {y : Tx σ ε α} (hx : Follows E x)
    (hy : Follows E y) : Follows E (if p then x else y) :=
  branch (fun _ => hx) fun _ => hy

theorem onlyIf (b : Bool) {y : Tx σ ε Unit} (hy : Follows E y) : Follows E (onlyIf b y) := by
  cases b with
  | false => exact pure ()
  | true => exact hy

theorem attempt (hx : Follows E x) : Follows E (attempt x) := by
  intro s r t h
  rcases run_attempt.mp h with ⟨a, -, ha⟩ | ⟨e, -, -, rfl⟩
  · exact hx s a t ha
  · exact E.refl s

theorem mono (h : ∀ a b, E.rel a b → F.rel a b) (hx : Follows E x) : Follows F x := by
  intro s a t hrun
  exact h s t (hx s a t hrun)

end Follows

section Footprint

variable {ι : Type} {T : ι → Type}

/-- The two stores agree on every component outside `S`. -/
def offComponents (sel : σ → (i : ι) → T i) (S : List ι) : Evolution σ where
  rel a b := ∀ i ∉ S, sel b i = sel a i
  refl _ _ _ := rfl
  trans hab hbc i hi := (hbc i hi).trans (hab i hi)

end Footprint

/-! ## Committing -/

/-- Run a body atomically: a raised error rolls every write back. -/
def commit (x : Tx σ ε α) (s : σ) : σ × Except ε α :=
  match x.run s with
  | .ok (a, t) => (t, .ok a)
  | .error e => (s, .error e)

theorem commit_ok {a : α} (h : x.run s = .ok (a, t)) : x.commit s = (t, .ok a) := by
  rw [commit, h]

theorem commit_error {e : ε} (h : x.run s = .error e) : x.commit s = (s, .error e) := by
  rw [commit, h]

/-- A committed call either ran to its end or left the store as it was. -/
theorem commit_cases (x : Tx σ ε α) (s : σ) :
    (∃ a t, x.run s = .ok (a, t) ∧ x.commit s = (t, .ok a)) ∨
      (∃ e, x.commit s = (s, .error e)) := by
  cases h : x.run s with
  | ok p => exact .inl ⟨p.1, p.2, rfl, commit_ok h⟩
  | error e => exact .inr ⟨e, commit_error h⟩

theorem run_of_commit {a : α} (h : (x.commit s).2 = .ok a) : x.run s = .ok (a, (x.commit s).1) := by
  rcases commit_cases x s with ⟨b, t, hrun, hc⟩ | ⟨e, hc⟩
  · rw [hc] at h ⊢
    cases h
    exact hrun
  · rw [hc] at h
    cases h

end Tx

end Medre.Framework
