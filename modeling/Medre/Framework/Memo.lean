import Medre.Framework.Dict
import Medre.Framework.Tasks

/-! # Reads that are remembered

A memo keeps the first answer of every key, also when it is a failure. A task whose calls are
answered from what was answered before sees one snapshot of the answers. -/

namespace Medre.Framework

/-! ## A memo -/

/-- The answers so far: the values and the failures. -/
structure Memo (κ ε α : Type) where
  cache : Dict κ α := .empty
  errors : Dict κ ε := .empty

namespace Memo

variable {κ ε α σ : Type} [DecidableEq κ]

def known (m : Memo κ ε α) (k : κ) : Option (Except ε α) :=
  match m.errors.get? k with
  | some e => some (.error e)
  | none => (m.cache.get? k).map .ok

/-- A key is read once; its value or its failure answers from then on. -/
def memoized (read : σ → κ → σ × Except ε α) (s : σ) (m : Memo κ ε α) (k : κ) :
    (σ × Memo κ ε α) × Except ε α :=
  match m.known k with
  | some r => ((s, m), r)
  | none =>
    match read s k with
    | (s', .ok a) => ((s', { m with cache := m.cache.set k a }), .ok a)
    | (s', .error e) => ((s', { m with errors := m.errors.set k e }), .error e)

variable {read : σ → κ → σ × Except ε α} {s : σ} {m : Memo κ ε α} {k k' : κ} {r : Except ε α}

theorem known_eq_none : m.known k = none ↔ m.errors.get? k = none ∧ m.cache.get? k = none := by
  unfold known
  cases m.errors.get? k <;> simp

theorem known_eq_error {e : ε} : m.known k = some (.error e) ↔ m.errors.get? k = some e := by
  unfold known
  cases m.errors.get? k <;> simp

theorem mem_errors : k ∈ m.errors.keys ↔ ∃ e, m.known k = some (.error e) := by
  rw [Dict.mem_keys]
  exact exists_congr fun e => known_eq_error.symm

theorem known_memoized : (memoized read s m k).1.2.known k' =
    if k' = k then some (memoized read s m k).2 else m.known k' := by
  unfold memoized
  cases hknown : m.known k with
  | some r =>
    by_cases h : k' = k
    · rw [if_pos h, h]
      exact hknown
    · rw [if_neg h]
  | none =>
    obtain ⟨herror, -⟩ := known_eq_none.mp hknown
    rcases hread : read s k with ⟨s', r⟩
    cases r with
    | ok a =>
      by_cases h : k' = k
      · subst h
        simp [known, herror]
      · simp [known, Dict.get?_set_of_ne h, h]
    | error e =>
      by_cases h : k' = k
      · simp [known, h]
      · simp [known, Dict.get?_set_of_ne h, h]

theorem memoized_of_known (h : m.known k = some r) : memoized read s m k = ((s, m), r) := by
  rw [memoized, h]

theorem known_memoized_of_known (h : m.known k' = some r) :
    (memoized read s m k).1.2.known k' = some r := by
  rw [known_memoized]
  by_cases hk : k' = k
  · rw [if_pos hk, memoized_of_known (hk ▸ h)]
  · rw [if_neg hk, h]

/-- What holds of every answer of the reads holds of every remembered one. -/
theorem known_sound {P : κ → Except ε α → Prop} (hread : ∀ s k, P k (read s k).2)
    (h : ∀ k r, m.known k = some r → P k r) (hk : (memoized read s m k).1.2.known k' = some r) :
    P k' r := by
  rw [known_memoized] at hk
  split at hk
  · rename_i heq
    cases hk
    subst heq
    unfold memoized
    cases hknown : m.known k' with
    | some r => exact h k' r hknown
    | none =>
      have hP := hread s k'
      rcases hr : read s k' with ⟨s', r⟩
      rw [hr] at hP
      cases r <;> exact hP
  · exact h k' r hk

end Memo

/-! ## Tasks over the answers to their calls -/

namespace Task

variable {κ : Type} {ρ : κ → Type} {ε α β : Type} {P : (c : κ) → ρ c → Prop} {Q : α → Prop}
  {t : Task κ ρ ε α}

/-- Whatever answers `P` allows, `Q` holds of what the task returns. -/
def Ensures (P : (c : κ) → ρ c → Prop) : Task κ ρ ε α → (α → Prop) → Prop
  | .pure a, Q => Q a
  | .raise _, _ => True
  | .call c k, Q => ∀ b, P c b → (k b).Ensures P Q

theorem ensures_bind {f : α → Task κ ρ ε β} {Q' : β → Prop} (ht : t.Ensures P Q)
    (hf : ∀ a, Q a → (f a).Ensures P Q') : (t >>= f).Ensures P Q' := by
  induction t with
  | pure a => exact hf a ht
  | raise e => trivial
  | call c k ih => exact fun b hb => ih b (ht b hb)

theorem ensures_fold {f : β → α → Task κ ρ ε β} {I : List α → β → Prop}
    (hstep : ∀ done a b, I done b → (f b a).Ensures P (I (done ++ [a]))) {b : β}
    {done as : List α} (h : I done b) : (fold f b as).Ensures P (I (done ++ as)) := by
  induction as generalizing done b with
  | nil =>
    rw [List.append_nil]
    exact h
  | cons a as ih =>
    refine ensures_bind (hstep done a b h) fun b' h' => ?_
    rw [List.append_cons]
    exact ih h'

section Remembered

variable {σ : Type} {answer : σ → (c : κ) → σ × ρ c} {known : σ → (c : κ) → Option (ρ c)}

theorem Ensures.alone {I : σ → Prop} (ht : t.Ensures P Q)
    (hanswer : ∀ s c, I s → P c (answer s c).2 ∧ I (answer s c).1) {s s' : σ} {a : α}
    (hs : I s) (h : t.alone answer s = (.ok a, s')) : Q a := by
  induction t generalizing s with
  | pure b =>
    cases h
    exact ht
  | raise e => cases h
  | call c k ih =>
    obtain ⟨hP, hI⟩ := hanswer s c hs
    exact ih _ (ht _ hP) hI h

/-- Every answer is remembered, and is the answer from then on. -/
structure Remembers (answer : σ → (c : κ) → σ × ρ c) (known : σ → (c : κ) → Option (ρ c)) :
    Prop where
  answered : ∀ s c, known (answer s c).1 c = some (answer s c).2
  kept : ∀ s c c' b, known s c' = some b → known (answer s c).1 c' = some b

/-- What every answer keeps, the run keeps. -/
theorem alone_invariant {I : σ → Prop} (hanswer : ∀ s c, I s → I (answer s c).1) {s s' : σ}
    {r : Except ε α} (h : t.alone answer s = (r, s')) (hs : I s) : I s' := by
  induction t generalizing s with
  | pure a =>
    cases h
    exact hs
  | raise e =>
    cases h
    exact hs
  | call c k ih => exact ih _ h (hanswer s c hs)

/-- A run whose answers are remembered got the answers it ends with. -/
theorem Remembers.ensures (hknown : Remembers answer known) {s s' : σ} {a : α}
    (h : alone answer t s = (.ok a, s'))
    (ht : t.Ensures (fun c b => known s' c = some b) Q) : Q a := by
  induction t generalizing s with
  | pure b =>
    cases h
    exact ht
  | raise e => cases h
  | call c k ih =>
    have hrest : alone answer (k (answer s c).2) (answer s c).1 = (.ok a, s') := h
    exact ih _ hrest (ht _ (alone_invariant (fun s' c' => hknown.kept s' c' c _) hrest
      (hknown.answered s c)))

end Remembered

end Task

end Medre.Framework
