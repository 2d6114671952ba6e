import Mathlib.Data.List.Induction
import Mathlib.Tactic.Common

/-! # Runs of a deterministic machine that answers every call

An interleaving of any number of clients is one list of calls. The rules below turn one-step
facts into facts about every run. -/

namespace Medre.Framework

variable {σ α β : Type*} (step : σ → α → σ × β)

/-- The state after a list of calls. -/
def run (s : σ) : List α → σ
  | [] => s
  | a :: as => run (step s a).1 as

/-- The calls of a run, each with the answer it got. -/
def trace (s : σ) : List α → List (α × β)
  | [] => []
  | a :: as => (a, (step s a).2) :: trace (step s a).1 as

@[simp] theorem run_nil (s : σ) : run step s [] = s := rfl

@[simp] theorem run_cons (s : σ) (a : α) (as : List α) :
    run step s (a :: as) = run step (step s a).1 as := rfl

theorem run_append (s : σ) (as bs : List α) :
    run step s (as ++ bs) = run step (run step s as) bs := by
  induction as generalizing s with
  | nil => rfl
  | cons a as ih => exact ih (step s a).1

theorem run_snoc (s : σ) (as : List α) (a : α) :
    run step s (as ++ [a]) = (step (run step s as) a).1 := by
  rw [run_append]
  rfl

theorem trace_append (s : σ) (as bs : List α) :
    trace step s (as ++ bs) = trace step s as ++ trace step (run step s as) bs := by
  induction as generalizing s with
  | nil => rfl
  | cons a as ih =>
    show (a, (step s a).2) :: trace step (step s a).1 (as ++ bs) = _
    rw [ih]
    rfl

theorem trace_snoc (s : σ) (as : List α) (a : α) :
    trace step s (as ++ [a]) =
      trace step s as ++ [(a, (step (run step s as) a).2)] := by
  rw [trace_append]
  rfl

/-- Every answered call of a run was put to some state of that run. -/
theorem mem_trace {s : σ} {as : List α} {a : α} {b : β} (h : (a, b) ∈ trace step s as) :
    ∃ pre post, as = pre ++ a :: post ∧ (step (run step s pre) a).2 = b := by
  induction as generalizing s with
  | nil => exact absurd h List.not_mem_nil
  | cons c as ih =>
    rcases List.mem_cons.mp h with heq | hmem
    · obtain ⟨rfl, rfl⟩ := Prod.mk.inj heq
      exact ⟨[], as, rfl, rfl⟩
    · obtain ⟨pre, post, rfl, hb⟩ := ih hmem
      exact ⟨c :: pre, post, rfl, hb⟩

section Rules

variable {step}

/-- Invariant rule: what one call preserves, every run preserves. -/
theorem run_invariant {I : σ → Prop} (hstep : ∀ s a, I s → I (step s a).1) {s : σ} (hs : I s) :
    ∀ as, I (run step s as) := by
  intro as
  induction as generalizing s with
  | nil => exact hs
  | cons a as ih => exact ih (hstep s a hs)

/-- Invariant rule under a side condition on the calls: `K s a` says that the
call `a` is acceptable in the state `s` it is put to. -/
theorem run_invariant_of {I : σ → Prop} {K : σ → α → Prop}
    (hstep : ∀ s a, I s → K s a → I (step s a).1) {s : σ} (hs : I s) :
    ∀ as, (∀ pre a post, as = pre ++ a :: post → K (run step s pre) a) →
      I (run step s as) := by
  intro as hok
  induction as generalizing s with
  | nil => exact hs
  | cons a as ih =>
    refine ih (hstep s a hs (hok [] a as rfl)) ?_
    intro pre b post heq
    exact hok (a :: pre) b post (by rw [heq]; rfl)

/-- Evolution rule: a reflexive and transitive relation that one call respects
(in states where `I` holds) relates the two ends of every run. -/
theorem run_evolves {I : σ → Prop} {R : σ → σ → Prop} (hrefl : ∀ s, R s s)
    (htrans : ∀ {a b c}, R a b → R b c → R a c) (hinv : ∀ s a, I s → I (step s a).1)
    (hstep : ∀ s a, I s → R s (step s a).1) {s : σ} (hs : I s) :
    ∀ as, R s (run step s as) := by
  intro as
  induction as generalizing s with
  | nil => exact hrefl s
  | cons a as ih => exact htrans (hstep s a hs) (ih (hinv s a hs))

/-- History rule: an invariant that relates the answers given so far to the
current state. -/
theorem run_history {I : List (α × β) → σ → Prop} {s : σ} (hs : I [] s)
    (hstep : ∀ h t a, I h t → I (h ++ [(a, (step t a).2)]) (step t a).1) :
    ∀ as, I (trace step s as) (run step s as) := by
  intro as
  induction as using List.reverseRecOn with
  | nil => exact hs
  | append_singleton as a ih =>
    rw [trace_snoc, run_snoc]
    exact hstep _ _ a ih

end Rules

end Medre.Framework
