import Medre.Rendering.RadioPlans

/-! # Texts cut to a byte budget (`rendering/text_helpers.py`) -/

namespace Medre.Rendering

open List

/-- The loop of `truncate_text_bytes`, for at most `n` iterations. -/
def trimLoop (maxTextBytes : ℤ) : ℕ → List Char → Option (List Char)
  | n, truncated =>
    if maxTextBytes < utf8Length truncated ∧ truncated ≠ [] then
      match n with
      | 0 => none
      | n + 1 => trimLoop maxTextBytes n truncated.dropLast
    else some truncated

/-- `truncate_text_bytes`: the text, whether it was cut, its bytes before and after. -/
def truncateTextBytes (iterations : ℕ) (text : String) (maxTextBytes : Option ℤ) :
    Option (String × Bool × ℕ × ℕ) :=
  let originalBytes := utf8Length text.toList
  match maxTextBytes with
  | none => some (text, false, originalBytes, originalBytes)
  | some limit =>
    if originalBytes ≤ limit then some (text, false, originalBytes, originalBytes)
    else (trimLoop limit iterations text.toList).map fun truncated =>
      (String.ofList truncated, true, originalBytes, utf8Length truncated)

/-- The loop ends at the longest prefix that fits. -/
theorem trimLoop_longest {budget : ℕ} {cs : List Char} {n : ℕ} (hn : cs.length ≤ n) :
    ∃ kept, trimLoop budget n cs = some kept ∧ kept <+: cs ∧ utf8Length kept ≤ budget ∧
      ∀ p, p <+: cs → utf8Length p ≤ budget → p <+: kept := by
  induction n generalizing cs with
  | zero =>
    obtain rfl := length_eq_zero_iff.mp (Nat.le_zero.mp hn)
    exact ⟨[], rfl, prefix_refl _, Nat.zero_le _, fun p hp _ => hp⟩
  | succ n ih =>
    unfold trimLoop
    split
    · next hguard =>
      have hlength : cs.dropLast.length ≤ n := by
        rw [length_dropLast]
        omega
      obtain ⟨kept, hrun, hprefix, hfits, hlongest⟩ := ih hlength
      have hdrop := dropLast_prefix cs
      refine ⟨kept, hrun, hprefix.trans hdrop, hfits, fun p hp hsize => ?_⟩
      -- a prefix that fits is not the whole text
      have hne : p ≠ cs := by
        rintro rfl
        exact absurd (Int.ofNat_le.mpr hsize) (not_le.mpr hguard.1)
      have hshort : p.length ≤ cs.dropLast.length := by
        have := lt_of_le_of_ne hp.length_le fun h => hne (hp.eq_of_length h)
        rw [length_dropLast]
        omega
      exact hlongest p (prefix_of_prefix_length_le hp hdrop hshort) hsize
    · next hguard =>
      refine ⟨cs, rfl, prefix_refl cs, ?_, fun p hp _ => hp⟩
      by_cases hnil : cs = []
      · subst hnil
        exact Nat.zero_le _
      · exact Int.ofNat_le.mp (not_lt.mp fun h => hguard ⟨h, hnil⟩)

/-- A text is cut to its longest prefix of whole code points that fits in the budget, in at
most one iteration a code point. -/
theorem truncateTextBytes_longest (text : String) (budget extra : ℕ) :
    ∃ kept cut, truncateTextBytes (text.length + extra) text (some budget) =
        some (kept, cut, text.utf8ByteSize, kept.utf8ByteSize) ∧
      kept.toList <+: text.toList ∧ kept.utf8ByteSize ≤ budget ∧
      (∀ p : String, p.toList <+: text.toList → p.utf8ByteSize ≤ budget →
        p.toList <+: kept.toList) ∧
      (cut = true ↔ kept ≠ text) := by
  have hsize : ∀ s : String, utf8Length s.toList = s.utf8ByteSize := fun s => by
    rw [utf8Length_eq_size, String.ofList_toList]
  simp only [truncateTextBytes, ← hsize]
  split
  · next hfits =>
    exact ⟨text, false, rfl, prefix_refl _, Int.ofNat_le.mp hfits, fun p hp _ => hp, by simp⟩
  · next hlarge =>
    obtain ⟨kept, hrun, hprefix, hfits, hlongest⟩ :=
      @trimLoop_longest budget text.toList _ (Nat.le_add_right text.length extra)
    refine ⟨String.ofList kept, true, ?_, ?_, ?_, ?_, ?_⟩
    · rw [hrun, String.toList_ofList]
      rfl
    · rwa [String.toList_ofList]
    · rwa [String.toList_ofList]
    · rw [String.toList_ofList]
      exact fun p => hlongest p.toList
    · refine ⟨fun _ heq => hlarge ?_, fun _ => rfl⟩
      rw [← heq, String.toList_ofList]
      exact Int.ofNat_le.mpr hfits

end Medre.Rendering
