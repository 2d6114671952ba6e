import Medre.Framework.DatetimeText

/-! # The instants of computed values

A value made from a microsecond count denotes that count: the calendar's two directions
agree, and adding seconds moves the instant by as much. -/

namespace Medre.Framework.Datetime

theorem monthDay_ordinal (y left n : ℕ) {m : ℕ} (hm : 1 ≤ m) :
    daysBeforeMonth y (monthDay y left m n).1 + (monthDay y left m n).2 =
      daysBeforeMonth y m + n + 1 := by
  induction left generalizing m n with
  | zero => rfl
  | succ left ih =>
    unfold monthDay
    by_cases hn : n < daysInMonth y m
    · rw [if_pos hn]
      rfl
    · have hsucc : daysBeforeMonth y (m + 1) = daysBeforeMonth y m + daysInMonth y m :=
        daysBeforeMonth_succ hm
      rw [if_neg hn, ih _ (Nat.le_add_left 1 m)]
      omega

theorem toOrdinal_lastDay {y : ℕ} (h : isLeap y = true) :
    toOrdinal y 12 31 = daysBeforeYear y + 366 := by
  simp [toOrdinal, daysBeforeMonth, daysInMonth, h]

/-- The years before one that is counted in cycles of 400, 100, 4 and 1. -/
theorem daysBeforeYear_cycles {a b c d : ℕ} (hb : b ≤ 3) (hc : c ≤ 24) (hd : d ≤ 3) :
    daysBeforeYear (a * 400 + 1 + b * 100 + c * 4 + d) =
      a * 146097 + b * 36524 + c * 1461 + d * 365 := by
  unfold daysBeforeYear
  have hyears : a * 400 + 1 + b * 100 + c * 4 + d - 1 = a * 400 + b * 100 + c * 4 + d := by omega
  rw [hyears]
  have h4 : (a * 400 + b * 100 + c * 4 + d) / 4 = a * 100 + b * 25 + c := by omega
  have h100 : (a * 400 + b * 100 + c * 4 + d) / 100 = a * 4 + b := by omega
  have h400 : (a * 400 + b * 100 + c * 4 + d) / 400 = a := by omega
  omega

/-- The last year of a cycle of 4 is a leap year, unless a century ends that is not the
fourth. -/
theorem isLeap_cycle {a b c : ℕ} (h : c ≤ 23 ∨ b = 3 ∧ c = 24) :
    isLeap (a * 400 + 1 + b * 100 + c * 4 + 3) = true := by
  simp only [isLeap, Bool.and_eq_true, Bool.or_eq_true, decide_eq_true_eq]
  omega

theorem toOrdinal_ofOrdinal {n : ℕ} (hn : 1 ≤ n) :
    toOrdinal (ofOrdinal n).1 (ofOrdinal n).2.1 (ofOrdinal n).2.2 = n := by
  unfold ofOrdinal
  dsimp only
  generalize ha : (n - 1) / 146097 = a
  generalize hb : (n - 1) % 146097 / 36524 = b
  generalize hc : (n - 1) % 146097 % 36524 / 1461 = c
  generalize hd : (n - 1) % 146097 % 36524 % 1461 / 365 = d
  split
  · rename_i hlast
    simp only [Bool.or_eq_true, decide_eq_true_eq] at hlast
    -- the last day of a cycle of 400 years or of 4
    obtain ⟨b', c', hb', hc', hcycle, hyear, htotal⟩ : ∃ b' c', b' ≤ 3 ∧ c' ≤ 24 ∧
        (c' ≤ 23 ∨ b' = 3 ∧ c' = 24) ∧
        a * 400 + 1 + b * 100 + c * 4 + d - 1 = a * 400 + 1 + b' * 100 + c' * 4 + 3 ∧
        a * 146097 + b' * 36524 + c' * 1461 + 3 * 365 + 366 = n := by
      by_cases hb4 : b = 4
      · exact ⟨3, 24, by omega⟩
      · exact ⟨b, c, by omega⟩
    refine (congrArg (toOrdinal · 12 31) hyear).trans ?_
    rw [toOrdinal_lastDay (isLeap_cycle hcycle), daysBeforeYear_cycles hb' hc' (le_refl 3)]
    exact htotal
  · rename_i hlast
    simp only [Bool.or_eq_true, decide_eq_true_eq, not_or] at hlast
    have hmonth := monthDay_ordinal (a * 400 + 1 + b * 100 + c * 4 + d) 11
      ((n - 1) % 146097 % 36524 % 1461 % 365) (le_refl 1)
    have hdays := daysBeforeYear_cycles (a := a) (b := b) (c := c) (d := d) (by omega)
      (by omega) (by omega)
    have hfirst : daysBeforeMonth (a * 400 + 1 + b * 100 + c * 4 + d) 1 = 0 := rfl
    simp only [toOrdinal]
    omega

theorem toMicros_ofMicros {t : ℤ} {zone : Option ℤ} {d : Datetime}
    (h : ofMicros t zone = .ok d) : d.toMicros = t := by
  unfold ofMicros at h
  dsimp only at h
  split at h
  · rename_i hordinal
    cases h
    have hday := toOrdinal_ofOrdinal (n := (t / microsPerDay).toNat) (by omega)
    unfold toMicros
    rw [hday]
    dsimp only
    unfold microsPerDay at hordinal ⊢
    omega
  · cases h

/-- Adding seconds keeps the zone and moves the instant. -/
theorem addSeconds_instant {d e : Datetime} {s : ℤ} (h : d.addSeconds s = .ok e) :
    e.instant = d.instant + s * 1000000 := by
  have hzone := (ofMicros_civil h).2
  rw [instant, instant, toMicros_ofMicros h, hzone]
  omega

theorem addSeconds_utc {d e : Datetime} {s : ℤ} (hd : d.Utc) (h : d.addSeconds s = .ok e) :
    e.Utc := by
  obtain ⟨hcivil, hzone⟩ := ofMicros_civil h
  exact ⟨hcivil, hzone.trans hd.zone⟩

end Medre.Framework.Datetime
