import Mathlib.Tactic.IntervalCases
import Medre.Framework.Datetime

/-! # UTC texts compare as the instants they denote

Every field is written in a fixed width; the fraction `isoformat()` leaves out would sort after
the zone mark. -/

namespace Medre.Framework.Datetime

open List

variable {k m n y : ℕ} {r s : List Char} {c : Char} {d : Datetime}

/-! ## Fixed-width fields -/

theorem digitChar_lt (hmn : m < n) (hn : n < 10) : digitChar m < digitChar n := by
  have h : ∀ n : Fin 10, ∀ m : Fin 10, m < n → digitChar m < digitChar n := by decide
  exact h ⟨n, hn⟩ ⟨m, hmn.trans hn⟩ hmn

theorem digit?_digitChar (hn : n < 10) : digit? (digitChar n) = some n := by
  have h : ∀ n : Fin 10, digit? (digitChar n) = some n.val := by decide
  exact h ⟨n, hn⟩

theorem digitChar_plain (hn : n < 10) : isZoneMark (digitChar n) = false ∧ digitChar n ≠ 'W' := by
  have h : ∀ n : Fin 10, isZoneMark (digitChar n) = false ∧ digitChar n ≠ 'W' := by decide
  exact h ⟨n, hn⟩

theorem padDigits_append_lt (hmn : m < n) (hn : n < 10 ^ k) (r s : List Char) :
    padDigits k m ++ r < padDigits k n ++ s := by
  induction k generalizing m n r s with
  | zero => omega
  | succ k ih =>
    simp only [padDigits, append_assoc, singleton_append]
    rcases Nat.lt_or_ge (m / 10) (n / 10) with hlt | hge
    · refine ih hlt ?_ _ _
      omega
    · have heq : m / 10 = n / 10 := by omega
      rw [heq]
      refine append_left_lt (cons_lt_cons_iff.mpr (.inl ?_))
      exact digitChar_lt (by omega) (by omega)

theorem field_lt (hn : n < 10 ^ k) (h : m < n ∨ m = n ∧ r < s) :
    padDigits k m ++ r < padDigits k n ++ s := by
  rcases h with hlt | ⟨rfl, hrs⟩
  · exact padDigits_append_lt hlt hn r s
  · exact append_left_lt hrs

theorem cons_lt (h : r < s) : c :: r < c :: s :=
  cons_lt_cons_iff.mpr (.inr ⟨rfl, h⟩)

/-! ## The calendar is ordered by its fields -/

def yearLength (y : ℕ) : ℕ := if isLeap y then 366 else 365

theorem daysBeforeYear_succ (hy : 1 ≤ y) :
    daysBeforeYear (y + 1) = daysBeforeYear y + yearLength y := by
  obtain ⟨n, rfl⟩ := Nat.exists_eq_add_of_le' hy
  have h4 : (n + 1) / 4 = n / 4 + if 4 ∣ n + 1 then 1 else 0 := Nat.succ_div
  have h100 : (n + 1) / 100 = n / 100 + if 100 ∣ n + 1 then 1 else 0 := Nat.succ_div
  have h400 : (n + 1) / 400 = n / 400 + if 400 ∣ n + 1 then 1 else 0 := Nat.succ_div
  simp only [Nat.dvd_iff_mod_eq_zero] at h4 h100 h400
  simp only [daysBeforeYear, yearLength, isLeap, Nat.add_sub_cancel, Bool.and_eq_true,
    Bool.or_eq_true, decide_eq_true_eq, ne_eq, h4, h100, h400]
  by_cases m4 : (n + 1) % 4 = 0
  · by_cases m100 : (n + 1) % 100 = 0
    · by_cases m400 : (n + 1) % 400 = 0
      · simp only [m4, m100, m400, if_true, not_true, or_true, and_true]
        omega
      · simp only [m4, m100, m400, if_true, if_false, not_true, or_false, and_false]
        omega
    · have m400 : ¬(n + 1) % 400 = 0 := by omega
      simp only [m4, m100, m400, if_true, if_false, not_false_eq_true, true_or, and_true]
      omega
  · have m100 : ¬(n + 1) % 100 = 0 := by omega
    have m400 : ¬(n + 1) % 400 = 0 := by omega
    simp only [m4, m100, m400, if_false, false_and]
    omega

theorem daysBeforeYear_mono {z : ℕ} (hy : 1 ≤ y) (h : y ≤ z) :
    daysBeforeYear y ≤ daysBeforeYear z := by
  induction z, h using Nat.le_induction with
  | base => exact le_refl _
  | succ z hz ih =>
    rw [daysBeforeYear_succ (hy.trans hz)]
    exact ih.trans (Nat.le_add_right _ _)

theorem daysBeforeMonth_mono (hm : 1 ≤ m) (h : m ≤ n) :
    daysBeforeMonth y m ≤ daysBeforeMonth y n := by
  induction n, h using Nat.le_induction with
  | base => exact le_refl _
  | succ n hn ih =>
    obtain ⟨k, rfl⟩ := Nat.exists_eq_add_of_le' (hm.trans hn)
    exact ih.trans (Nat.le_add_right _ _)

theorem day_le {d : ℕ} (hm : 1 ≤ m) (hm' : m ≤ 12) (hd : d ≤ daysInMonth y m) :
    daysBeforeMonth y m + d ≤ daysBeforeMonth y (m + 1) ∧
      daysBeforeMonth y m + d ≤ yearLength y := by
  obtain ⟨k, rfl⟩ := Nat.exists_eq_add_of_le' hm
  have hnext : daysBeforeMonth y (k + 1 + 1) =
      daysBeforeMonth y (k + 1) + daysInMonth y (k + 1) := rfl
  refine ⟨by omega, ?_⟩
  have hyear : daysBeforeMonth y 13 = yearLength y := by
    unfold yearLength
    cases h : isLeap y <;> simp [daysBeforeMonth, daysInMonth, h]
  have hmono : daysBeforeMonth y (k + 1 + 1) ≤ daysBeforeMonth y 13 :=
    daysBeforeMonth_mono (by omega) (by omega)
  omega

structure Civil (d : Datetime) : Prop where
  year : 1 ≤ d.year ∧ d.year ≤ 9999
  month : 1 ≤ d.month ∧ d.month ≤ 12
  day : 1 ≤ d.day ∧ d.day ≤ daysInMonth d.year d.month
  hour : d.hour < 24
  minute : d.minute < 60
  second : d.second < 60
  microsecond : d.microsecond < 1000000

theorem inRange_iff (d : Datetime) : d.inRange = true ↔ d.Civil := by
  simp only [inRange, Bool.and_eq_true, decide_eq_true_eq]
  constructor
  · rintro ⟨⟨⟨⟨⟨⟨hy, hm⟩, hd⟩, hh⟩, hmi⟩, hs⟩, hu⟩
    exact ⟨hy, hm, hd, hh, hmi, hs, hu⟩
  · rintro ⟨hy, hm, hd, hh, hmi, hs, hu⟩
    exact ⟨⟨⟨⟨⟨⟨hy, hm⟩, hd⟩, hh⟩, hmi⟩, hs⟩, hu⟩

theorem Civil.day_lt (h : d.Civil) : d.day < 100 := by
  have hday := h.day.2
  have hlen : ∀ y m : ℕ, daysInMonth y m ≤ 31 := by
    intro y m
    unfold daysInMonth
    split
    · split <;> omega
    · omega
    · omega
    · omega
    · omega
    · omega
  have := hlen d.year d.month
  omega

def clockMicros (d : Datetime) : ℕ :=
  ((d.hour * 60 + d.minute) * 60 + d.second) * 1000000 + d.microsecond

variable {a b : Datetime}

theorem Civil.clock_lt (h : a.Civil) : (a.clockMicros : ℤ) < microsPerDay := by
  have h1 := h.hour
  have h2 := h.minute
  have h3 := h.second
  have h4 := h.microsecond
  unfold clockMicros microsPerDay
  omega

theorem toMicros_eq (d : Datetime) :
    d.toMicros = (toOrdinal d.year d.month d.day : ℤ) * microsPerDay + d.clockMicros := rfl

theorem toMicros_lt_of_ordinal (ha : a.Civil)
    (h : toOrdinal a.year a.month a.day < toOrdinal b.year b.month b.day) :
    a.toMicros < b.toMicros := by
  have hclock := ha.clock_lt
  rw [toMicros_eq, toMicros_eq]
  unfold microsPerDay at hclock ⊢
  omega

theorem toOrdinal_lt_of_year (ha : a.Civil) (hb : b.Civil) (h : a.year < b.year) :
    toOrdinal a.year a.month a.day < toOrdinal b.year b.month b.day := by
  have hday := (day_le ha.month.1 ha.month.2 ha.day.2).2
  have hsucc := daysBeforeYear_succ ha.year.1
  have hmono : daysBeforeYear (a.year + 1) ≤ daysBeforeYear b.year :=
    daysBeforeYear_mono (by omega) h
  have hpos := hb.day.1
  unfold toOrdinal
  omega

theorem toOrdinal_lt_of_month (ha : a.Civil) (hb : b.Civil) (hyear : a.year = b.year)
    (h : a.month < b.month) :
    toOrdinal a.year a.month a.day < toOrdinal b.year b.month b.day := by
  have hday := (day_le ha.month.1 ha.month.2 ha.day.2).1
  have hmono : daysBeforeMonth a.year (a.month + 1) ≤ daysBeforeMonth a.year b.month :=
    daysBeforeMonth_mono (by omega) h
  have hpos := hb.day.1
  unfold toOrdinal
  rw [← hyear]
  omega

/-- `a` comes before `b`, field by field. -/
def FieldsLt (a b : Datetime) : Prop :=
  a.year < b.year ∨ a.year = b.year ∧ (a.month < b.month ∨ a.month = b.month ∧
    (a.day < b.day ∨ a.day = b.day ∧ (a.hour < b.hour ∨ a.hour = b.hour ∧
      (a.minute < b.minute ∨ a.minute = b.minute ∧ (a.second < b.second ∨
        a.second = b.second ∧ a.microsecond < b.microsecond)))))

theorem toMicros_lt_of_fields (ha : a.Civil) (hb : b.Civil) (h : a.FieldsLt b) :
    a.toMicros < b.toMicros := by
  rcases h with hy | ⟨hy, hm | ⟨hm, hd | ⟨hd, hclock⟩⟩⟩
  · exact toMicros_lt_of_ordinal ha (toOrdinal_lt_of_year ha hb hy)
  · exact toMicros_lt_of_ordinal ha (toOrdinal_lt_of_month ha hb hy hm)
  · refine toMicros_lt_of_ordinal ha ?_
    unfold toOrdinal
    rw [hy, hm]
    omega
  · rw [toMicros_eq, toMicros_eq, hy, hm, hd]
    have h2 := ha.minute
    have h3 := ha.second
    have h4 := ha.microsecond
    unfold clockMicros
    omega

theorem fieldsLt_trichotomy (a b : Datetime) :
    a.FieldsLt b ∨ b.FieldsLt a ∨ (a.year = b.year ∧ a.month = b.month ∧ a.day = b.day ∧
      a.hour = b.hour ∧ a.minute = b.minute ∧ a.second = b.second ∧
      a.microsecond = b.microsecond) := by
  unfold FieldsLt
  omega

/-! ## UTC texts -/

structure Utc (d : Datetime) : Prop extends Civil d where
  zone : d.utcoffset = some 0

theorem Utc.instant_eq (h : a.Utc) : a.instant = a.toMicros := by
  rw [instant, h.zone]
  exact sub_zero _

def utcZone : List Char := ['+', '0', '0', ':', '0', '0']

/-- A text that gives the date and the time to the second, one field after another. -/
def isoText (d : Datetime) (tail : List Char) : List Char :=
  padDigits 4 d.year ++ ('-' :: (padDigits 2 d.month ++ ('-' :: (padDigits 2 d.day ++
    ('T' :: (padDigits 2 d.hour ++ (':' :: (padDigits 2 d.minute ++
      (':' :: (padDigits 2 d.second ++ tail))))))))))

/-- Texts are ordered by the fields if their tails are. -/
theorem isoText_lt (hb : b.Civil) (htail : a.microsecond < b.microsecond → r < s)
    (h : a.FieldsLt b) :
    isoText a r < isoText b s := by
  have hy : b.year < 10 ^ 4 := Nat.lt_succ_of_le hb.year.2
  have hm : b.month < 10 ^ 2 := lt_of_le_of_lt hb.month.2 (by decide)
  have hd : b.day < 10 ^ 2 := hb.day_lt
  have hh : b.hour < 10 ^ 2 := lt_trans hb.hour (by decide)
  have hmi : b.minute < 10 ^ 2 := lt_trans hb.minute (by decide)
  have hs : b.second < 10 ^ 2 := lt_trans hb.second (by decide)
  refine field_lt hy (Or.imp_right (And.imp_right fun h => cons_lt ?_) h)
  refine field_lt hm (Or.imp_right (And.imp_right fun h => cons_lt ?_) h)
  refine field_lt hd (Or.imp_right (And.imp_right fun h => cons_lt ?_) h)
  refine field_lt hh (Or.imp_right (And.imp_right fun h => cons_lt ?_) h)
  refine field_lt hmi (Or.imp_right (And.imp_right fun h => cons_lt ?_) h)
  exact field_lt hs (Or.imp_right (And.imp_right htail) h)

/-- A way to write UTC values that is ordered as their fields is ordered as the
instants they denote. -/
theorem utc_le_iff {write : Datetime → String} (ha : a.Utc) (hb : b.Utc)
    (hlt : ∀ {a b : Datetime}, a.Utc → b.Utc → a.FieldsLt b → write a < write b) :
    write a ≤ write b ↔ a.instant ≤ b.instant := by
  rw [ha.instant_eq, hb.instant_eq]
  rcases fieldsLt_trichotomy a b with h | h | ⟨hy, hm, hd, hh, hmi, hs, hu⟩
  · exact iff_of_true (le_of_lt (hlt ha hb h))
      (le_of_lt (toMicros_lt_of_fields ha.toCivil hb.toCivil h))
  · exact iff_of_false (not_le_of_gt (hlt hb ha h))
      (not_le_of_gt (toMicros_lt_of_fields hb.toCivil ha.toCivil h))
  · have hab : a = b := by
      cases a
      cases b
      simp only at hy hm hd hh hmi hs hu
      have hz := ha.zone.trans hb.zone.symm
      simp only at hz
      rw [hy, hm, hd, hh, hmi, hs, hu, hz]
    rw [hab]
    exact iff_of_true (le_refl _) (le_refl _)

theorem offsetChars_utc : offsetChars (some 0) = utcZone := by
  decide

theorem fraction_lt (h : m < n) (hn : n < 1000000) :
    '.' :: (padDigits 6 m ++ utcZone) < '.' :: (padDigits 6 n ++ utcZone) :=
  cons_lt (field_lt hn (.inl h))

theorem isoformatMicroseconds_utc (h : a.Utc) :
    a.isoformatMicroseconds =
      String.ofList (isoText a ('.' :: (padDigits 6 a.microsecond ++ utcZone))) := by
  unfold isoformatMicroseconds dateChars clockChars isoText
  rw [h.zone, offsetChars_utc]
  simp only [append_assoc, cons_append]

theorem isoformatMicroseconds_lt (ha : a.Utc) (hb : b.Utc) (h : a.FieldsLt b) :
    a.isoformatMicroseconds < b.isoformatMicroseconds := by
  rw [isoformatMicroseconds_utc ha, isoformatMicroseconds_utc hb, String.lt_iff_toList_lt,
    String.toList_ofList, String.toList_ofList]
  exact isoText_lt hb.toCivil (fun hu => fraction_lt hu hb.microsecond) h

theorem isoformatMicroseconds_le_iff (ha : a.Utc) (hb : b.Utc) :
    a.isoformatMicroseconds ≤ b.isoformatMicroseconds ↔ a.instant ≤ b.instant :=
  utc_le_iff ha hb isoformatMicroseconds_lt

theorem isoformat_utc (h : a.Utc) :
    a.isoformat = String.ofList (isoText a
      (if a.microsecond = 0 then utcZone
        else '.' :: (padDigits 6 a.microsecond ++ utcZone))) := by
  unfold isoformat
  split
  · unfold dateChars clockChars isoText
    rw [h.zone, offsetChars_utc]
    simp only [append_assoc, cons_append]
  · exact isoformatMicroseconds_utc h

theorem isoformat_lt (ha : a.Utc) (hb : b.Utc) (h : a.FieldsLt b) : a.isoformat < b.isoformat := by
  rw [isoformat_utc ha, isoformat_utc hb, String.lt_iff_toList_lt, String.toList_ofList,
    String.toList_ofList]
  refine isoText_lt hb.toCivil (fun hu => ?_) h
  rw [if_neg (by omega : b.microsecond ≠ 0)]
  split
  · -- a zone mark comes before a fraction
    exact cons_lt_cons_iff.mpr (.inl (by decide))
  · exact fraction_lt hu hb.microsecond

theorem isoformat_le_iff (ha : a.Utc) (hb : b.Utc) :
    a.isoformat ≤ b.isoformat ↔ a.instant ≤ b.instant :=
  utc_le_iff ha hb isoformat_lt

/-! ## Values from instants -/

theorem daysBeforeMonth_succ (hm : 1 ≤ m) :
    daysBeforeMonth y (m + 1) = daysBeforeMonth y m + daysInMonth y m := by
  obtain ⟨k, rfl⟩ := Nat.exists_eq_add_of_le' hm
  rfl

theorem monthDay_valid {left : ℕ} (hm : 1 ≤ m)
    (h : daysBeforeMonth y m + n < daysBeforeMonth y (m + left + 1)) :
    m ≤ (monthDay y left m n).1 ∧ (monthDay y left m n).1 ≤ m + left ∧
      1 ≤ (monthDay y left m n).2 ∧
      (monthDay y left m n).2 ≤ daysInMonth y (monthDay y left m n).1 := by
  induction left generalizing m n with
  | zero =>
    have hsucc := daysBeforeMonth_succ (y := y) hm
    refine ⟨le_refl _, le_refl _, Nat.le_add_left _ _, ?_⟩
    show n + 1 ≤ daysInMonth y m
    simp only [Nat.add_zero] at h
    omega
  | succ left ih =>
    unfold monthDay
    by_cases hn : n < daysInMonth y m
    · rw [if_pos hn]
      exact ⟨le_refl _, Nat.le_add_right _ _, Nat.le_add_left _ _, hn⟩
    · rw [if_neg hn]
      have hsucc := daysBeforeMonth_succ (y := y) hm
      have heq : m + (left + 1) + 1 = m + 1 + left + 1 := by omega
      rw [heq] at h
      obtain ⟨h1, h2, h3, h4⟩ := ih (m := m + 1) (n := n - daysInMonth y m) (by omega) (by omega)
      exact ⟨by omega, by omega, h3, h4⟩

theorem ofOrdinal_valid (h : n ≤ maxOrdinal) :
    (1 ≤ (ofOrdinal n).1 ∧ (ofOrdinal n).1 ≤ 9999) ∧
      (1 ≤ (ofOrdinal n).2.1 ∧ (ofOrdinal n).2.1 ≤ 12) ∧ 1 ≤ (ofOrdinal n).2.2 ∧
      (ofOrdinal n).2.2 ≤ daysInMonth (ofOrdinal n).1 (ofOrdinal n).2.1 := by
  unfold maxOrdinal at h
  unfold ofOrdinal
  dsimp only
  split
  · rename_i hlast
    simp only [Bool.or_eq_true, decide_eq_true_eq] at hlast
    dsimp only
    exact ⟨by omega, by omega, by omega, le_refl 31⟩
  · rename_i hlast
    generalize hy : (n - 1) / 146097 * 400 + 1 + (n - 1) % 146097 / 36524 * 100 +
      (n - 1) % 146097 % 36524 / 1461 * 4 + (n - 1) % 146097 % 36524 % 1461 / 365 = y
    have hyear : daysBeforeMonth y (1 + 11 + 1) = yearLength y := by
      unfold yearLength
      cases h : isLeap y <;> simp [daysBeforeMonth, daysInMonth, h]
    have hlong : 365 ≤ yearLength y := by
      unfold yearLength
      split <;> omega
    have hday : daysBeforeMonth y 1 + (n - 1) % 146097 % 36524 % 1461 % 365 <
        daysBeforeMonth y (1 + 11 + 1) := by
      show 0 + _ < _
      omega
    obtain ⟨h1, h2, h3, h4⟩ := monthDay_valid (le_refl 1) hday
    exact ⟨by omega, ⟨h1, h2⟩, h3, h4⟩

theorem ofMicros_civil {t : ℤ} {zone : Option ℤ} (h : ofMicros t zone = .ok d) :
    d.Civil ∧ d.utcoffset = zone := by
  unfold ofMicros at h
  dsimp only at h
  split at h
  · cases h
    have hrest : (t % microsPerDay).toNat < 86400000000 := by
      unfold microsPerDay
      omega
    obtain ⟨hy, hm, hd⟩ := ofOrdinal_valid (n := (t / microsPerDay).toNat) (by omega)
    exact ⟨⟨hy, hm, hd, by dsimp only; omega, by dsimp only; omega, by dsimp only; omega,
      by dsimp only; omega⟩, rfl⟩
  · cases h

theorem astimezoneUtc_utc {u : Datetime} (h : d.astimezoneUtc = .ok u) : u.Utc := by
  unfold astimezoneUtc at h
  split at h
  · obtain ⟨hcivil, hzone⟩ := ofMicros_civil h
    exact ⟨hcivil, hzone⟩
  · cases h

/-! ## Reading a text back -/

theorem digits_add (j k acc : ℕ) (cs : List Char) :
    digits (j + k) acc cs = (digits j acc cs).bind fun p => digits k p.1 p.2 := by
  induction j generalizing acc cs with
  | zero => simp [digits]
  | succ j ih =>
    cases cs with
    | nil => simp [digits, Nat.succ_add]
    | cons c cs =>
      rw [Nat.succ_add]
      simp only [digits]
      cases digit? c with
      | none => rfl
      | some n => exact ih _ _

theorem digits_padDigits (hn : n < 10 ^ k) (acc : ℕ) (r : List Char) :
    digits k acc (padDigits k n ++ r) = some (acc * 10 ^ k + n, r) := by
  induction k generalizing n acc r with
  | zero =>
    have h0 : n = 0 := by omega
    simp [digits, padDigits, h0]
  | succ k ih =>
    have hq : n / 10 < 10 ^ k := by
      omega
    rw [digits_add k 1, padDigits, append_assoc, ih hq]
    have hdigit : digit? (digitChar (n % 10)) = some (n % 10) := digit?_digitChar (by omega)
    simp only [Option.bind_some, singleton_append, digits, hdigit]
    show some ((acc * 10 ^ k + n / 10) * 10 + n % 10, r) = _
    rw [pow_succ, ← Nat.mul_assoc]
    congr 2
    omega

theorem length_padDigits (k n : ℕ) : (padDigits k n).length = k := by
  induction k generalizing n with
  | zero => rfl
  | succ k ih => rw [padDigits, length_append, ih, length_singleton]

theorem mem_padDigits (h : c ∈ padDigits k n) : ∃ m < 10, c = digitChar m := by
  induction k generalizing n with
  | zero => exact absurd h not_mem_nil
  | succ k ih =>
    rw [padDigits, mem_append, mem_singleton] at h
    rcases h with h | rfl
    · exact ih h
    · exact ⟨n % 10, Nat.mod_lt _ (by decide), rfl⟩

theorem isoDate_dateChars (h : a.Civil) :
    isoDate (dateChars a) = some (a.year, a.month, a.day) := by
  have hy : a.year < 10 ^ 4 := Nat.lt_succ_of_le h.year.2
  have hm : a.month < 10 ^ 2 := lt_of_le_of_lt h.month.2 (by decide)
  have hd : a.day < 10 ^ 2 := h.day_lt
  have hday : digits 2 0 (padDigits 2 a.day) = some (a.day, []) := by
    have hread := digits_padDigits hd 0 []
    rwa [append_nil, Nat.zero_mul, Nat.zero_add] at hread
  unfold isoDate dateChars
  rw [append_assoc, digits_padDigits hy, Nat.zero_mul, Nat.zero_add]
  simp only [Option.bind_eq_bind, Option.bind_some, cons_append]
  -- the month starts with a digit, so the date is not a week date
  split
  · rename_i r heq
    have hhead := congrArg List.head? (List.cons.inj heq).2
    exact absurd (Option.some.inj hhead) (digitChar_plain (Nat.mod_lt _ (by decide))).2
  · rename_i r heq
    cases (List.cons.inj heq).1
  · rename_i r hweek heq
    rw [← (List.cons.inj heq).2, digits_padDigits hm, Nat.zero_mul, Nat.zero_add]
    simp only [Option.bind_some, hday, if_true]
    rfl
  · rename_i hdash
    exact absurd rfl (hdash _)

theorem fraction_padDigits (hn : n < 10 ^ 6) : fraction ('.' :: padDigits 6 n) = some n := by
  have hlen : (padDigits 6 n).length = 6 := length_padDigits 6 _
  have hne : padDigits 6 n ≠ [] := by
    intro hnil
    rw [hnil] at hlen
    cases hlen
  have hall : (padDigits 6 n).all isDigit = true := by
    refine all_eq_true.mpr fun c hc => ?_
    obtain ⟨m, hm, rfl⟩ := mem_padDigits hc
    rw [isDigit, digit?_digitChar hm]
    rfl
  have htake : (padDigits 6 n).take 6 = padDigits 6 n := take_of_length_le (le_of_eq hlen)
  have hread := digits_padDigits hn 0 []
  rw [append_nil, Nat.zero_mul, Nat.zero_add] at hread
  simp [fraction, hne, hall, htake, hlen, hread]

theorem hhMmSsFf_clock (h : a.Civil) :
    hhMmSsFf (clockChars a ++ '.' :: padDigits 6 a.microsecond) =
      some (a.hour, a.minute, a.second, a.microsecond) := by
  have hh : a.hour < 10 ^ 2 := lt_trans h.hour (by decide)
  have hmi : a.minute < 10 ^ 2 := lt_trans h.minute (by decide)
  have hs : a.second < 10 ^ 2 := lt_trans h.second (by decide)
  have hfraction := fraction_padDigits h.microsecond
  unfold hhMmSsFf clockChars
  simp only [append_assoc, cons_append, digits_padDigits hh, digits_padDigits hmi,
    digits_padDigits hs, hfraction, Nat.zero_mul, Nat.zero_add, Option.bind_eq_bind,
    Option.bind_some, Option.pure_def]

theorem plain_padDigits (h : c ∈ padDigits k n) : (!isZoneMark c) = true := by
  obtain ⟨m, hm, rfl⟩ := mem_padDigits h
  rw [(digitChar_plain hm).1]
  rfl

theorem clockChars_plain {c : Char} (hc : c ∈ clockChars a) : (!isZoneMark c) = true := by
  simp only [clockChars, append_assoc, cons_append, mem_append, mem_cons] at hc
  rcases hc with hc | rfl | hc | rfl | hc
  · exact plain_padDigits hc
  · decide
  · exact plain_padDigits hc
  · decide
  · exact plain_padDigits hc

theorem isoTime_clock (h : a.Civil) :
    isoTime (clockChars a ++ '.' :: padDigits 6 a.microsecond ++ utcZone) =
      some ((a.hour, a.minute, a.second, a.microsecond), some 0) := by
  have hplain : ∀ c ∈ clockChars a ++ '.' :: padDigits 6 a.microsecond, (!isZoneMark c) = true := by
    intro c hc
    rcases mem_append.mp hc with hc | hc
    · exact clockChars_plain hc
    · rcases mem_cons.mp hc with rfl | hc
      · decide
      · exact plain_padDigits hc
  have hclock : (clockChars a ++ '.' :: padDigits 6 a.microsecond ++ utcZone).takeWhile
      (fun c => !isZoneMark c) = clockChars a ++ '.' :: padDigits 6 a.microsecond := by
    rw [takeWhile_append_of_pos hplain]
    exact append_nil _
  have hzone : (clockChars a ++ '.' :: padDigits 6 a.microsecond ++ utcZone).dropWhile
      (fun c => !isZoneMark c) = utcZone := by
    rw [dropWhile_append_of_pos hplain]
    rfl
  have hoffset : hhMmSsFf ['0', '0', ':', '0', '0'] = some (0, 0, 0, 0) := by decide
  unfold isoTime
  rw [hclock, hzone, hhMmSsFf_clock h]
  simp [utcZone, hoffset, microsPerDay]

/-- The text of a date and a time is read as the date and as the time. -/
theorem fromisoformat_of_isoTime (h : a.Civil) {r : List Char}
    (hread : isoTime r = some ((a.hour, a.minute, a.second, a.microsecond), a.utcoffset)) :
    fromisoformat (String.ofList (dateChars a ++ 'T' :: r)) = .ok a := by
  have hlen : (dateChars a).length = 10 := by simp [dateChars, length_padDigits]
  have hsep : separatorIndex (dateChars a ++ 'T' :: r) = some 10 := by
    have hw : digitChar (a.month / 10 % 10) ≠ 'W' := (digitChar_plain (Nat.mod_lt _ (by decide))).2
    simp [separatorIndex, dateChars, padDigits, hw]
  have hlt : 10 < (dateChars a ++ 'T' :: r).length := by simp [hlen]
  have hdrop : (dateChars a ++ 'T' :: r).drop (10 + 1) = r := by
    rfl
  have hrange : a.inRange = true := (inRange_iff a).mpr h
  simp only [fromisoformat, String.toList_ofList, hsep, Option.bind_eq_bind, Option.bind_some,
    take_left' hlen, isoDate_dateChars h, hlt, hdrop, hread, hrange, if_true, Option.pure_def]

theorem fromisoformat_utc (h : a.Utc) : fromisoformat a.isoformatMicroseconds = .ok a := by
  have hzone : offsetChars a.utcoffset = utcZone := by
    rw [h.zone]
    decide
  have htext : a.isoformatMicroseconds = String.ofList (dateChars a ++ 'T' ::
      (clockChars a ++ '.' :: padDigits 6 a.microsecond ++ utcZone)) := by
    rw [isoformatMicroseconds, hzone]
    simp only [append_assoc, cons_append]
  rw [htext]
  exact fromisoformat_of_isoTime h.toCivil ((isoTime_clock h.toCivil).trans (by rw [h.zone]))

end Medre.Framework.Datetime
