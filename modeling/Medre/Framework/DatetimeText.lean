import Medre.Framework.DatetimeOrder

/-! # `isoformat` is read back by `fromisoformat`, whatever the offset and the precision -/

namespace Medre.Framework.Datetime

open List

variable {a : Datetime}

/-- A timezone-aware value: its offset is less than a day. -/
structure Aware (d : Datetime) : Prop extends Civil d where
  zone : ∃ off, d.utcoffset = some off ∧ off.natAbs < 86400000000

theorem Utc.aware (h : a.Utc) : a.Aware := ⟨h.toCivil, 0, h.zone, by decide⟩

/-! ## The clock -/

/-- The clock of `isoformat`, with the fraction if there is one. -/
def clockText (d : Datetime) : List Char :=
  clockChars d ++ if d.microsecond = 0 then [] else '.' :: padDigits 6 d.microsecond

theorem isoformat_toList (d : Datetime) :
    d.isoformat.toList = dateChars d ++ 'T' :: (clockText d ++ offsetChars d.utcoffset) := by
  unfold isoformat isoformatMicroseconds clockText
  split <;> simp [*]

theorem clockText_plain {c : Char} (hc : c ∈ clockText a) : (!isZoneMark c) = true := by
  rcases mem_append.mp hc with hc | hc
  · exact clockChars_plain hc
  · split at hc
    · exact absurd hc not_mem_nil
    · rcases mem_cons.mp hc with rfl | hc
      · decide
      · exact plain_padDigits hc

theorem hhMmSsFf_minutes {h m : ℕ} (hh : h < 10 ^ 2) (hm : m < 10 ^ 2) :
    hhMmSsFf (padDigits 2 h ++ ':' :: padDigits 2 m) = some (h, m, 0, 0) := by
  have hread := digits_padDigits hm 0 []
  rw [append_nil, Nat.zero_mul, Nat.zero_add] at hread
  unfold hhMmSsFf
  simp only [digits_padDigits hh, hread, Nat.zero_mul, Nat.zero_add, Option.bind_eq_bind,
    Option.bind_some, Option.pure_def]

theorem hhMmSsFf_seconds {h m s f : ℕ} {r : List Char} (hh : h < 10 ^ 2) (hm : m < 10 ^ 2)
    (hs : s < 10 ^ 2) (hf : fraction r = some f) :
    hhMmSsFf (padDigits 2 h ++ ':' :: (padDigits 2 m ++ ':' :: (padDigits 2 s ++ r))) =
      some (h, m, s, f) := by
  unfold hhMmSsFf
  simp only [digits_padDigits hh, digits_padDigits hm, digits_padDigits hs, hf, Nat.zero_mul,
    Nat.zero_add, Option.bind_eq_bind, Option.bind_some, Option.pure_def]

theorem hhMmSsFf_clockText (h : a.Civil) :
    hhMmSsFf (clockText a) = some (a.hour, a.minute, a.second, a.microsecond) := by
  have hfraction : fraction (if a.microsecond = 0 then [] else '.' :: padDigits 6 a.microsecond) =
      some a.microsecond := by
    split
    · next hzero =>
        rw [hzero]
        rfl
    · exact fraction_padDigits h.microsecond
  have hread := hhMmSsFf_seconds (lt_trans h.hour (by decide)) (lt_trans h.minute (by decide))
    (lt_trans h.second (by decide)) hfraction
  unfold clockText clockChars
  simpa only [append_assoc, cons_append] using hread

/-! ## The offset -/

/-- The digits of an offset of `n` microseconds. -/
def zoneText (n : ℕ) : List Char :=
  padDigits 2 (n / 1000000 / 3600) ++ ':' :: padDigits 2 (n / 1000000 / 60 % 60) ++
    if n % 60000000 = 0 then []
    else ':' :: padDigits 2 (n / 1000000 % 60) ++
      if n % 1000000 = 0 then [] else '.' :: padDigits 6 (n % 1000000)

theorem offsetChars_some (off : ℤ) :
    offsetChars (some off) = (if off < 0 then '-' else '+') :: zoneText off.natAbs := rfl

theorem hhMmSsFf_zoneText {n : ℕ} (hn : n < 86400000000) :
    hhMmSsFf (zoneText n) =
      some (n / 1000000 / 3600, n / 1000000 / 60 % 60, n / 1000000 % 60, n % 1000000) := by
  have hh : n / 1000000 / 3600 < 10 ^ 2 := by omega
  have hm : n / 1000000 / 60 % 60 < 10 ^ 2 := by omega
  have hs : n / 1000000 % 60 < 10 ^ 2 := by omega
  unfold zoneText
  by_cases hwhole : n % 60000000 = 0
  · rw [if_pos hwhole, append_nil, hhMmSsFf_minutes hh hm]
    simp only [Option.some.injEq, Prod.mk.injEq, true_and]
    omega
  · rw [if_neg hwhole]
    have hfraction : fraction (if n % 1000000 = 0 then [] else '.' :: padDigits 6 (n % 1000000)) =
        some (n % 1000000) := by
      split
      · next hzero =>
          rw [hzero]
          rfl
      · exact fraction_padDigits (Nat.mod_lt n (by decide))
    have hread := hhMmSsFf_seconds hh hm hs hfraction
    simpa only [append_assoc, cons_append] using hread

/-! ## The whole text -/

/-- The microseconds of an offset's fields. -/
def offsetMicros (q : ℕ × ℕ × ℕ × ℕ) : ℕ :=
  ((q.1 * 60 + q.2.1) * 60 + q.2.2.1) * 1000000 + q.2.2.2

theorem isoTime_signed {clock zone : List Char} {sign : Char} {fields q : ℕ × ℕ × ℕ × ℕ}
    (hplain : ∀ c ∈ clock, (!isZoneMark c) = true)
    (hsign : sign = '-' ∨ sign = '+') (hclock : hhMmSsFf clock = some fields)
    (hzone : hhMmSsFf zone = some q) (hday : (offsetMicros q : ℤ) < microsPerDay) :
    isoTime (clock ++ sign :: zone) =
      some (fields, some (if sign = '-' then -(offsetMicros q : ℤ) else offsetMicros q)) := by
  have hmark : (!isZoneMark sign) = false := by
    rcases hsign with rfl | rfl <;> rfl
  have hbefore : (clock ++ sign :: zone).takeWhile (fun c => !isZoneMark c) = clock := by
    rw [takeWhile_append_of_pos hplain, takeWhile_cons, hmark]
    simp
  have hafter : (clock ++ sign :: zone).dropWhile (fun c => !isZoneMark c) = sign :: zone := by
    rw [dropWhile_append_of_pos hplain, dropWhile_cons, hmark]
    simp
  unfold isoTime
  rw [hbefore, hafter, hclock]
  simp only [Option.bind_eq_bind, Option.bind_some]
  split
  · next heq => cases heq
  · next heq =>
      rcases hsign with rfl | rfl <;> cases (List.cons.inj heq).1
  · next mark r _ heq =>
      obtain ⟨rfl, rfl⟩ := List.cons.inj heq
      rw [hzone, Option.bind_some]
      obtain ⟨h, m, s, f⟩ := q
      rw [show offsetMicros (h, m, s, f) = ((h * 60 + m) * 60 + s) * 1000000 + f from rfl] at hday ⊢
      rw [if_pos hday]
      rfl

theorem offset_total (n : ℕ) :
    offsetMicros (n / 1000000 / 3600, n / 1000000 / 60 % 60, n / 1000000 % 60, n % 1000000) =
      n := by
  show ((n / 1000000 / 3600 * 60 + n / 1000000 / 60 % 60) * 60 + n / 1000000 % 60) * 1000000 +
    n % 1000000 = n
  omega

theorem isoTime_text (h : a.Aware) :
    isoTime (clockText a ++ offsetChars a.utcoffset) =
      some ((a.hour, a.minute, a.second, a.microsecond), a.utcoffset) := by
  obtain ⟨off, hoff, hday⟩ := h.zone
  have hsign : (if off < 0 then '-' else '+') = '-' ∨ (if off < 0 then '-' else '+') = '+' := by
    by_cases hneg : off < 0
    · exact .inl (if_pos hneg)
    · exact .inr (if_neg hneg)
  rw [hoff, offsetChars_some, isoTime_signed (fun c hc => clockText_plain hc) hsign
    (hhMmSsFf_clockText h.toCivil) (hhMmSsFf_zoneText hday)
    (by rw [offset_total]; exact Int.ofNat_lt.mpr hday), offset_total]
  by_cases hneg : off < 0
  · rw [if_pos hneg, if_pos rfl, Int.ofNat_natAbs_of_nonpos hneg.le, Int.neg_neg]
  · rw [if_neg hneg, if_neg (by decide), Int.natAbs_of_nonneg (not_lt.mp hneg)]

theorem fromisoformat_isoformat (h : a.Aware) : fromisoformat a.isoformat = .ok a := by
  have htext : a.isoformat = String.ofList (dateChars a ++ 'T' ::
      (clockText a ++ offsetChars a.utcoffset)) := by
    rw [← isoformat_toList, String.ofList_toList]
  rw [htext]
  exact fromisoformat_of_isoTime h.toCivil (isoTime_text h)

end Medre.Framework.Datetime
