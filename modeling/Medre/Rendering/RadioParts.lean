import Medre.Framework.GreedySplit
import Medre.Rendering.RadioProgress

/-! # What the radio planner computes

`_fragment_bodies` is a greedy splitter of the code points by their UTF-8 length. A wider
denominator leaves less room in every part, so the denominator iteration of `plan_radio_text`
climbs to its fixed point. -/

namespace Medre.Rendering

open List Medre.Framework

/-! ## The next body -/

theorem utf8Length_append (xs ys : List Char) :
    utf8Length (xs ++ ys) = utf8Length xs + utf8Length ys :=
  load_append xs ys

theorem utf8Length_pos {cs : List Char} (h : cs ≠ []) : 0 < utf8Length cs := by
  cases cs with
  | nil => exact absurd rfl h
  | cons c cs => exact Nat.add_pos_left (Char.utf8Size_pos c) _

theorem fitting_take (capacity : ℕ) (xs : List Char) :
    fitting capacity xs = xs.take (fitting capacity xs).length := by
  induction xs generalizing capacity with
  | nil => rfl
  | cons c cs ih =>
    unfold fitting
    split
    · rw [length_cons, take_succ_cons, ← ih]
    · rfl

theorem fitting_reaches (capacity : ℕ) (xs : List Char) :
    Reaches Char.utf8Size capacity xs (fitting capacity xs).length := by
  induction xs generalizing capacity with
  | nil => exact ⟨Nat.le_refl _, Nat.zero_le _, fun m hm _ => hm⟩
  | cons c cs ih =>
    unfold fitting
    split
    · next hc =>
        have h := ih (capacity - c.utf8Size)
        refine ⟨Nat.succ_le_succ h.le_length, ?_, ?_⟩
        · have := h.fits
          rw [length_cons, take_succ_cons, load_cons]
          omega
        · intro m hm hload
          cases m with
          | zero => exact Nat.zero_le _
          | succ m =>
            rw [take_succ_cons, load_cons] at hload
            exact Nat.succ_le_succ (h.most m (Nat.le_of_succ_le_succ hm) (by omega))
    · next hc =>
        refine ⟨Nat.zero_le _, Nat.zero_le _, ?_⟩
        intro m hm hload
        cases m with
        | zero => exact Nat.le_refl _
        | succ m =>
          rw [take_succ_cons, load_cons] at hload
          omega

theorem find?_range_reverse (n : ℕ) (p : ℕ → Bool) :
    match (List.range n).reverse.find? p with
    | some i => i < n ∧ p i = true ∧ ∀ j < n, p j = true → j ≤ i
    | none => ∀ j < n, p j = false := by
  induction n with
  | zero => simp
  | succ n ih =>
    rw [range_succ, reverse_append, reverse_singleton, singleton_append, find?_cons]
    cases hn : p n with
    | true => exact ⟨Nat.lt_succ_self n, hn, fun j hj _ => Nat.le_of_lt_succ hj⟩
    | false =>
      cases hfind : (List.range n).reverse.find? p with
      | some i =>
        rw [hfind] at ih
        refine ⟨by omega, ih.2.1, fun j hj hp => ?_⟩
        obtain hlt | rfl := Nat.lt_succ_iff_lt_or_eq.mp hj
        · exact ih.2.2 j hlt hp
        · rw [hn] at hp
          cases hp
      | none =>
        rw [hfind] at ih
        intro j hj
        obtain hlt | rfl := Nat.lt_succ_iff_lt_or_eq.mp hj
        · exact ih j hlt
        · exact hn

theorem isBreak_iff_lead (cs : List Char) (i : ℕ) :
    IsBreak pySpace cs i ↔
      (cs.takeWhile pySpace).length < i ∧ (cs[i]?).any pySpace = true := by
  constructor
  · rintro ⟨⟨c, hc, hspace⟩, j, hj, d, hd, hword⟩
    refine ⟨?_, by rw [hc]; exact hspace⟩
    by_contra hle
    -- the non-space would be inside the run
    have hmem : d ∈ cs.takeWhile pySpace := by
      rw [mem_iff_getElem?]
      refine ⟨j, ?_⟩
      rw [← takeWhile_append_dropWhile (p := pySpace) (l := cs),
        getElem?_append_left (by omega)] at hd
      exact hd
    rw [mem_takeWhile_imp hmem] at hword
    cases hword
  · rintro ⟨hlead, hany⟩
    obtain ⟨c, hc, hspace⟩ : ∃ c, cs[i]? = some c ∧ pySpace c = true := by
      cases hget : cs[i]? with
      | none => simp [hget] at hany
      | some c => exact ⟨c, rfl, by simpa [hget] using hany⟩
    refine ⟨⟨c, hc, hspace⟩, (cs.takeWhile pySpace).length, hlead, ?_⟩
    have hlt : (cs.takeWhile pySpace).length < cs.length :=
      lt_trans hlead (List.getElem?_eq_some_iff.mp hc).1
    cases hrest : cs.dropWhile pySpace with
    | nil =>
      have hsplit := takeWhile_append_dropWhile (p := pySpace) (l := cs)
      rw [hrest, append_nil] at hsplit
      rw [hsplit] at hlt
      exact absurd hlt (lt_irrefl _)
    | cons d ds =>
      refine ⟨d, ?_, ?_⟩
      · have hget : cs[(cs.takeWhile pySpace).length]? =
            (cs.takeWhile pySpace ++ cs.dropWhile pySpace)[(cs.takeWhile pySpace).length]? := by
          rw [takeWhile_append_dropWhile]
        rw [hget, getElem?_append_right (Nat.le_refl _), hrest, Nat.sub_self]
        rfl
      · have := head_dropWhile_not pySpace (l := cs) (by simp [hrest])
        simpa [hrest] using this

theorem isBreak_take {cs : List Char} {n i : ℕ} (h : i < n) :
    IsBreak pySpace (cs.take n) i ↔ IsBreak pySpace cs i := by
  have hget : ∀ j ≤ i, (cs.take n)[j]? = cs[j]? := fun j hj =>
    getElem?_take_of_lt (by omega)
  unfold IsBreak
  rw [hget i (Nat.le_refl i)]
  refine and_congr_right fun _ => ?_
  constructor
  · rintro ⟨j, hj, c, hc, hword⟩
    exact ⟨j, hj, c, by rwa [hget j hj.le] at hc, hword⟩
  · rintro ⟨j, hj, c, hc, hword⟩
    exact ⟨j, hj, c, by rwa [hget j hj.le], hword⟩

theorem cutAtSpace_spec (cs : List Char) :
    (∃ i < cs.length, IsBreak pySpace cs i ∧ (∀ j < cs.length, IsBreak pySpace cs j → j ≤ i) ∧
        cutAtSpace cs = cs.take (i + 1)) ∨
      ((∀ j < cs.length, ¬IsBreak pySpace cs j) ∧ cutAtSpace cs = cs) := by
  have hspec := find?_range_reverse cs.length fun i =>
    decide ((cs.takeWhile pySpace).length < i) && (cs[i]?).any pySpace
  have hfilter : ((List.range cs.length).reverse.filter
        fun i => decide ((cs.takeWhile pySpace).length < i)).find? (fun i => (cs[i]?).any pySpace) =
      (List.range cs.length).reverse.find? fun i =>
        decide ((cs.takeWhile pySpace).length < i) && (cs[i]?).any pySpace := by
    simp only [find?_filter, Bool.decide_and, Bool.decide_eq_true]
  have hbreak : ∀ i, (decide ((cs.takeWhile pySpace).length < i) && (cs[i]?).any pySpace) = true ↔
      IsBreak pySpace cs i := by
    intro i
    rw [isBreak_iff_lead, Bool.and_eq_true, decide_eq_true_eq]
  simp only [cutAtSpace, hfilter]
  cases hfind : (List.range cs.length).reverse.find? fun i =>
      decide ((cs.takeWhile pySpace).length < i) && (cs[i]?).any pySpace with
  | some i =>
    rw [hfind] at hspec
    exact .inl ⟨i, hspec.1, (hbreak i).mp hspec.2.1,
      fun j hj hj' => hspec.2.2 j hj ((hbreak j).mpr hj'), rfl⟩
  | none =>
    rw [hfind] at hspec
    refine .inr ⟨fun j hj hj' => ?_, rfl⟩
    have := hspec j hj
    rw [(hbreak j).mpr hj'] at this
    cases this

/-- The next body is the piece a greedy splitter cuts off. -/
theorem nextBody_cut (capacity : ℕ) (rest : List Char) :
    ∃ k, nextBody capacity rest = rest.take k ∧ k ≤ rest.length ∧
      Cut Char.utf8Size pySpace capacity rest k := by
  have hreach := fitting_reaches capacity rest
  have htake := fitting_take capacity rest
  unfold nextBody
  by_cases hlt : (fitting capacity rest).length < rest.length
  · rw [if_pos hlt]
    rcases cutAtSpace_spec (fitting capacity rest) with ⟨i, hi, hbreak, hlast, heq⟩ | ⟨hnone, heq⟩
    · refine ⟨i + 1, ?_, by omega, .soft hreach hlt hi ?_ ?_⟩
      · rw [heq, htake, take_take, Nat.min_eq_left (by omega)]
      · rw [htake] at hbreak
        exact (isBreak_take hi).mp hbreak
      · intro j hj hj'
        refine hlast j hj ?_
        rw [htake]
        exact (isBreak_take hj).mpr hj'
    · refine ⟨(fitting capacity rest).length, heq.trans htake, hlt.le, .hard hreach hlt ?_⟩
      intro j hj hj'
      refine hnone j hj ?_
      rw [htake]
      exact (isBreak_take hj).mpr hj'
  · rw [if_neg hlt]
    have hall : (fitting capacity rest).length = rest.length :=
      le_antisymm hreach.le_length (not_lt.mp hlt)
    refine ⟨rest.length, by rw [htake, hall], Nat.le_refl _, .whole ?_⟩
    rwa [hall] at hreach

/-! ## The bodies for one denominator -/

/-- What the prefix and the marker leave of the budget in the part after `done` parts. -/
def partCapacity (pre : List Char) (budget total done : ℕ) : ℕ :=
  budget - utf8Length (pre ++ marker (done + 1) total)

section Fragment

variable {pre source rest : List Char} {budget total total' room room' done : ℕ}
  {bodies bodies' : List (List Char)}

theorem fragmentBodies_cons {c : Char} {cs : List Char}
    (h : fragmentBodies pre budget total room done (c :: cs) = .ok bodies) :
    ∃ room' k bodies', room = room' + 1 ∧ 0 < k ∧
      utf8Length (pre ++ marker (done + 1) total) < budget ∧
      Cut Char.utf8Size pySpace (partCapacity pre budget total done) (c :: cs) k ∧
      fragmentBodies pre budget total room' (done + 1) ((c :: cs).drop k) = .ok bodies' ∧
      bodies = (c :: cs).take k :: bodies' := by
  cases room with
  | zero => cases h
  | succ room =>
    unfold fragmentBodies at h
    simp only at h
    split at h
    · cases h
    · next hcap =>
        split at h
        · cases h
        · next hbody =>
            have hnat : ((budget : ℤ) - utf8Length (pre ++ marker (done + 1) total)).toNat =
                partCapacity pre budget total done := by
              unfold partCapacity
              omega
            obtain ⟨k, hk, hlen, hcut⟩ :=
              nextBody_cut (partCapacity pre budget total done) (c :: cs)
            rw [hnat, hk] at h hbody
            have hlength : ((c :: cs).take k).length = k := length_take_of_le hlen
            rw [hlength] at h
            split at h
            · next bodies' hrest =>
                cases h
                refine ⟨room, k, bodies', rfl, ?_, by omega, hcut, hrest, rfl⟩
                exact Nat.pos_of_ne_zero fun h0 => hbody (by rw [h0, take_zero])
            · cases h

theorem fragmentBodies_split (h : fragmentBodies pre budget total room done rest = .ok bodies) :
    GreedySplit Char.utf8Size pySpace (partCapacity pre budget total) done rest bodies ∧
      bodies.length ≤ room := by
  induction room generalizing done rest bodies with
  | zero =>
    cases rest with
    | nil =>
      cases h
      exact ⟨.done done, Nat.le_refl _⟩
    | cons c cs => cases h
  | succ room ih =>
    cases rest with
    | nil =>
      cases h
      exact ⟨.done done, Nat.zero_le _⟩
    | cons c cs =>
      obtain ⟨room', k, bodies', hroom, hk, -, hcut, hrest, rfl⟩ := fragmentBodies_cons h
      cases hroom
      obtain ⟨hsplit, hle⟩ := ih hrest
      exact ⟨.next hcut hk hsplit, Nat.succ_le_succ hle⟩

theorem fragmentBodies_room
    (h : fragmentBodies pre budget total room done rest = .ok bodies) {j : ℕ}
    (hj : j < bodies.length) : utf8Length (pre ++ marker (done + j + 1) total) < budget := by
  induction room generalizing done rest bodies j with
  | zero =>
    cases rest with
    | nil =>
      cases h
      exact absurd hj (Nat.not_lt_zero j)
    | cons c cs => cases h
  | succ room ih =>
    cases rest with
    | nil =>
      cases h
      exact absurd hj (Nat.not_lt_zero j)
    | cons c cs =>
      obtain ⟨room', k, bodies', hroom, -, hfits, -, hrest, rfl⟩ := fragmentBodies_cons h
      cases hroom
      cases j with
      | zero => exact hfits
      | succ j =>
        have := ih hrest (Nat.lt_of_succ_lt_succ hj)
        rwa [show done + 1 + j + 1 = done + (j + 1) + 1 by omega] at this

theorem fragmentBodies_room_le
    (h : fragmentBodies pre budget total room done rest = .ok bodies) (hroom : room ≤ room') :
    fragmentBodies pre budget total room' done rest = .ok bodies := by
  induction room generalizing done rest bodies room' with
  | zero =>
    cases rest with
    | nil =>
      cases h
      cases room' <;> rfl
    | cons c cs => cases h
  | succ room ih =>
    obtain ⟨room', rfl⟩ : ∃ r, room' = r + 1 := ⟨room' - 1, by omega⟩
    cases rest with
    | nil =>
      cases h
      rfl
    | cons c cs =>
      unfold fragmentBodies at h ⊢
      simp only at h ⊢
      split at h
      · cases h
      · next hcap =>
          rw [if_neg hcap]
          split at h
          · cases h
          · next hbody =>
              rw [if_neg hbody]
              split at h
              · next bodies' hrest =>
                  rw [ih hrest (Nat.le_of_succ_le_succ hroom)]
                  exact h
              · cases h

theorem two_le_length (h : fragmentBodies pre budget total room 0 source = .ok bodies)
    (hne : source ≠ []) (hlong : budget < utf8Length source + utf8Length pre) :
    2 ≤ bodies.length := by
  have hsplit := (fragmentBodies_split h).1
  have hflat := hsplit.flatten_eq
  match bodies with
  | [] => exact absurd hflat.symm hne
  | [body] =>
    have hload : utf8Length body ≤ partCapacity pre budget total (0 + 0) :=
      hsplit.load_le (j := 0) rfl
    have hbody : body = source := by simpa using hflat
    have hpos := utf8Length_pos hne
    unfold partCapacity at hload
    rw [hbody, utf8Length_append] at hload
    omega
  | _ :: _ :: _ => exact Nat.le_add_left _ _

/-! ## The denominator -/

theorem decimal_length_mono {m n : ℕ} (h : m ≤ n) : (decimal m).length ≤ (decimal n).length := by
  have hdigits : ∀ k, decimal k = Nat.toDigits 10 k := fun k => by simp [decimal]
  rw [hdigits, hdigits]
  have hpos : 0 < (Nat.toDigits 10 n).length := Nat.length_toDigits_pos
  have hlt : n < 10 ^ (Nat.toDigits 10 n).length :=
    (Nat.length_toDigits_le_iff (by decide) hpos).mp (Nat.le_refl _)
  exact (Nat.length_toDigits_le_iff (by decide) hpos).mpr (lt_of_le_of_lt h hlt)

theorem utf8Length_decimal (n : ℕ) : utf8Length (decimal n) = (decimal n).length := by
  have hone : ∀ c ∈ decimal n, c.utf8Size = 1 := by
    intro c hc
    have hdigit : c.isDigit = true :=
      Nat.isDigit_of_mem_toDigits (b := 10) (n := n) (by decide) (by decide)
        (by simpa [decimal] using hc)
    simp only [Char.isDigit, Bool.and_eq_true, decide_eq_true_eq] at hdigit
    exact Char.utf8Size_eq_one_iff.mpr (UInt32.le_trans hdigit.2 (by decide))
  unfold utf8Length
  rw [map_congr_left hone]
  simp

theorem partCapacity_anti (pre : List Char) (budget done : ℕ) (h : total ≤ total') :
    partCapacity pre budget total' done ≤ partCapacity pre budget total done := by
  have hmarker : utf8Length (marker (done + 1) total) ≤ utf8Length (marker (done + 1) total') := by
    have hlen := decimal_length_mono h
    have hcons : ∀ (c : Char) cs, utf8Length (c :: cs) = c.utf8Size + utf8Length cs :=
      fun _ _ => rfl
    simp only [marker, cons_append, hcons, utf8Length_append, utf8Length_decimal]
    omega
  unfold partCapacity
  rw [utf8Length_append, utf8Length_append]
  omega

theorem fragmentBodies_mono (ht : total ≤ total')
    (h : fragmentBodies pre budget total room done rest = .ok bodies)
    (h' : fragmentBodies pre budget total' room' done rest = .ok bodies') :
    bodies.length ≤ bodies'.length :=
  (fragmentBodies_split h).1.length_le (fragmentBodies_split h').1
    (fun j => partCapacity_anti pre budget j ht) (suffix_refl _)

end Fragment

/-- The denominators the loop of `plan_radio_text` visits from `total` on. -/
def denominators (pre source : List Char) (budget maxParts : ℕ) : (fuel total : ℕ) → List ℕ
  | 0, _ => []
  | fuel + 1, total =>
    total ::
      match fragmentBodies pre budget total maxParts 0 source with
      | .error _ => []
      | .ok bodies =>
        if bodies.length = total then []
        else denominators pre source budget maxParts fuel bodies.length

section Iteration

variable {pre source : List Char} {budget maxParts fuel total : ℕ}

/-- The denominator has not passed its own number of parts. -/
def Climbing (pre source : List Char) (budget maxParts total : ℕ) : Prop :=
  ∀ bodies, fragmentBodies pre budget total maxParts 0 source = .ok bodies → total ≤ bodies.length

theorem climbing_two (hne : source ≠ []) (hlong : budget < utf8Length source + utf8Length pre) :
    Climbing pre source budget maxParts 2 :=
  fun _ h => two_le_length h hne hlong

theorem Climbing.next (h : Climbing pre source budget maxParts total) {bodies : List (List Char)}
    (hok : fragmentBodies pre budget total maxParts 0 source = .ok bodies) :
    Climbing pre source budget maxParts bodies.length :=
  fun _ h' => fragmentBodies_mono (h bodies hok) hok h'

/-- The visited denominators increase up to the part limit. -/
theorem denominators_increase (h : Climbing pre source budget maxParts total)
    (hmax : total ≤ maxParts) :
    (denominators pre source budget maxParts fuel total).Pairwise (· < ·) ∧
      (∀ t ∈ denominators pre source budget maxParts fuel total, total ≤ t) ∧
      (denominators pre source budget maxParts fuel total).length ≤ maxParts + 1 - total := by
  induction fuel generalizing total with
  | zero => exact ⟨.nil, fun t ht => absurd ht not_mem_nil, Nat.zero_le _⟩
  | succ fuel ih =>
    unfold denominators
    cases hok : fragmentBodies pre budget total maxParts 0 source with
    | error e => simp; omega
    | ok bodies =>
      have hle := h bodies hok
      by_cases heq : bodies.length = total
      · simp [heq]; omega
      · obtain ⟨hinc, hlow, hlen⟩ := ih (h.next hok) (fragmentBodies_split hok).2
        simp only [heq, if_false]
        refine ⟨pairwise_cons.mpr ⟨fun t ht => ?_, hinc⟩, ?_, ?_⟩
        · have := hlow t ht
          omega
        · intro t ht
          rcases mem_cons.mp ht with rfl | ht
          · exact Nat.le_refl _
          · have := hlow t ht
            omega
        · rw [length_cons]
          omega

/-- How the loop ends: it raises at the last denominator, or that one is the number of
its own parts. -/
def Ends (pre source : List Char) (budget maxParts : ℕ) (visited : List ℕ) :
    Except String (List (List Char)) → Prop
  | .error e => ∃ t, visited.getLast? = some t ∧
      fragmentBodies pre budget t maxParts 0 source = .error e
  | .ok bodies => visited.getLast? = some bodies.length ∧
      fragmentBodies pre budget bodies.length maxParts 0 source = .ok bodies

theorem stableBodies_ends (h : Climbing pre source budget maxParts total)
    (hmax : total ≤ maxParts) (hfuel : maxParts < fuel + total) :
    ∃ r, stableBodies pre source budget maxParts fuel total = some r ∧
      Ends pre source budget maxParts (denominators pre source budget maxParts fuel total) r := by
  induction fuel generalizing total with
  | zero => omega
  | succ fuel ih =>
    unfold stableBodies denominators
    cases hok : fragmentBodies pre budget total maxParts 0 source with
    | error e => exact ⟨.error e, rfl, total, rfl, hok⟩
    | ok bodies =>
      have hle := h bodies hok
      by_cases heq : bodies.length = total
      · refine ⟨.ok bodies, by simp [heq], ?_, by rw [heq]; exact hok⟩
        simp [heq]
      · have hlast := (fragmentBodies_split hok).2
        obtain ⟨r, hr, hends⟩ := ih (h.next hok) hlast (by omega)
        refine ⟨r, by simp only [heq, if_false]; exact hr, ?_⟩
        simp only [heq, if_false]
        -- the rest of the run is not empty, so its last denominator is the last one
        have hcons : ∀ t ts, (denominators pre source budget maxParts fuel
            bodies.length).getLast? = some t →
            (ts :: denominators pre source budget maxParts fuel bodies.length).getLast? =
              some t := by
          intro t ts ht
          rw [getLast?_cons, ht]
          rfl
        cases r with
        | error e =>
          obtain ⟨t, ht, herr⟩ := hends
          exact ⟨t, hcons t total ht, herr⟩
        | ok stable => exact ⟨hcons _ total hends.1, hends.2⟩

end Iteration

end Medre.Rendering
