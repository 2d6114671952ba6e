import Medre.Rendering.RadioParts

/-! # The plans of `plan_radio_text`

A returned plan is exact, the call always returns, and what it returns does not depend on a part
limit that is not met. -/

namespace Medre.Rendering

open List Medre.Framework

/-! ## What a call returns -/

/-- The text, the budget and the prefix pass the checks. -/
structure Plannable (source : List Char) (budget : ℤ) (pre : List Char) : Prop where
  budget_pos : 0 < budget
  ne_nil : source ≠ []
  length_le : source.length ≤ maxRadioSourceBytes
  pre_le : pre.length ≤ min budget.toNat maxRadioSourceBytes
  pre_bytes : utf8Length pre ≤ maxRadioSourceBytes
  source_bytes : utf8Length source ≤ maxRadioSourceBytes

/-- The bodies the planner settles on. -/
def BodiesOf (source pre : List Char) (budget maxParts : ℕ) (bodies : List (List Char)) : Prop :=
  if utf8Length source + utf8Length pre ≤ budget then bodies = [source]
  else maxParts ≠ 1 ∧ stableBodies pre source budget maxParts maxRadioTextParts 2 =
    some (.ok bodies)

theorem planRadioText_ok {text pre : String} {budget maxParts : ℤ} {plan : RadioTextPlan} :
    planRadioText text budget pre maxParts = some (.ok plan) ↔
      Plannable text.toList budget pre.toList ∧ (1 ≤ maxParts ∧ maxParts ≤ maxRadioTextParts) ∧
        ∃ bodies, BodiesOf text.toList pre.toList budget.toNat maxParts.toNat bodies ∧
          plan = planOf budget.toNat pre.toList text.toList bodies := by
  constructor
  · intro h
    unfold planRadioText planRadioTextFuel at h
    simp only at h
    split_ifs at h with hbudget hparts hsource hpre hprebytes hbytes hfits hone <;>
      first | cases h | skip
    · refine ⟨⟨by omega, fun h => hsource (.inl h), by omega, by omega, by omega, by omega⟩, hparts,
        [text.toList], ?_, rfl⟩
      rw [BodiesOf, if_pos hfits]
    · split at h
      · cases h
      · cases h
      · next bodies hstable =>
          cases h
          refine ⟨⟨by omega, fun h => hsource (.inl h), by omega, by omega, by omega, by omega⟩,
            hparts, bodies, ?_, rfl⟩
          rw [BodiesOf, if_neg hfits]
          exact ⟨by omega, hstable⟩
  · rintro ⟨hplan, hparts, bodies, hbodies, rfl⟩
    have hsource : ¬(text.toList = [] ∨ maxRadioSourceBytes < text.toList.length) := by
      rintro (h | h)
      · exact hplan.ne_nil h
      · exact absurd hplan.length_le (by omega)
    have h1 := hplan.budget_pos
    have h2 := hplan.pre_le
    have h3 := hplan.pre_bytes
    have h4 := hplan.source_bytes
    unfold planRadioText planRadioTextFuel
    rw [if_neg (by omega), if_neg (not_not.mpr hparts), if_neg hsource, if_neg (by omega),
      if_neg (by omega), if_neg (by omega)]
    unfold BodiesOf at hbodies
    split_ifs at hbodies with hfits
    · rw [if_pos hfits, hbodies]
    · rw [if_neg hfits, if_neg (by omega), hbodies.2]

/-- The loop runs only on a text that does not fit, and then ends. -/
theorem BodiesOf.bodies {source pre : List Char} {budget maxParts : ℕ}
    {bodies : List (List Char)} (h : BodiesOf source pre budget maxParts bodies)
    (hne : source ≠ []) (hmax : 1 ≤ maxParts) (hlimit : maxParts ≤ maxRadioTextParts) :
    (utf8Length source + utf8Length pre ≤ budget ∧ bodies = [source]) ∨
      (budget < utf8Length source + utf8Length pre ∧ 2 ≤ bodies.length ∧
        fragmentBodies pre budget bodies.length maxParts 0 source = .ok bodies) := by
  unfold BodiesOf at h
  split_ifs at h with hfits
  · exact .inl ⟨hfits, h⟩
  · have hlong := not_le.mp hfits
    obtain ⟨hone, hstable⟩ := h
    have hclimb : Climbing pre source budget maxParts 2 := climbing_two hne hlong
    obtain ⟨r, hr, hends⟩ := stableBodies_ends hclimb (by omega)
      (show maxParts < maxRadioTextParts + 2 by omega)
    rw [hstable] at hr
    cases hr
    exact .inr ⟨hlong, two_le_length hends.2 hne hlong, hends.2⟩

/-- The call returns: a plan, or the text of what it raises. -/
theorem planRadioText_returns (text : String) (budget : ℤ) (pre : String) (maxParts : ℤ) :
    ∃ r, planRadioText text budget pre maxParts = some r := by
  unfold planRadioText planRadioTextFuel
  simp only
  split_ifs with hbudget hparts hsource hpre hprebytes hbytes hfits hone
  all_goals first | exact ⟨_, rfl⟩ | skip
  -- left is a text that does not fit, under a limit of at least two parts
  have hclimb : Climbing pre.toList text.toList budget.toNat maxParts.toNat 2 :=
    climbing_two (fun h => hsource (.inl h)) (not_le.mp hfits)
  obtain ⟨r, hr, -⟩ := stableBodies_ends hclimb (by omega)
    (show maxParts.toNat < maxRadioTextParts + 2 by omega)
  rw [hr]
  cases r <;> exact ⟨_, rfl⟩

/-! ## The parts of a plan -/

section Parts

variable {source pre : List Char} {budget maxParts : ℕ} {bodies : List (List Char)}

theorem utf8Length_eq_size (cs : List Char) : utf8Length cs = (String.ofList cs).utf8ByteSize := by
  rw [String.utf8ByteSize_ofList]
  induction cs with
  | nil => rfl
  | cons c cs ih =>
    rw [String.utf8Len_cons, ← ih, Nat.add_comm]
    rfl

theorem planOf_part {i : ℕ} {p : RadioTextPart} :
    (planOf budget pre source bodies).parts[i]? = some p ↔
      ∃ body, bodies[i]? = some body ∧ p = radioTextPart pre bodies.length (i + 1) body := by
  simp only [planOf, List.getElem?_mapIdx, Option.map_eq_some_iff]
  exact exists_congr fun body => and_congr_right fun _ => eq_comm

@[simp] theorem planOf_length : (planOf budget pre source bodies).parts.length = bodies.length := by
  simp [planOf]

theorem planOf_bodies :
    (planOf budget pre source bodies).parts.map RadioTextPart.body = bodies.map String.ofList := by
  refine ext_getElem? fun i => ?_
  simp only [planOf, List.getElem?_map, List.getElem?_mapIdx, Option.map_map]
  rfl

theorem planOf_text : String.join ((planOf budget pre source bodies).parts.map
    RadioTextPart.body) = String.ofList bodies.flatten := by
  rw [planOf_bodies, ← String.toList_inj, String.toList_join, String.toList_ofList, flatMap_map]
  simp only [String.toList_ofList, flatMap_id']

theorem wireOf_le (hne : source ≠ []) (hmax : 1 ≤ maxParts) (hlimit : maxParts ≤ maxRadioTextParts)
    (h : BodiesOf source pre budget maxParts bodies) {i : ℕ} {body : List Char}
    (hi : bodies[i]? = some body) :
    utf8Length (wireOf pre bodies.length (i + 1) body) ≤ budget := by
  rcases h.bodies hne hmax hlimit with ⟨hfits, rfl⟩ | ⟨-, htwo, hok⟩
  · have hbody : body = source := by
      rw [List.getElem?_singleton] at hi
      split_ifs at hi
      exact (Option.some.inj hi).symm
    rw [hbody]
    simp only [wireOf, length_singleton, utf8Length_append]
    show utf8Length pre + 0 + utf8Length source ≤ budget
    omega
  · have hload : utf8Length body ≤ partCapacity pre budget bodies.length (0 + i) :=
      (fragmentBodies_split hok).1.load_le hi
    have hroom := fragmentBodies_room hok (List.getElem?_eq_some_iff.mp hi).1
    unfold partCapacity at hload
    rw [Nat.zero_add] at hload hroom
    simp only [wireOf, if_pos (show 1 < bodies.length by omega)]
    rw [utf8Length_append]
    omega

theorem BodiesOf.flatten (hne : source ≠ []) (hmax : 1 ≤ maxParts)
    (hlimit : maxParts ≤ maxRadioTextParts) (h : BodiesOf source pre budget maxParts bodies) :
    bodies.flatten = source ∧ (∀ b ∈ bodies, b ≠ []) ∧ bodies.length ≤ maxParts := by
  rcases h.bodies hne hmax hlimit with ⟨-, rfl⟩ | ⟨-, -, hok⟩
  · refine ⟨by simp, fun b hb => ?_, hmax⟩
    rw [mem_singleton.mp hb]
    exact hne
  · obtain ⟨hsplit, hlen⟩ := fragmentBodies_split hok
    exact ⟨hsplit.flatten_eq, hsplit.ne_nil, hlen⟩

theorem BodiesOf.length_eq_one (hne : source ≠ []) (hmax : 1 ≤ maxParts)
    (hlimit : maxParts ≤ maxRadioTextParts) (h : BodiesOf source pre budget maxParts bodies) :
    bodies.length = 1 ↔ utf8Length pre + utf8Length source ≤ budget := by
  rcases h.bodies hne hmax hlimit with ⟨hfits, rfl⟩ | ⟨hlong, htwo, -⟩
  · simp only [length_singleton, true_iff]
    omega
  · omega

end Parts

/-! ## Exactness -/

/-- The marker of part `i` of `n`, in text. -/
def markerText (i n : ℕ) : String :=
  if n = 1 then "" else "(" ++ toString i ++ "/" ++ toString n ++ ") "

theorem ofList_marker (i n : ℕ) :
    String.ofList (marker i n) = "(" ++ toString i ++ "/" ++ toString n ++ ") " := by
  rw [← String.toList_inj]
  simp [marker, decimal]

theorem ofList_wireOf {pre body : List Char} {n i : ℕ} (hn : 1 ≤ n) :
    String.ofList (wireOf pre n i body) =
      String.ofList pre ++ markerText i n ++ String.ofList body := by
  rw [wireOf, String.ofList_append, String.ofList_append, markerText]
  by_cases h : n = 1
  · simp [h]
  · rw [if_neg h, if_pos (show 1 < n by omega), ofList_marker]

/-- Radio text planning is exact: the bodies are the text, every part is the prefix, its
marker and its body within the budget, and there is one part exactly if the text fits. -/
theorem radio_plan_exact {text pre : String} {budget maxParts : ℤ} {plan : RadioTextPlan}
    (h : planRadioText text budget pre maxParts = some (.ok plan)) :
    String.join (plan.parts.map RadioTextPart.body) = text ∧
      1 ≤ plan.parts.length ∧ plan.parts.length ≤ maxParts ∧
      (∀ (i : ℕ) (p : RadioTextPart), plan.parts[i]? = some p →
        p.ordinal = (i : ℤ) + 1 ∧ p.body ≠ "" ∧
          p.wireText = pre ++ markerText (i + 1) plan.parts.length ++ p.body ∧
          p.wireBytes = p.wireText.utf8ByteSize ∧ p.wireBytes ≤ budget) ∧
      (plan.parts.length = 1 ↔ (pre.utf8ByteSize + text.utf8ByteSize : ℤ) ≤ budget) := by
  obtain ⟨hplan, ⟨hmin, hmax⟩, bodies, hbodies, rfl⟩ := planRadioText_ok.mp h
  have hne := hplan.ne_nil
  have hbudget := hplan.budget_pos
  obtain ⟨hflat, hnonempty, hlen⟩ := hbodies.flatten hne (by omega) (by omega)
  have hone := hbodies.length_eq_one hne (by omega) (by omega)
  have hpos : 1 ≤ bodies.length := by
    cases bodies with
    | nil => exact absurd hflat.symm hne
    | cons b bs => exact Nat.le_add_left _ _
  refine ⟨?_, ?_, ?_, ?_, ?_⟩
  · rw [planOf_text, hflat, String.ofList_toList]
  · rwa [planOf_length]
  · rw [planOf_length]
    omega
  · intro i p hp
    obtain ⟨body, hi, rfl⟩ := planOf_part.mp hp
    have hwire := wireOf_le hne (by omega) (by omega) hbodies hi
    refine ⟨by simp [radioTextPart], ?_, ?_, ?_, ?_⟩
    · intro hempty
      refine hnonempty body (mem_iff_getElem?.mpr ⟨i, hi⟩) ?_
      simpa [radioTextPart] using hempty
    · rw [planOf_length]
      show String.ofList (wireOf pre.toList bodies.length (i + 1) body) = _
      rw [ofList_wireOf hpos, String.ofList_toList]
      rfl
    · show ((utf8Length (wireOf pre.toList bodies.length (i + 1) body) : ℕ) : ℤ) = _
      rw [utf8Length_eq_size]
      rfl
    · show ((utf8Length (wireOf pre.toList bodies.length (i + 1) body) : ℕ) : ℤ) ≤ budget
      omega
  · have hsize : ∀ s : String, utf8Length s.toList = s.utf8ByteSize := fun s => by
      rw [utf8Length_eq_size, String.ofList_toList]
    rw [planOf_length, hone, hsize, hsize]
    omega

/-- A text of three parts, with a prefix. -/
theorem radio_plan_exact_waves :
    ∃ plan, planRadioText "hello radio waves" 16 "a: " 16 = some (.ok plan) ∧
      plan.parts.length = 3 ∧
      String.join (plan.parts.map RadioTextPart.body) = "hello radio waves" ∧
      ∀ (i : ℕ) (p : RadioTextPart), plan.parts[i]? = some p →
        p.wireText = "a: " ++ markerText (i + 1) plan.parts.length ++ p.body ∧
          p.wireBytes ≤ 16 := by
  have hrun : planRadioText "hello radio waves" 16 "a: " 16 =
      some (.ok (planOf 16 "a: ".toList "hello radio waves".toList
        ["hello ".toList, "radio ".toList, "waves".toList])) :=
    planRadioText_ok.mpr ⟨⟨by decide, by decide, by decide, by decide, by decide, by decide⟩,
      by decide, _, by unfold BodiesOf; decide, rfl⟩
  have hexact := radio_plan_exact hrun
  exact ⟨_, hrun, planOf_length, hexact.1, fun i p hp =>
    ⟨(hexact.2.2.2.1 i p hp).2.2.1, (hexact.2.2.2.1 i p hp).2.2.2.2⟩⟩

/-- The denominator iteration: the loop climbs from 2, runs at most `max_parts` times, and raises
or stops at a denominator that is the number of its own parts. -/
theorem denominator_iteration (pre source : List Char) (budget maxParts : ℕ) :
    (∀ total total' bodies bodies', total ≤ total' →
        fragmentBodies pre budget total maxParts 0 source = .ok bodies →
        fragmentBodies pre budget total' maxParts 0 source = .ok bodies' →
        bodies.length ≤ bodies'.length) ∧
      (source ≠ [] → budget < utf8Length source + utf8Length pre → 2 ≤ maxParts →
        (∀ fuel, (denominators pre source budget maxParts fuel 2).Pairwise (· < ·) ∧
          (denominators pre source budget maxParts fuel 2).length ≤ maxParts ∧
          (0 < fuel → (denominators pre source budget maxParts fuel 2).head? = some 2)) ∧
        ∀ fuel, maxParts ≤ fuel →
          ∃ r, stableBodies pre source budget maxParts fuel 2 = some r ∧
            Ends pre source budget maxParts (denominators pre source budget maxParts fuel 2)
              r) := by
  refine ⟨fun total total' bodies bodies' ht h h' => fragmentBodies_mono ht h h', ?_⟩
  intro hne hlong hmax
  have hclimb : Climbing pre source budget maxParts 2 := climbing_two hne hlong
  refine ⟨fun fuel => ?_, fun fuel hfuel => stableBodies_ends hclimb hmax (by omega)⟩
  obtain ⟨hinc, -, hlen⟩ := @denominators_increase _ _ _ _ fuel _ hclimb hmax
  refine ⟨hinc, by omega, fun hfuel => ?_⟩
  obtain ⟨fuel, rfl⟩ : ∃ f, fuel = f + 1 := ⟨fuel - 1, by omega⟩
  rfl

/-- The loop on a text of 37 letters: it visits 2, 10 and 14. -/
theorem denominator_iteration_letters :
    denominators [] "abcdefghijklmnopqrstuvwxyz0123456789!".toList 10 16 16 2 = [2, 10, 14] ∧
      ∃ r, stableBodies [] "abcdefghijklmnopqrstuvwxyz0123456789!".toList 10 16 16 2 = some r ∧
        Ends [] "abcdefghijklmnopqrstuvwxyz0123456789!".toList 10 16 [2, 10, 14] r := by
  have hvisited :
      denominators [] "abcdefghijklmnopqrstuvwxyz0123456789!".toList 10 16 16 2 = [2, 10, 14] := by
    decide +kernel
  refine ⟨hvisited, ?_⟩
  exact ((denominator_iteration [] "abcdefghijklmnopqrstuvwxyz0123456789!".toList 10 16).2
    (by decide) (by decide) (by decide)).2 16 (by decide)

end Medre.Rendering
