import Mathlib.Data.List.Basic
import Mathlib.Data.List.DropRight
import Mathlib.Data.String.Basic
import Mathlib.Tactic.Common

/-! # Texts and JSON values as Python and SQLite treat them -/

namespace Medre.Framework

open List

/-! ## Texts -/

/-- The characters `str.strip` removes. -/
def pySpace (c : Char) : Bool :=
  let n := c.toNat
  (9 ≤ n && n ≤ 13) || (28 ≤ n && n ≤ 32) || n = 0x85 || n = 0xa0 || n = 0x1680 ||
    (0x2000 ≤ n && n ≤ 0x200a) || n = 0x2028 || n = 0x2029 || n = 0x202f ||
    n = 0x205f || n = 0x3000

/-- Both ends of a list without the elements in `p`. -/
def trimBy (p : Char → Bool) (cs : List Char) : List Char :=
  ((cs.dropWhile p).reverse.dropWhile p).reverse

theorem trimBy_trimBy (p : Char → Bool) (cs : List Char) :
    trimBy p (trimBy p cs) = trimBy p cs := by
  -- what is left starts with the first character that stays
  have hstart : ((cs.dropWhile p).rdropWhile p).dropWhile p = (cs.dropWhile p).rdropWhile p := by
    rw [dropWhile_eq_self_iff]
    intro hlen
    have hpre := rdropWhile_prefix p (cs.dropWhile p)
    have hlen' : 0 < (cs.dropWhile p).length := hlen.trans_le hpre.length_le
    rw [hpre.getElem hlen]
    exact dropWhile_eq_self_iff.mp (dropWhile_idempotent p cs) hlen'
  show (((cs.dropWhile p).rdropWhile p).dropWhile p).rdropWhile p = (cs.dropWhile p).rdropWhile p
  rw [hstart]
  exact rdropWhile_idempotent p _

/-- `str.strip()`. -/
def pyStrip (s : String) : String := String.ofList (trimBy pySpace s.toList)

@[simp] theorem pyStrip_pyStrip (s : String) : pyStrip (pyStrip s) = pyStrip s := by
  unfold pyStrip
  rw [String.toList_ofList, trimBy_trimBy]

/-- SQLite's `trim(X)`, which removes spaces only. -/
def sqlTrim (s : String) : String := String.ofList (trimBy (· = ' ') s.toList)

/-- ASCII letters in lower case, other characters as they are. -/
def asciiLower (c : Char) : Char :=
  if 'A' ≤ c ∧ c ≤ 'Z' then Char.ofNat (c.toNat + 32) else c

/-- SQLite's `X LIKE 'p%'` for a pattern without wildcards: ASCII letters match
in either case. -/
def sqlLikeStart (p s : String) : Bool :=
  (p.toList.map asciiLower).isPrefixOf (s.toList.map asciiLower)

/-- Python's `x or None` on an optional text. -/
def orNone (x : Option String) : Option String := if x = some "" then none else x

theorem orNone_ne_empty (x : Option String) : orNone x ≠ some "" := by
  unfold orNone
  split
  · simp
  · assumption

theorem orNone_of_ne {x : Option String} (h : x ≠ some "") : orNone x = x := if_neg h

theorem orNone_eq_some {x : Option String} {t : String} :
    orNone x = some t ↔ x = some t ∧ t ≠ "" := by
  unfold orNone
  split
  · rename_i h
    rw [h]
    simp [eq_comm]
  · rename_i h
    constructor
    · rintro rfl
      exact ⟨rfl, fun ht => h (by rw [ht])⟩
    · exact And.left

@[simp] theorem orNone_orNone (x : Option String) : orNone (orNone x) = orNone x :=
  orNone_of_ne (orNone_ne_empty x)

theorem orNone_eq_iff (x y : Option String) : orNone x = orNone y ↔ x.getD "" = y.getD "" := by
  unfold orNone
  cases x with
  | none =>
    cases y with
    | none => simp
    | some t =>
      by_cases h : t = ""
      · simp [h]
      · simp [h, Ne.symm h]
  | some s =>
    cases y with
    | none => by_cases h : s = "" <;> simp [h]
    | some t =>
      by_cases hs : s = ""
      · by_cases ht : t = ""
        · simp [hs, ht]
        · simp [hs, ht, Ne.symm ht]
      · by_cases ht : t = "" <;> simp [hs, ht]

/-! ## JSON -/

/-- A decoded JSON value. Numbers keep their literal. -/
inductive Json where
  | null
  | bool (b : Bool)
  | number (literal : String)
  | str (s : String)
  | arr (items : List Json)
  | obj (fields : List (String × Json))
deriving Repr

namespace Json

/-- `mapping.get(key)`: the last binding of a key wins. -/
def fieldOf (fields : List (String × Json)) (key : String) : Option Json :=
  (fields.reverse.find? fun f => f.1 = key).map Prod.snd

def fields? : Json → Option (List (String × Json))
  | .obj fields => some fields
  | _ => none

def str? : Json → Option String
  | .str s => some s
  | _ => none

/-- The value of a nonnegative integer literal. -/
def natLiteral? (literal : String) : Option ℕ :=
  if literal.toList ≠ [] && literal.toList.all Char.isDigit then
    some (Nat.ofDigitChars 10 literal.toList 0)
  else none

def nat (n : ℕ) : Json := .number (toString n)

theorem natLiteral?_toString (n : ℕ) : natLiteral? (toString n) = some n := by
  have hdigits : (toString n).toList = Nat.toDigits 10 n := by
    rw [Nat.toString_eq_ofList_toDigits, String.toList_ofList]
  have hall : (Nat.toDigits 10 n).all Char.isDigit = true :=
    all_eq_true.mpr fun c hc => Nat.isDigit_of_mem_toDigits (by decide) (by decide) hc
  unfold natLiteral?
  simp [Nat.toDigits_ne_nil, hall, Nat.ofDigitChars_ten_toDigits]

/-- `json_set(value, '$.key', v)`: objects only. -/
def setField (key : String) (v : Json) : Json → Json
  | .obj fields => .obj (fields.filter (fun f => f.1 ≠ key) ++ [(key, v)])
  | j => j

/-- `{**mapping, key: v}`: a key that is there keeps its place. -/
def putField (fields : List (String × Json)) (key : String) (v : Json) :
    List (String × Json) :=
  if (fieldOf fields key).isSome then fields.map fun f => if f.1 = key then (key, v) else f
  else fields ++ [(key, v)]

theorem fieldOf_putField (fields : List (String × Json)) (key : String) (v : Json) :
    fieldOf (putField fields key v) key = some v := by
  unfold putField
  split
  · rename_i hsome
    obtain ⟨old, hold⟩ := Option.isSome_iff_exists.mp hsome
    obtain ⟨f, hfind, -⟩ := Option.map_eq_some_iff.mp hold
    have hcongr : ((fun f : String × Json => decide (f.1 = key)) ∘
        fun f : String × Json => if f.1 = key then (key, v) else f) =
          fun f => decide (f.1 = key) := by
      funext f
      by_cases hk : f.1 = key <;> simp [hk]
    have hkey : f.1 = key := by simpa using List.find?_some hfind
    rw [fieldOf, ← map_reverse, List.find?_map, hcongr, hfind]
    simp [hkey]
  · simp [fieldOf]

theorem fieldOf_putField_ne {fields : List (String × Json)} {key other : String} {v : Json}
    (h : other ≠ key) : fieldOf (putField fields key v) other = fieldOf fields other := by
  unfold putField
  split
  · have hcongr : ((fun f : String × Json => decide (f.1 = other)) ∘
        fun f : String × Json => if f.1 = key then (key, v) else f) =
          fun f => decide (f.1 = other) := by
      funext f
      by_cases hk : f.1 = key
      · simp [hk, Ne.symm h]
      · simp [hk]
    rw [fieldOf, fieldOf, ← map_reverse, List.find?_map, hcongr, Option.map_map]
    cases hfind : fields.reverse.find? fun f => decide (f.1 = other) with
    | none => rfl
    | some f =>
      have hother : f.1 = other := by simpa using List.find?_some hfind
      simp [hother, h]
  · simp [fieldOf, Ne.symm h]

theorem fieldOf_filter {fields : List (String × Json)} {key : String}
    {keep : String × Json → Bool} (h : ∀ f : String × Json, f.1 = key → keep f = true) :
    fieldOf (fields.filter keep) key = fieldOf fields key := by
  rw [fieldOf, fieldOf, ← filter_reverse, List.find?_filter]
  congr 2
  funext f
  by_cases hk : f.1 = key <;> simp [hk, h f]

end Json

end Medre.Framework
