import Mathlib.Data.Int.Notation
import Mathlib.Data.List.Basic
import Mathlib.Tactic.Common

/-! # Structured log fields without secrets (`observability/sanitization.py`) -/

namespace Medre.Observability

/-! ## Secret keys -/

/-- A pattern of `_SECRET_KEY_REGEXES`: words with an optional `_` between them, an optional
`s` after the last, and whether the match ends with the key. -/
structure KeyPattern where
  words : List String
  plural : Bool := false
  whole : Bool := false

def secretKeyRegexes : List KeyPattern :=
  [{ words := ["password"], whole := true }, { words := ["secret"] },
    { words := ["private", "key"] }, { words := ["access", "token"] },
    { words := ["auth", "token"] }, { words := ["api", "key"] },
    { words := ["credential"], plural := true, whole := true },
    { words := ["session", "secret"] }, { words := ["encryption", "key"] },
    { words := ["device", "key"] }, { words := ["signing", "key"] },
    { words := ["identity", "key"] }, { words := ["psk"], whole := true },
    { words := ["pre", "shared", "key"], whole := true },
    { words := ["pre", "shared", "secret"], whole := true },
    { words := ["device", "id"], whole := true },
    { words := ["device", "key", "id"], whole := true }]

/-- The characters of a pattern, each with whether it may be left out. -/
def KeyPattern.atoms (p : KeyPattern) : List (Char × Bool) :=
  [('_', true)].intercalate (p.words.map fun w => w.toList.map (·, false)) ++
    if p.plural then [('s', true)] else []

/-- `re.IGNORECASE`, at a lower-case letter of a pattern. -/
def ignoresCase (a c : Char) : Bool :=
  c = a || ('a' ≤ a && a ≤ 'z' && c = Char.ofNat (a.toNat - 32)) ||
    (a = 'i' && (c = '\u0130' || c = '\u0131')) || (a = 's' && c = '\u017f') ||
    (a = 'k' && c = '\u212a')

/-- A match at the start of the key; `$` also matches before a last newline. -/
def matchesAtoms (whole : Bool) : List (Char × Bool) → List Char → Bool
  | [], cs => !whole || cs = [] || cs = ['\n']
  | (a, optional) :: as, cs =>
    (optional && matchesAtoms whole as cs) ||
      match cs with
      | [] => false
      | c :: cs => ignoresCase a c && matchesAtoms whole as cs

def isSecretKey (key : String) : Bool :=
  secretKeyRegexes.any fun p => matchesAtoms p.whole p.atoms key.toList

/-! ## Sanitization -/

/-- `bool`, `int`, `float` (by its bits) and `None`. -/
inductive Scalar where
  | bool (b : Bool)
  | int (n : ℤ)
  | float (bits : UInt64)
  | none
deriving DecidableEq

/-- A logged value. A `dict` and a `set` are in the order of iteration; of any other object only
the name of its type is read. -/
inductive Value where
  | text (s : String)
  | scalar (s : Scalar)
  | dict (items : List (String × Value))
  | list (vs : List Value)
  | tuple (vs : List Value)
  | set (vs : List Value)
  | object (typeName : String)

section Sanitize

-- the substitutions of `_SDK_RE` and `_TOKEN_RE`
variable (redact : String → String)

mutual

def sanitizeValue : Value → Value
  | .text s => .text (redact s)
  | .scalar s => .scalar s
  | .dict items => .dict (sanitizeForLog items)
  | .list vs | .tuple vs | .set vs => .list (sanitizeValues vs)
  | .object typeName => .text ("<" ++ typeName ++ ">")

def sanitizeValues : List Value → List Value
  | [] => []
  | v :: vs => sanitizeValue v :: sanitizeValues vs

/-- `sanitize_for_log`. The keys of a dict are distinct, so each assignment adds one. -/
def sanitizeForLog : List (String × Value) → List (String × Value)
  | [] => []
  | (key, value) :: items =>
    if isSecretKey key then sanitizeForLog items
    else (key, sanitizeValue value) :: sanitizeForLog items

end

end Sanitize

mutual

/-- Two values that differ only in values stored under secret keys. -/
def SameOutsideSecrets : Value → Value → Prop
  | .dict xs, .dict ys => SameItems xs ys
  | .list xs, .list ys | .tuple xs, .tuple ys | .set xs, .set ys => SameValues xs ys
  | v, w => v = w

def SameValues : List Value → List Value → Prop
  | [], [] => True
  | v :: vs, w :: ws => SameOutsideSecrets v w ∧ SameValues vs ws
  | _, _ => False

def SameItems : List (String × Value) → List (String × Value) → Prop
  | [], [] => True
  | (k, v) :: xs, (l, w) :: ys =>
    k = l ∧ (isSecretKey k = false → SameOutsideSecrets v w) ∧ SameItems xs ys
  | _, _ => False

end

mutual

/-- Dicts without secret keys, lists and scalars, at any depth. -/
def Value.clean : Value → Bool
  | .text _ | .scalar _ => true
  | .dict items => cleanItems items
  | .list vs => cleanValues vs
  | .tuple _ | .set _ | .object _ => false

def cleanValues : List Value → Bool
  | [] => true
  | v :: vs => v.clean && cleanValues vs

def cleanItems : List (String × Value) → Bool
  | [] => true
  | (k, v) :: items => !isSecretKey k && v.clean && cleanItems items

end

section Results

variable (redact : String → String)

mutual

theorem sanitizeValue_congr : ∀ {v w : Value}, SameOutsideSecrets v w →
    sanitizeValue redact v = sanitizeValue redact w
  | .dict _, w, h => by
    cases w <;> first | cases h | skip
    rw [sanitizeValue, sanitizeValue, sanitizeForLog_congr h]
  | .list _, w, h | .tuple _, w, h | .set _, w, h => by
    cases w <;> first | cases h | skip
    rw [sanitizeValue, sanitizeValue, sanitizeValues_congr h]
  | .text _, w, h | .scalar _, w, h | .object _, w, h => by
    cases w <;> cases h
    rfl

theorem sanitizeValues_congr : ∀ {vs ws : List Value}, SameValues vs ws →
    sanitizeValues redact vs = sanitizeValues redact ws
  | [], [], _ => rfl
  | _ :: _, _ :: _, h => by
    rw [sanitizeValues, sanitizeValues, sanitizeValue_congr h.1, sanitizeValues_congr h.2]

theorem sanitizeForLog_congr : ∀ {xs ys : List (String × Value)}, SameItems xs ys →
    sanitizeForLog redact xs = sanitizeForLog redact ys
  | [], [], _ => rfl
  | (k, v) :: xs, (l, w) :: ys, h => by
    obtain ⟨rfl, hvalue, hrest⟩ := h
    rw [sanitizeForLog, sanitizeForLog, sanitizeForLog_congr hrest]
    split
    · rfl
    · next hkey => rw [sanitizeValue_congr (hvalue (by simpa using hkey))]

end

mutual

theorem clean_sanitizeValue : ∀ v, (sanitizeValue redact v).clean = true
  | .text _ | .scalar _ | .object _ => rfl
  | .dict items => clean_sanitizeForLog items
  | .list vs | .tuple vs | .set vs => clean_sanitizeValues vs

theorem clean_sanitizeValues : ∀ vs, cleanValues (sanitizeValues redact vs) = true
  | [] => rfl
  | v :: vs => by
    rw [sanitizeValues, cleanValues, clean_sanitizeValue v, clean_sanitizeValues vs]
    rfl

theorem clean_sanitizeForLog : ∀ items, cleanItems (sanitizeForLog redact items) = true
  | [] => rfl
  | (k, v) :: items => by
    rw [sanitizeForLog]
    split
    · exact clean_sanitizeForLog items
    · next hkey =>
      rw [cleanItems, clean_sanitizeValue v, clean_sanitizeForLog items]
      simp [hkey]

end

/-- The log of a structure is independent of its secrets, and holds none of their keys. -/
theorem sanitizeForLog_independent {xs ys : List (String × Value)} (h : SameItems xs ys) :
    sanitizeForLog redact xs = sanitizeForLog redact ys ∧
      (Value.dict (sanitizeForLog redact xs)).clean = true :=
  ⟨sanitizeForLog_congr redact h, clean_sanitizeForLog redact xs⟩

theorem sanitizeForLog_independent_nested :
    let log (secret : Value) : List (String × Value) :=
      [("host", .tuple [.dict [("API_Key", secret), ("port", .scalar (.int 1))]])]
    SameItems (log (.text "a")) (log (.list [])) ∧
      sanitizeForLog id (log (.text "a")) = sanitizeForLog id (log (.list [])) := by
  have hsame : SameItems [("host", .tuple [.dict [("API_Key", .text "a"),
      ("port", .scalar (.int 1))]])] [("host", .tuple [.dict [("API_Key", .list []),
      ("port", .scalar (.int 1))]])] :=
    ⟨rfl, fun _ => ⟨⟨rfl, fun h => absurd h (by decide), rfl, fun _ => rfl, trivial⟩, trivial⟩,
      trivial⟩
  exact ⟨hsame, (sanitizeForLog_independent id hsame).1⟩

end Results

end Medre.Observability
