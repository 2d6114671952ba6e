import Mathlib.Algebra.Order.Ring.Int
import Medre.Framework.Sha256
import Medre.Framework.Values

/-! # UTF-8 radio text planning (`core/rendering/radio_text.py`)

A text is a list of Unicode scalar values, so lone surrogates cannot arise. The planner's byte
cursor always stands on a code-point boundary; the model walks the code points. -/

namespace Medre.Rendering

open Medre.Framework

def maxRadioTextParts : ℕ := 128

def maxRadioSourceBytes : ℕ := 1048576

/-- `RadioTextPart`: one numbered wire payload. -/
structure RadioTextPart where
  ordinal : ℤ
  body : String
  wireText : String
  wireBytes : ℤ
  wireSha256 : String
deriving DecidableEq, Repr

/-- `RadioTextPlan`: the exact wire payloads of one text. -/
structure RadioTextPlan where
  maxTextBytes : ℤ
  pre : String
  sourceSha256 : String
  parts : List RadioTextPart
  fingerprint : String
  schemaVersion : ℤ := 1
deriving DecidableEq, Repr

def utf8 (cs : List Char) : List UInt8 := cs.flatMap String.utf8EncodeChar

/-- Length of the UTF-8 encoding. -/
def utf8Length (cs : List Char) : ℕ := (cs.map Char.utf8Size).sum

def decimal (n : ℕ) : List Char := (toString n).toList

/-- The marker `"(i/n) "`. -/
def marker (i n : ℕ) : List Char := '(' :: decimal i ++ '/' :: decimal n ++ [')', ' ']

/-- Whole code points from the front that fit in `capacity` bytes. -/
def fitting (capacity : ℕ) : List Char → List Char
  | [] => []
  | c :: cs =>
    if c.utf8Size ≤ capacity then c :: fitting (capacity - c.utf8Size) cs else []

/-- The last whitespace past the leading run, searched from the end; the
candidate is cut behind it. Without one the candidate stands. -/
def cutAtSpace (candidate : List Char) : List Char :=
  let lead := (candidate.takeWhile pySpace).length
  let indices := (List.range candidate.length).reverse.filter (lead < ·)
  match indices.find? fun i => (candidate[i]?).any pySpace with
  | some i => candidate.take (i + 1)
  | none => candidate

/-- The next body cut off `rest`. -/
def nextBody (capacity : ℕ) (rest : List Char) : List Char :=
  let candidate := fitting capacity rest
  if candidate.length < rest.length then cutAtSpace candidate else candidate

/-- `_fragment_bodies`; `room` is `max_parts - len(bodies)`. -/
def fragmentBodies (pre : List Char) (budget total : ℕ) :
    (room done : ℕ) → (rest : List Char) → Except String (List (List Char))
  | _, _, [] => .ok []
  | 0, _, _ :: _ => .error "radio text exceeds the configured part limit"
  | room + 1, done, c :: cs =>
    let capacity := (budget : ℤ) - utf8Length (pre ++ marker (done + 1) total)
    if capacity ≤ 0 then
      .error "radio budget cannot fit attribution and a part marker"
    else
      let body := nextBody capacity.toNat (c :: cs)
      if body = [] then .error "radio budget cannot fit the next Unicode code point"
      else
        match fragmentBodies pre budget total room (done + 1)
            ((c :: cs).drop body.length) with
        | .ok bodies => .ok (body :: bodies)
        | .error e => .error e

/-- The denominator iteration of `plan_radio_text`; `none` when the fuel ends
before it is stable. -/
def stableBodies (pre source : List Char) (budget maxParts : ℕ) :
    (fuel total : ℕ) → Option (Except String (List (List Char)))
  | 0, _ => none
  | fuel + 1, total =>
    match fragmentBodies pre budget total maxParts 0 source with
    | .error e => some (.error e)
    | .ok bodies =>
      if bodies.length = total then some (.ok bodies)
      else stableBodies pre source budget maxParts fuel bodies.length

def hex4 (n : ℕ) : List Char := Sha256.hexOf 4 n

/-- One character of `json.dumps` with `ensure_ascii`. -/
def jsonChar (c : Char) : List Char :=
  let n := c.toNat
  if c = '"' then ['\\', '"']
  else if c = '\\' then ['\\', '\\']
  else if n = 10 then ['\\', 'n']
  else if n = 13 then ['\\', 'r']
  else if n = 9 then ['\\', 't']
  else if n = 12 then ['\\', 'f']
  else if n = 8 then ['\\', 'b']
  else if 32 ≤ n ∧ n ≤ 126 then [c]
  else if n < 0x10000 then '\\' :: 'u' :: hex4 n
  else
    let v := n - 0x10000
    '\\' :: 'u' :: hex4 (0xd800 + v / 1024) ++ '\\' :: 'u' :: hex4 (0xdc00 + v % 1024)

def jsonString (cs : List Char) : List Char := '"' :: cs.flatMap jsonChar ++ ['"']

def commaSeparated (xs : List (List Char)) : List Char := (xs.intersperse [',']).flatten

/-- The text `[1,max_text_bytes,prefix,source_digest,[wire_text,...]]`. -/
def fingerprintInput (maxTextBytes : ℕ) (pre sourceDigest : List Char)
    (wires : List (List Char)) : List Char :=
  '[' :: commaSeparated
    [['1'], decimal maxTextBytes, jsonString pre, jsonString sourceDigest,
      '[' :: commaSeparated (wires.map jsonString) ++ [']']] ++ [']']

def wireOf (pre : List Char) (n : ℕ) (i : ℕ) (body : List Char) : List Char :=
  pre ++ (if 1 < n then marker i n else []) ++ body

def radioTextPart (pre : List Char) (n : ℕ) (i : ℕ) (body : List Char) : RadioTextPart :=
  let wire := wireOf pre n i body
  { ordinal := i
    body := String.ofList body
    wireText := String.ofList wire
    wireBytes := utf8Length wire
    wireSha256 := Sha256.hexdigest (utf8 wire) }

def planOf (maxTextBytes : ℕ) (pre source : List Char) (bodies : List (List Char)) :
    RadioTextPlan :=
  let n := bodies.length
  let parts := bodies.mapIdx fun i body => radioTextPart pre n (i + 1) body
  let wires := bodies.mapIdx fun i body => wireOf pre n (i + 1) body
  let digest := Sha256.hexdigest (utf8 source)
  { maxTextBytes := maxTextBytes
    pre := String.ofList pre
    sourceSha256 := digest
    parts
    fingerprint := Sha256.hexdigest (utf8 (fingerprintInput maxTextBytes pre digest.toList wires)) }

/-- `plan_radio_text`; `none` when the denominator iteration outlasts `fuel`. -/
def planRadioTextFuel (fuel : ℕ) (text : String) (maxTextBytes : ℤ) (pre : String)
    (maxParts : ℤ) : Option (Except String RadioTextPlan) :=
  let source := text.toList
  let pre := pre.toList
  if maxTextBytes ≤ 0 then some (.error "max_text_bytes must be a positive integer")
  else if ¬(1 ≤ maxParts ∧ maxParts ≤ maxRadioTextParts) then
    some (.error "max_parts must be between 1 and 128")
  else if source = [] ∨ maxRadioSourceBytes < source.length then
    some (.error "radio text must contain between one byte and one MiB")
  else if min maxTextBytes.toNat maxRadioSourceBytes < pre.length then
    some (.error "radio prefix exceeds the effective byte budget")
  else if maxRadioSourceBytes < utf8Length pre then
    some (.error "radio prefix exceeds one MiB")
  else if maxRadioSourceBytes < utf8Length source then
    some (.error "radio source text exceeds one MiB")
  else if utf8Length source + utf8Length pre ≤ maxTextBytes.toNat then
    some (.ok (planOf maxTextBytes.toNat pre source [source]))
  else if maxParts = 1 then some (.error "radio text exceeds the configured part limit")
  else
    match stableBodies pre source maxTextBytes.toNat maxParts.toNat fuel 2 with
    | none => none
    | some (.error e) => some (.error e)
    | some (.ok bodies) => some (.ok (planOf maxTextBytes.toNat pre source bodies))

/-- `plan_radio_text`. The denominator grows from 2 to `max_parts` at most, which is fuel enough;
`none` is a call that does not return. -/
def planRadioText (text : String) (maxTextBytes : ℤ) (pre : String) (maxParts : ℤ) :
    Option (Except String RadioTextPlan) :=
  planRadioTextFuel maxRadioTextParts text maxTextBytes pre maxParts

end Medre.Rendering
