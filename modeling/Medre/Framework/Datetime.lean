import Mathlib.Data.List.Basic
import Mathlib.Data.String.Basic
import Mathlib.Tactic.Common

/-! # Calendar timestamps as Python's `datetime` computes them

A value is a civil date and time with an optional offset from UTC; `astimezoneUtc` goes through
the proleptic Gregorian ordinal. -/

namespace Medre.Framework

/-- The exceptions of the standard library that callers tell apart. `localZone`
stands for reading a zone-less value in the host's own zone. -/
inductive PyError where
  | valueError
  | typeError
  | overflowError
  | localZone
deriving DecidableEq, Repr

/-- A `datetime`: civil fields and, when aware, the offset from UTC in
microseconds. -/
structure Datetime where
  year : ℕ
  month : ℕ
  day : ℕ
  hour : ℕ := 0
  minute : ℕ := 0
  second : ℕ := 0
  microsecond : ℕ := 0
  utcoffset : Option ℤ := none
deriving DecidableEq, Repr

namespace Datetime

/-! ## The proleptic Gregorian calendar -/

def isLeap (y : ℕ) : Bool := y % 4 = 0 && (y % 100 ≠ 0 || y % 400 = 0)

def daysInMonth (y m : ℕ) : ℕ :=
  match m with
  | 2 => if isLeap y then 29 else 28
  | 4 | 6 | 9 | 11 => 30
  | _ => 31

/-- Days in the years before `y`. -/
def daysBeforeYear (y : ℕ) : ℕ :=
  (y - 1) * 365 + (y - 1) / 4 - (y - 1) / 100 + (y - 1) / 400

/-- Days in the year `y` before the month `m`. -/
def daysBeforeMonth (y : ℕ) : ℕ → ℕ
  | 0 => 0
  | 1 => 0
  | m + 2 => daysBeforeMonth y (m + 1) + daysInMonth y (m + 1)

/-- 0001-01-01 has ordinal 1. -/
def toOrdinal (y m d : ℕ) : ℕ := daysBeforeYear y + daysBeforeMonth y m + d

def maxOrdinal : ℕ := 3652059

/-- The month and the day of a zero-based day of the year; `left` counts the
months not yet excluded. -/
def monthDay (y : ℕ) : (left : ℕ) → (m n : ℕ) → ℕ × ℕ
  | 0, m, n => (m, n + 1)
  | left + 1, m, n =>
    if n < daysInMonth y m then (m, n + 1)
    else monthDay y left (m + 1) (n - daysInMonth y m)

/-- Civil date of an ordinal, by cycles of 400, 100, 4 and 1 years. -/
def ofOrdinal (ordinal : ℕ) : ℕ × ℕ × ℕ :=
  let n := ordinal - 1
  let n400 := n / 146097
  let n := n % 146097
  let n100 := n / 36524
  let n := n % 36524
  let n4 := n / 1461
  let n := n % 1461
  let n1 := n / 365
  let y := n400 * 400 + 1 + n100 * 100 + n4 * 4 + n1
  -- the last day of a 4-year or 400-year cycle still belongs to its last year
  if n1 = 4 || n100 = 4 then (y - 1, 12, 31)
  else
    let (m, d) := monthDay y 11 1 (n % 365)
    (y, m, d)

def microsPerDay : ℤ := 86400000000

/-- Microseconds of the civil fields, the offset ignored. -/
def toMicros (d : Datetime) : ℤ :=
  (toOrdinal d.year d.month d.day : ℤ) * microsPerDay +
    (((d.hour * 60 + d.minute) * 60 + d.second) * 1000000 + d.microsecond : ℕ)

/-- Civil fields of a microsecond count, refused outside years 1 to 9999. -/
def ofMicros (t : ℤ) (utcoffset : Option ℤ) : Except PyError Datetime :=
  let ordinal := t / microsPerDay
  let rest := (t % microsPerDay).toNat
  if 1 ≤ ordinal ∧ ordinal ≤ maxOrdinal then
    let (y, m, d) := ofOrdinal ordinal.toNat
    .ok
      { year := y
        month := m
        day := d
        hour := rest / 3600000000
        minute := rest / 60000000 % 60
        second := rest / 1000000 % 60
        microsecond := rest % 1000000
        utcoffset }
  else .error .overflowError

/-- The instant an aware value denotes, in microseconds of UTC. -/
def instant (d : Datetime) : ℤ := d.toMicros - d.utcoffset.getD 0

def astimezoneUtc (d : Datetime) : Except PyError Datetime :=
  match d.utcoffset with
  | some off => ofMicros (d.toMicros - off) (some 0)
  | none => .error .localZone

def addSeconds (d : Datetime) (s : ℤ) : Except PyError Datetime :=
  ofMicros (d.toMicros + s * 1000000) d.utcoffset

/-- The microseconds of `timedelta(seconds=s)`, a half rounded to even. -/
def timedeltaMicros (s : Rat) : ℤ :=
  let micros := (s * 1000000).floor
  let rest := s * 1000000 - micros
  if rest < 1 / 2 ∨ (rest = 1 / 2 ∧ micros % 2 = 0) then micros else micros + 1

/-- `d + timedelta(seconds=s)`. -/
def addTimedelta (d : Datetime) (s : Rat) : Except PyError Datetime :=
  ofMicros (d.toMicros + timedeltaMicros s) d.utcoffset

/-! ## Writing ISO 8601 -/

def digitChar (n : ℕ) : Char := Char.ofNat (48 + n)

/-- `n` in exactly `k` decimal digits. -/
def padDigits : (k n : ℕ) → List Char
  | 0, _ => []
  | k + 1, n => padDigits k (n / 10) ++ [digitChar (n % 10)]

def dateChars (d : Datetime) : List Char :=
  padDigits 4 d.year ++ '-' :: padDigits 2 d.month ++ '-' :: padDigits 2 d.day

def clockChars (d : Datetime) : List Char :=
  padDigits 2 d.hour ++ ':' :: padDigits 2 d.minute ++ ':' :: padDigits 2 d.second

def offsetChars : Option ℤ → List Char
  | none => []
  | some off =>
    let a := off.natAbs
    let secs := a / 1000000
    (if off < 0 then '-' else '+') ::
      (padDigits 2 (secs / 3600) ++ ':' :: padDigits 2 (secs / 60 % 60) ++
        if a % 60000000 = 0 then []
        else ':' :: padDigits 2 (secs % 60) ++
          if a % 1000000 = 0 then [] else '.' :: padDigits 6 (a % 1000000))

/-- `isoformat(timespec="microseconds")`. -/
def isoformatMicroseconds (d : Datetime) : String :=
  String.ofList (dateChars d ++ 'T' :: clockChars d ++
    '.' :: padDigits 6 d.microsecond ++ offsetChars d.utcoffset)

/-- `isoformat()`: the fraction is left out when it is zero. -/
def isoformat (d : Datetime) : String :=
  if d.microsecond = 0 then
    String.ofList (dateChars d ++ 'T' :: clockChars d ++ offsetChars d.utcoffset)
  else isoformatMicroseconds d

/-! ## Reading ISO 8601 -/

def digit? (c : Char) : Option ℕ :=
  if '0' ≤ c ∧ c ≤ '9' then some (c.toNat - 48) else none

def isDigit (c : Char) : Bool := (digit? c).isSome

/-- Exactly `k` digits off the front. -/
def digits : (k : ℕ) → (acc : ℕ) → List Char → Option (ℕ × List Char)
  | 0, acc, cs => some (acc, cs)
  | _ + 1, _, [] => none
  | k + 1, acc, c :: cs => do
    let n ← digit? c
    digits k (acc * 10 + n) cs

def fraction : List Char → Option ℕ
  | [] => some 0
  | c :: ds =>
    if (c = '.' || c = ',') && ds ≠ [] && ds.all isDigit then do
      let used := ds.take 6
      let (n, _) ← digits used.length 0 used
      pure (n * 10 ^ (6 - used.length))
    else none

/-- `HH[:?MM[:?SS[{.,}f+]]]`; the colon is used throughout or nowhere. -/
def hhMmSsFf (cs : List Char) : Option (ℕ × ℕ × ℕ × ℕ) := do
  let (h, r) ← digits 2 0 cs
  match r with
  | [] => pure (h, 0, 0, 0)
  | ':' :: r =>
    let (m, r) ← digits 2 0 r
    match r with
    | [] => pure (h, m, 0, 0)
    | ':' :: r =>
      let (s, r) ← digits 2 0 r
      let f ← fraction r
      pure (h, m, s, f)
    | _ => none
  | r =>
    let (m, r) ← digits 2 0 r
    match r with
    | [] => pure (h, m, 0, 0)
    | r =>
      let (s, r) ← digits 2 0 r
      let f ← fraction r
      pure (h, m, s, f)

def isZoneMark (c : Char) : Bool := c = '+' || c = '-' || c = 'Z'

/-- Clock and zone. A zone of a whole day or more is refused. -/
def isoTime (cs : List Char) : Option ((ℕ × ℕ × ℕ × ℕ) × Option ℤ) := do
  let clock ← hhMmSsFf (cs.takeWhile (fun c => !isZoneMark c))
  match cs.dropWhile (fun c => !isZoneMark c) with
  | [] => pure (clock, none)
  | 'Z' :: r => if r = [] then pure (clock, some 0) else none
  | sign :: r =>
    let (h, m, s, f) ← hhMmSsFf r
    let off : ℕ := ((h * 60 + m) * 60 + s) * 1000000 + f
    if (off : ℤ) < microsPerDay then
      pure (clock, some (if sign = '-' then -(off : ℤ) else off))
    else none

def isoWeek1Monday (y : ℕ) : ℕ :=
  let first := toOrdinal y 1 1
  let weekday := (first + 6) % 7
  if weekday > 3 then first - weekday + 7 else first - weekday

def isoWeekDate (y week day : ℕ) : Option (ℕ × ℕ × ℕ) :=
  let first := toOrdinal y 1 1 % 7
  let longYear := first = 4 || (first = 3 && isLeap y)
  if (1 ≤ week && (week ≤ 52 || (week = 53 && longYear))) && (1 ≤ day && day ≤ 7) then
    some (ofOrdinal (isoWeek1Monday y + (week - 1) * 7 + (day - 1)))
  else none

def isoDate (cs : List Char) : Option (ℕ × ℕ × ℕ) := do
  let (y, r) ← digits 4 0 cs
  match r with
  | '-' :: 'W' :: r =>
    let (w, r) ← digits 2 0 r
    match r with
    | [] => isoWeekDate y w 1
    | '-' :: r =>
      let (d, r) ← digits 1 0 r
      if r = [] then isoWeekDate y w d else none
    | _ => none
  | 'W' :: r =>
    let (w, r) ← digits 2 0 r
    match r with
    | [] => isoWeekDate y w 1
    | r =>
      let (d, r) ← digits 1 0 r
      if r = [] then isoWeekDate y w d else none
  | '-' :: r =>
    let (m, r) ← digits 2 0 r
    match r with
    | '-' :: r =>
      let (d, r) ← digits 2 0 r
      if r = [] then pure (y, m, d) else none
    | _ => none
  | r =>
    let (m, r) ← digits 2 0 r
    let (d, r) ← digits 2 0 r
    if r = [] then pure (y, m, d) else none

/-- Where the date ends and the one-character separator stands. -/
def separatorIndex (cs : List Char) : Option ℕ :=
  if cs.length < 7 then none
  else if cs.length = 7 then some 7
  else if cs[4]? = some '-' then
    if cs[5]? = some 'W' then
      if cs[8]? = some '-' then
        if cs.length = 9 then none
        else if (cs[10]?).any isDigit then some 8 else some 10
      else some 8
    else some 10
  else if cs[4]? = some 'W' then
    let i := 7 + ((cs.drop 7).takeWhile isDigit).length
    if i < 9 then some i else if i % 2 = 0 then some 7 else some 8
  else some 8

def inRange (d : Datetime) : Bool :=
  (1 ≤ d.year && d.year ≤ 9999) && (1 ≤ d.month && d.month ≤ 12) &&
    (1 ≤ d.day && d.day ≤ daysInMonth d.year d.month) &&
    d.hour < 24 && d.minute < 60 && d.second < 60 && d.microsecond < 1000000

def fromisoformat (text : String) : Except PyError Datetime :=
  let parsed : Option Datetime := do
    let cs := text.toList
    let i ← separatorIndex cs
    let (y, m, d) ← isoDate (cs.take i)
    let ((h, mi, s, f), off) ←
      if i < cs.length then isoTime (cs.drop (i + 1)) else pure ((0, 0, 0, 0), none)
    let value : Datetime :=
      { year := y, month := m, day := d, hour := h, minute := mi, second := s,
        microsecond := f, utcoffset := off }
    if value.inRange then pure value else none
  match parsed with
  | some d => .ok d
  | none => .error .valueError

end Datetime

end Medre.Framework
