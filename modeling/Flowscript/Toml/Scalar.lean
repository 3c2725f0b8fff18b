import Flowscript.Toml.Value

/-!
# Numbers, truth values, dates and times

A value that is neither a string nor a list nor a table is a run of letters, digits and a few signs;
its spelling alone tells what it is.

## Main definitions

* `integer?`, `float?` — numbers.
* `isDate`, `isTime`, `isDateTime` — dates and times.
* `scalar?` — the value of a spelling.
-/

namespace Flowscript.Toml

/-- The digits of a base. -/
def digitValue? (base : Nat) (c : Char) : Option Nat :=
  let v? :=
    if '0' ≤ c && c ≤ '9' then some (c.toNat - '0'.toNat)
    else if 'a' ≤ c && c ≤ 'f' then some (c.toNat - 'a'.toNat + 10)
    else if 'A' ≤ c && c ≤ 'F' then some (c.toNat - 'A'.toNat + 10)
    else none
  v?.filter (· < base)

/-- Read digits in which single underscores may stand between two digits. -/
def groupedDigits? (base : Nat) : List Char → Option (List Nat)
  | [] => none
  | [c] => (digitValue? base c).map ([·])
  | c :: d :: rest =>
    (digitValue? base c).bind fun v =>
      if d = '_' then (groupedDigits? base rest).map (v :: ·)
      else (groupedDigits? base (d :: rest)).map (v :: ·)

/-- The number that digits spell. -/
def ofDigits (base : Nat) (ds : List Nat) : Nat := ds.foldl (fun n d => base * n + d) 0

/-- Set a leading sign apart: whether it is a minus, and what follows it. -/
def signed : List Char → Bool × List Char
  | '-' :: rest => (true, rest)
  | '+' :: rest => (false, rest)
  | cs => (false, cs)

/-- Decimal digits without a needless leading zero. -/
def wholeDigits? (cs : List Char) : Option (List Nat) :=
  if cs.head? = some '0' && cs.length > 1 then none else groupedDigits? 10 cs

/-! ### Integers -/

/-- The largest integer a document may hold. -/
def maxInteger : Nat := 9223372036854775807

/-- An integer: decimal with an optional sign, or hexadecimal, octal or binary without one. It has
to fit in 64 bits. -/
def integer? : List Char → Option Int
  | '0' :: 'x' :: rest => unsigned 16 rest
  | '0' :: 'o' :: rest => unsigned 8 rest
  | '0' :: 'b' :: rest => unsigned 2 rest
  | cs => do
    let (negative, digits) := signed cs
    let n := ofDigits 10 (← wholeDigits? digits)
    if negative then
      if n ≤ maxInteger + 1 then some (-(n : Int)) else none
    else
      if n ≤ maxInteger then some (n : Int) else none
where
  unsigned (base : Nat) (cs : List Char) : Option Int := do
    let n := ofDigits base (← groupedDigits? base cs)
    if n ≤ maxInteger then some (n : Int) else none

/-! ### Numbers with a fraction or an exponent -/

/-- The least number that is rounded to infinity in binary double precision. -/
def roundsToInfinity : Nat := Nat.pow 2 1024 - Nat.pow 2 970

/-- Whether `digits · 10 ^ exponent` is rounded to a finite number. Exponents far outside the range
of double precision are judged by their size alone. -/
def isFinite (digits : List Nat) (exponent : Int) : Bool :=
  let m := ofDigits 10 digits
  if m = 0 then true
  else if exponent > 400 then false
  else if exponent ≥ 0 then m * Nat.pow 10 exponent.toNat < roundsToInfinity
  else if (-exponent).toNat > digits.length then true
  else m < roundsToInfinity * Nat.pow 10 (-exponent).toNat

/-- The digits behind a decimal point, or none if there is no point. -/
def fraction? : List Char → Option (List Nat)
  | [] => some []
  | '.' :: rest => groupedDigits? 10 rest
  | _ => none

/-- The exponent behind its mark, or zero if there is no mark. -/
def exponent? : List Char → Option Int
  | [] => some 0
  | _ :: rest => do
    let (negative, digits) := signed rest
    let n := ofDigits 10 (← groupedDigits? 10 digits)
    some (if negative then -(n : Int) else (n : Int))

/-- Whether a spelling is a number with a fraction, an exponent or both. A positive one has to be
finite. -/
def isFloat (cs : List Char) : Bool :=
  let (negative, body) := signed cs
  let (mantissa, power) := body.span fun c => c ≠ 'e' && c ≠ 'E'
  let (whole, point) := mantissa.span (· ≠ '.')
  match wholeDigits? whole, fraction? point, exponent? power with
  | some w, some f, some e =>
    (!point.isEmpty || !power.isEmpty) && (negative || isFinite (w ++ f) (e - f.length))
  | _, _, _ => false

/-! ### Dates and times -/

/-- A number of exactly as many digits as there are characters, in a range. -/
def inRange (lo hi : Nat) (cs : List Char) : Bool :=
  cs.all Char.isDigit &&
    let n := ofDigits 10 (cs.map fun c => c.toNat - '0'.toNat)
    lo ≤ n && n ≤ hi

/-- The number of days of a month. -/
def daysInMonth (year month : Nat) : Nat :=
  if month = 2 then
    if year % 4 = 0 && (year % 100 ≠ 0 || year % 400 = 0) then 29 else 28
  else if month = 4 || month = 6 || month = 9 || month = 11 then 30 else 31

/-- The number that decimal digits spell. -/
def number (cs : List Char) : Nat := ofDigits 10 (cs.map fun c => c.toNat - '0'.toNat)

/-- A calendar date, `YYYY-MM-DD`. -/
def isDate : List Char → Bool
  | [a, b, c, d, '-', e, f, '-', g, h] =>
    inRange 0 9999 [a, b, c, d] && inRange 1 12 [e, f] &&
      inRange 1 (daysInMonth (number [a, b, c, d]) (number [e, f])) [g, h]
  | _ => false

/-- A time of day, `HH:MM:SS` with an optional fraction of the second. A second may be a leap
second. -/
def isTime : List Char → Bool
  | a :: b :: ':' :: c :: d :: ':' :: e :: f :: rest =>
    inRange 0 23 [a, b] && inRange 0 59 [c, d] && inRange 0 60 [e, f] &&
      match rest with
      | [] => true
      | '.' :: digits => !digits.isEmpty && digits.all Char.isDigit
      | _ => false
  | _ => false

/-- An offset from universal time: `Z`, or a signed `HH:MM`. -/
def isOffset : List Char → Bool
  | ['Z'] | ['z'] => true
  | sign :: a :: b :: ':' :: rest =>
    (sign = '+' || sign = '-') && inRange 0 23 [a, b] && rest.length = 2 && inRange 0 59 rest
  | _ => false

/-- A time of day, perhaps followed by an offset. -/
def isTimeWithOffset (cs : List Char) : Bool :=
  let (time, offset) := cs.span fun c => c.isDigit || c = ':' || c = '.'
  isTime time && (offset.isEmpty || isOffset offset)

/-- A date, a time, or a date and a time joined by a letter `T`. -/
def isDateTime (cs : List Char) : Bool :=
  isDate cs || isTime cs ||
    (isDate (cs.take 10) &&
      match cs.drop 10 with
      | c :: rest => (c = 'T' || c = 't') && isTimeWithOffset rest
      | [] => false)

/-! ### All of them -/

/-- The characters of these values. -/
def isScalarChar (c : Char) : Bool :=
  c.isAlphanum || c = '+' || c = '-' || c = '_' || c = '.' || c = ':'

/-- The value of a spelling. -/
def scalar? (cs : List Char) : Option Value :=
  let spelling := String.ofList cs
  if spelling = "true" then some (.boolean true)
  else if spelling = "false" then some (.boolean false)
  else if (signed cs).2 = ['i', 'n', 'f'] || (signed cs).2 = ['n', 'a', 'n'] then
    some (.float spelling)
  else if isDateTime cs then some (.dateTime spelling)
  else if isFloat cs then some (.float spelling)
  else (integer? cs).map .integer

/-- Read such a value. A date may be followed by one blank and a time. -/
def readScalar (cs : List Char) : Option (Value × List Char) :=
  let (word, rest) := cs.span isScalarChar
  match rest with
  | ' ' :: d :: rest' =>
    if isDate word && d.isDigit then
      let (time, after) := (d :: rest').span isScalarChar
      if isTimeWithOffset time then
        some (.dateTime (String.ofList (word ++ ' ' :: time)), after)
      else none
    else (scalar? word).map (·, rest)
  | _ => (scalar? word).map (·, rest)

end Flowscript.Toml
