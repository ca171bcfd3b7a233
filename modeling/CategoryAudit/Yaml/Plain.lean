import CategoryAudit.Text.Blank
import CategoryAudit.Text.Digit
import CategoryAudit.Text.Lowercase
import CategoryAudit.Yaml.Fault
import CategoryAudit.Yaml.Value

/-!
# Types of scalars

A plain scalar is a truth value, a number, a date, empty or a text, according to its form. The
readers of each type take more than the forms by which it is recognized, for scalars that carry
their type explicitly.
-/

namespace CategoryAudit.Yaml

/-- The types of nodes. `merge` and `fallback` mark two keys with a meaning of their own. -/
inductive Kind where
  | null | bool | int | float | binary | moment | text
  | sequence | mapping | set | pairs
  | merge | fallback
  | unknown
  deriving BEq, DecidableEq, Repr

def Kind.ofTag (name : String) : Kind :=
  match name with
  | "tag:yaml.org,2002:null" => .null
  | "tag:yaml.org,2002:bool" => .bool
  | "tag:yaml.org,2002:int" => .int
  | "tag:yaml.org,2002:float" => .float
  | "tag:yaml.org,2002:binary" => .binary
  | "tag:yaml.org,2002:timestamp" => .moment
  | "tag:yaml.org,2002:str" => .text
  | "tag:yaml.org,2002:seq" => .sequence
  | "tag:yaml.org,2002:map" => .mapping
  | "tag:yaml.org,2002:set" => .set
  | "tag:yaml.org,2002:omap" => .pairs
  | "tag:yaml.org,2002:pairs" => .pairs
  | "tag:yaml.org,2002:merge" => .merge
  | "tag:yaml.org,2002:value" => .fallback
  | _ => .unknown

/-! ## Forms of numbers -/

def isDigitOrLow (c : Char) : Bool := c.isDigit || c == '_'

def dropSign : List Char → List Char
  | '-' :: rest => rest
  | '+' :: rest => rest
  | cs => cs

def isSixtieth : List Char → Bool
  | [c] => c.isDigit
  | [c, d] => '0' ≤ c && c ≤ '5' && d.isDigit
  | _ => false

def splitAll (mark : Char) : List Char → List (List Char)
  | [] => [[]]
  | c :: rest =>
    match splitAll mark rest with
    | part :: parts => if c == mark then [] :: part :: parts else (c :: part) :: parts
    | [] => [[c]]

def isRun (first more : Char → Bool) : List Char → Bool
  | [] => false
  | c :: rest => first c && rest.all more

def isIntForm (cs : List Char) : Bool :=
  match dropSign cs with
  | '0' :: 'b' :: digits => isRun (fun c => c == '0' || c == '1' || c == '_')
      (fun c => c == '0' || c == '1' || c == '_') digits
  | '0' :: 'x' :: digits =>
    let isHex (c : Char) : Bool :=
      c.isDigit || c == '_' || ('a' ≤ c && c ≤ 'f') || ('A' ≤ c && c ≤ 'F')
    isRun isHex isHex digits
  | ['0'] => true
  | '0' :: digits => digits.all fun c => ('0' ≤ c && c ≤ '7') || c == '_'
  | digits =>
    match splitAll ':' digits with
    | first :: parts =>
      isRun (fun c => '1' ≤ c && c ≤ '9') isDigitOrLow first && parts.all isSixtieth
    | [] => false

def isFractionForm (cs : List Char) : Bool :=
  match cs.dropWhile isDigitOrLow with
  | [] => true
  | e :: sign :: digits => (e == 'e' || e == 'E') && (sign == '-' || sign == '+')
      && isRun Char.isDigit Char.isDigit digits
  | _ => false

def isFloatForm (cs : List Char) : Bool :=
  let unsigned := dropSign cs
  let named := match unsigned with
    | '.' :: word => ["inf", "Inf", "INF"].contains (String.ofList word)
    | _ => false
  let nan := match cs with
    | '.' :: word => ["nan", "NaN", "NAN"].contains (String.ofList word)
    | _ => false
  let pointed := match cs with
    | '.' :: c :: rest => c.isDigit && isFractionForm rest
    | _ => false
  let whole := unsigned.takeWhile (fun c => isDigitOrLow c || c == ':')
  let after := unsigned.dropWhile (fun c => isDigitOrLow c || c == ':')
  let usual := match splitAll ':' whole, after with
    | [first], '.' :: rest => isRun Char.isDigit isDigitOrLow first && isFractionForm rest
    | first :: parts, '.' :: rest =>
      isRun Char.isDigit isDigitOrLow first && parts.all isSixtieth && rest.all isDigitOrLow
    | _, _ => false
  named || nan || pointed || usual

/-! ## Dates and times -/

def takeDigits? (low high : Nat) (cs : List Char) : Option (List Char × List Char) :=
  let digits := (cs.take high).takeWhile Char.isDigit
  if low ≤ digits.length then some (digits, cs.drop digits.length) else none

def numberOf (digits : List Char) : Nat :=
  digits.foldl (fun n c => 10 * n + (c.toNat - '0'.toNat)) 0

structure WrittenMoment where
  year : List Char
  month : List Char
  day : List Char
  time : Option (List Char × List Char × List Char)
  fraction : List Char
  /-- Sign, hours and minutes of a distance from universal time. -/
  offset : Option (Char × List Char × List Char)
  deriving Repr

def takeChar? (p : Char → Bool) : List Char → Option (Char × List Char)
  | c :: rest => if p c then some (c, rest) else none
  | [] => none

def isSpaceOrTab (c : Char) : Bool := c == ' ' || c == '\t'

def offset? (cs : List Char) : Option (Option (Char × List Char × List Char)) :=
  match cs.dropWhile isSpaceOrTab with
  | [] => if cs.isEmpty then some none else none
  | ['Z'] => some (some ('+', ['0'], ['0']))
  | sign :: rest =>
    if sign == '-' || sign == '+' then do
      let (hours, rest) ← takeDigits? 1 2 rest
      match rest with
      | [] => some (some (sign, hours, ['0']))
      | ':' :: rest => do
        let (minutes, rest) ← takeDigits? 2 2 rest
        if rest.isEmpty then some (some (sign, hours, minutes)) else none
      | _ => none
    else none

def writtenMoment? (cs : List Char) : Option WrittenMoment := do
  let (year, rest) ← takeDigits? 4 4 cs
  let (_, rest) ← takeChar? (· == '-') rest
  let (month, rest) ← takeDigits? 1 2 rest
  let (_, rest) ← takeChar? (· == '-') rest
  let (day, rest) ← takeDigits? 1 2 rest
  match rest with
  | [] => return ⟨year, month, day, none, [], none⟩
  | c :: more =>
    let rest ← if c == 'T' || c == 't' then some more
      else if isSpaceOrTab c then some (more.dropWhile isSpaceOrTab)
      else none
    let (hour, rest) ← takeDigits? 1 2 rest
    let (_, rest) ← takeChar? (· == ':') rest
    let (minute, rest) ← takeDigits? 2 2 rest
    let (_, rest) ← takeChar? (· == ':') rest
    let (second, rest) ← takeDigits? 2 2 rest
    let (fraction, rest) := match rest with
      | '.' :: rest => (rest.takeWhile Char.isDigit, rest.dropWhile Char.isDigit)
      | rest => ([], rest)
    let offset ← offset? rest
    return ⟨year, month, day, some (hour, minute, second), fraction, offset⟩

/-- A date alone is recognized only with two digits each for month and day. -/
def isMomentForm (cs : List Char) : Bool :=
  match writtenMoment? cs with
  | some w => w.time.isSome || (w.month.length == 2 && w.day.length == 2)
  | none => false

/-! ## Recognition -/

def boolWords : List String :=
  ["yes", "Yes", "YES", "no", "No", "NO", "true", "True", "TRUE", "false", "False", "FALSE",
   "on", "On", "ON", "off", "Off", "OFF"]

def nullWords : List String := ["", "~", "null", "Null", "NULL"]

def Kind.ofPlain (s : String) : Kind :=
  if boolWords.contains s then .bool
  else if isFloatForm s.toList then .float
  else if isIntForm s.toList then .int
  else if s == "<<" then .merge
  else if nullWords.contains s then .null
  else if isMomentForm s.toList then .moment
  else if s == "=" then .fallback
  else .text

/-! ## Reading -/

def digitValue? (base : Nat) (c : Char) : Option Nat :=
  let n := if c.isDigit then c.toNat - '0'.toNat
    else if 'a' ≤ c && c ≤ 'z' then c.toNat - 'a'.toNat + 10
    else if 'A' ≤ c && c ≤ 'Z' then c.toNat - 'A'.toNat + 10
    else base
  if n < base then some n else none

def baseLetters : Nat → List Char
  | 2 => ['b', 'B']
  | 8 => ['o', 'O']
  | 16 => ['x', 'X']
  | _ => []

/-- Reads a whole number in a base, with blanks around it and a sign and base in front. The digits
may be of any script. -/
def integer? (base : Nat) (cs : List Char) : Option Int := do
  let cs := (Text.stripChars cs).map Text.plainDigit
  let digits := match dropSign cs with
    | '0' :: c :: rest => if (baseLetters base).contains c then rest else '0' :: c :: rest
    | rest => rest
  if digits.isEmpty then none
  let values ← digits.mapM (digitValue? base)
  let n : Int := (values.foldl (fun acc d => base * acc + d) 0 : Nat)
  return if cs.head? == some '-' then -n else n

def leadingDigits (cs : List Char) : Nat :=
  ((dropSign (Text.stripChars cs)).takeWhile Text.isDecimalDigit).length

/-- Reads a whole number in a base. In base ten too many digits are an error, even if something
else follows them. -/
def readInteger (base : Nat) (cs : List Char) : Except Fault Int :=
  if base == 10 && digitLimit < leadingDigits cs then .error (.tooManyDigits (leadingDigits cs))
  else match integer? base cs with
    | some n => .ok n
    | none => .error (.notInteger base (String.ofList cs))

def sixties (parts : List Int) : Int := parts.foldl (fun acc p => 60 * acc + p) 0

/-- Takes a sign off; a text without any characters is no number. -/
def signed (cs : List Char) : Except Fault (Bool × List Char) :=
  match cs with
  | [] => .error .noDigits
  | c :: _ => .ok (c == '-', dropSign cs)

def readInt (s : String) : Except Fault Int := do
  let (negative, cs) ← signed (s.toList.filter (· != '_'))
  let n ← match cs with
    | ['0'] => pure 0
    | '0' :: 'b' :: digits => readInteger 2 digits
    | '0' :: 'x' :: digits => readInteger 16 digits
    | '0' :: _ => readInteger 8 cs
    | [] => throw .noDigits
    | _ =>
      if cs.contains ':' then pure (sixties (← (splitAll ':' cs).mapM (readInteger 10)))
      else readInteger 10 cs
  return if negative then -n else n

/-- The number `digits * 10 ^ scale`. Beyond 400 places nothing but zero or infinity is left. -/
def decimal (digits : List Char) (scale : Int) : Float :=
  let digits := digits.dropWhile (· == '0')
  let m := numberOf digits
  if m = 0 || digits.length + scale < -400 then 0.0
  else if 400 < scale then 1.0 / 0.0
  else if scale < 0 then Float.ofScientific m true scale.natAbs
  else Float.ofScientific m false scale.natAbs

def float? (cs : List Char) : Option Float := do
  let cs := (Text.stripChars cs).map Text.plainDigit
  let negative := cs.head? == some '-'
  let unsigned := dropSign cs
  let word := String.ofList unsigned
  let value ←
    if word == "inf" || word == "infinity" then some (1.0 / 0.0)
    else if word == "nan" then some (0.0 / 0.0)
    else do
      let whole := unsigned.takeWhile Char.isDigit
      let rest := unsigned.dropWhile Char.isDigit
      let (fraction, rest) := match rest with
        | '.' :: rest => (rest.takeWhile Char.isDigit, rest.dropWhile Char.isDigit)
        | rest => ([], rest)
      if whole.isEmpty && fraction.isEmpty then none
      let power ← match rest with
        | [] => some 0
        | 'e' :: rest => if (dropSign rest).all Char.isDigit then integer? 10 rest else none
        | _ => none
      some (decimal (whole ++ fraction) (power - fraction.length))
  return if negative then -value else value

def readFloatPart (cs : List Char) : Except Fault Float :=
  match float? cs with
  | some x => .ok x
  | none => .error (.notFloat (String.ofList cs))

/-- The most places in base sixty whose weights are binary numbers. -/
def placeLimit : Nat := 174

def floatSixties (parts : List Float) : Except Fault Float :=
  if placeLimit < parts.length then .error .weightTooLarge
  else .ok (parts.reverse.foldl (fun (acc : Float × Nat) p =>
    (acc.1 + p * Float.ofNat acc.2, 60 * acc.2)) (0.0, 1)).1

def readFloat (s : String) : Except Fault UInt64 := do
  let (negative, cs) ← signed (Text.lower (String.ofList (s.toList.filter (· != '_')))).toList
  let word := String.ofList cs
  let value ←
    if word == ".inf" then pure (1.0 / 0.0)
    else if word == ".nan" then pure (0.0 / 0.0)
    else if cs.contains ':' then
      floatSixties (← (splitAll ':' cs).mapM readFloatPart)
    else readFloatPart cs
  return (if negative then -value else value).toBits

def readBool (s : String) : Except Fault Bool :=
  let word := Text.lower s
  if ["yes", "true", "on"].contains word then .ok true
  else if ["no", "false", "off"].contains word then .ok false
  else .error (.notBoolean word)

def daysIn (year month : Nat) : Nat :=
  let leap := year % 4 == 0 && (year % 100 != 0 || year % 400 == 0)
  if month == 2 then (if leap then 29 else 28)
  else if [4, 6, 9, 11].contains month then 30 else 31

def checkDate (d : Date) : Except Fault Unit := do
  if d.year == 0 then throw (.outOfRange s!"year {d.year} is out of range")
  unless 1 ≤ d.month && d.month ≤ 12 do throw (.outOfRange "month must be in 1..12")
  unless 1 ≤ d.day && d.day ≤ daysIn d.year d.month do
    throw (.outOfRange "day is out of range for month")

def checkTime (m : Moment) : Except Fault Unit := do
  unless m.hour < 24 do throw (.outOfRange "hour must be in 0..23")
  unless m.minute < 60 do throw (.outOfRange "minute must be in 0..59")
  unless m.second < 60 do throw (.outOfRange "second must be in 0..59")

def spanShown (minutes : Int) : String :=
  let days := minutes.fdiv 1440
  let seconds := minutes.fmod 1440 * 60
  let parts := (if days == 0 then [] else [s!"days={days}"])
    ++ (if seconds == 0 then [] else [s!"seconds={seconds}"])
  "datetime.timedelta(" ++ (if parts.isEmpty then "0" else ", ".intercalate parts) ++ ")"

def checkOffset (minutes : Int) : Except Fault Unit :=
  if minutes.natAbs < 1440 then .ok ()
  else .error (.outOfRange ("offset must be a timedelta strictly between -timedelta(hours=24) and "
    ++ "timedelta(hours=24), not " ++ spanShown minutes ++ "."))

def microOf (fraction : List Char) : Nat :=
  let six := fraction.take 6
  numberOf (six ++ List.replicate (6 - six.length) '0')

def dropLastBreak (cs : List Char) : List Char :=
  if cs.getLast? == some '\n' then cs.dropLast else cs

def readMoment (s : String) : Except Fault Scalar := do
  match writtenMoment? (dropLastBreak s.toList) with
  | none => throw .notMoment
  | some w =>
    let date : Date := ⟨numberOf w.year, numberOf w.month, numberOf w.day⟩
    match w.time with
    | none =>
      checkDate date
      return .date date
    | some (hour, minute, second) =>
      let offset ← match w.offset with
        | none => pure none
        | some (sign, hours, minutes) =>
          let span : Int := (60 * numberOf hours + numberOf minutes : Nat)
          let span := if sign == '-' then -span else span
          checkOffset span
          pure (some span)
      let m : Moment :=
        ⟨date, numberOf hour, numberOf minute, numberOf second, microOf w.fraction, offset⟩
      checkDate date
      checkTime m
      return .moment m

/-! ## Binary data -/

def sextet? (c : Char) : Option Nat :=
  if 'A' ≤ c && c ≤ 'Z' then some (c.toNat - 'A'.toNat)
  else if 'a' ≤ c && c ≤ 'z' then some (c.toNat - 'a'.toNat + 26)
  else if c.isDigit then some (c.toNat - '0'.toNat + 52)
  else if c == '+' then some 62
  else if c == '/' then some 63
  else none

/-- Reads groups of four digits of six bits each; `position` is the place in the present group,
`left` the bits that are left over. Other characters are skipped, and padding may end the text. -/
def sextets (position left pads : Nat) (bytes : List UInt8) : List Char → Option (List UInt8)
  | [] => if position = 0 then some bytes.reverse else none
  | '=' :: rest =>
    if 2 ≤ position && 4 ≤ position + pads + 1 then some bytes.reverse
    else sextets position left (if 2 ≤ position then pads + 1 else pads) bytes rest
  | c :: rest =>
    match sextet? c, position with
    | none, _ => sextets position left pads bytes rest
    | some v, 0 => sextets 1 v 0 bytes rest
    | some v, 1 => sextets 2 (v % 16) 0 (UInt8.ofNat (left * 4 + v / 16) :: bytes) rest
    | some v, 2 => sextets 3 (v % 4) 0 (UInt8.ofNat (left * 16 + v / 4) :: bytes) rest
    | some v, _ => sextets 0 0 0 (UInt8.ofNat (left * 64 + v) :: bytes) rest

def readBinary (s : String) : Except Fault (List UInt8) :=
  if s.toList.all (·.toNat < 128) then
    match sextets 0 0 0 [] s.toList with
    | some bytes => .ok bytes
    | none => .error .malformed
  else .error .malformed

def readScalar (kind : Kind) (s : String) : Except Fault Scalar :=
  match kind with
  | .null => .ok .null
  | .bool => (readBool s).map .bool
  | .int => (readInt s).map .int
  | .float => (readFloat s).map .float
  | .binary => (readBinary s).map .bytes
  | .moment => readMoment s
  | .text => .ok (.text s)
  | _ => .error .malformed

end CategoryAudit.Yaml
