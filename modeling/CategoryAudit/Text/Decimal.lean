/-!
# Decimal text of binary numbers

A finite binary number is `m * 2 ^ q`. Its shortest decimal is the one with the fewest digits
among those that lie closer to it than to any other number of the format; of two with equally
many digits the closer one is taken. Numbers from `0.0001` up to `10 ^ 16` are written without an
exponent.
-/

namespace CategoryAudit.Text.Decimal

structure Binary where
  m : Nat
  q : Int
  deriving BEq, DecidableEq, Repr

def fractionOf (bits : UInt64) : Nat := bits.toNat % Nat.pow 2 52

def exponentOf (bits : UInt64) : Nat := bits.toNat / Nat.pow 2 52 % Nat.pow 2 11

def isNegative (bits : UInt64) : Bool := Nat.pow 2 63 ≤ bits.toNat

def Binary.ofBits (bits : UInt64) : Binary :=
  if exponentOf bits = 0 then ⟨fractionOf bits, -1074⟩
  else ⟨Nat.pow 2 52 + fractionOf bits, (exponentOf bits : Int) - 1075⟩

/-- A number between two bounds, all as numerators over one denominator. -/
structure Interval where
  low : Nat
  value : Nat
  high : Nat
  den : Nat
  closed : Bool
  deriving Repr

/-- The decimals that are read back as the number. The gap below a power of two is half as wide
as the gap above it. -/
def Interval.of (bits : UInt64) : Interval :=
  let ⟨m, q⟩ := Binary.ofBits bits
  let unit := Nat.pow 2 (q - 2).toNat
  let below := if fractionOf bits = 0 && 1 < exponentOf bits then 1 else 2
  ⟨(4 * m - below) * unit, 4 * m * unit, (4 * m + 2) * unit, Nat.pow 2 (2 - q).toNat, m % 2 == 0⟩

def Interval.contains (i : Interval) (d : Nat) (e : Int) : Bool :=
  let point := d * Nat.pow 10 e.toNat * i.den
  let scale := Nat.pow 10 (-e).toNat
  if i.closed then i.low * scale ≤ point && point ≤ i.high * scale
  else i.low * scale < point && point < i.high * scale

/-- The distance of `d * 10 ^ e` from the number, in a unit that depends on `e` alone. -/
def Interval.distance (i : Interval) (d : Nat) (e : Int) : Nat :=
  let point := d * Nat.pow 10 e.toNat * i.den
  let value := i.value * Nat.pow 10 (-e).toNat
  (point - value) + (value - point)

def Interval.onGrid? (i : Interval) (e : Int) : Option Nat :=
  let d := i.value * Nat.pow 10 (-e).toNat / (i.den * Nat.pow 10 e.toNat)
  match i.contains d e, i.contains (d + 1) e with
  | true, true =>
    let near := i.distance d e
    let far := i.distance (d + 1) e
    if near < far || (near == far && d % 2 == 0) then some d else some (d + 1)
  | true, false => some d
  | false, true => some (d + 1)
  | false, false => none

def Interval.search (i : Interval) (e : Int) : Nat → Nat × Int
  | 0 => (i.value / i.den, 0)
  | fuel + 1 =>
    match i.onGrid? e with
    | some d => if d = 0 then search i (e - 1) fuel else (d, e)
    | none => search i (e - 1) fuel

def shortest (bits : UInt64) : Nat × Int := (Interval.of bits).search 310 640

def trim : Nat → Nat × Int → Nat × Int
  | 0, x => x
  | fuel + 1, (d, e) => if d % 10 == 0 && d != 0 then trim fuel (d / 10, e + 1) else (d, e)

def positional (digits : List Char) (point : Int) : String :=
  let n : Int := digits.length
  if point ≤ 0 then
    "0." ++ String.ofList (List.replicate (-point).toNat '0' ++ digits)
  else if n ≤ point then
    String.ofList (digits ++ List.replicate (point - n).toNat '0') ++ ".0"
  else
    String.ofList (digits.take point.toNat) ++ "." ++ String.ofList (digits.drop point.toNat)

def exponential (digits : List Char) (point : Int) : String :=
  let head := digits.take 1
  let tail := digits.drop 1
  let e := point - 1
  let size := toString e.natAbs
  String.ofList head ++ (if tail.isEmpty then "" else "." ++ String.ofList tail)
    ++ "e" ++ (if e < 0 then "-" else "+") ++ (if size.length < 2 then "0" ++ size else size)

def text (bits : UInt64) : String :=
  let sign := if isNegative bits then "-" else ""
  if exponentOf bits = 2047 then
    if fractionOf bits = 0 then sign ++ "inf" else "nan"
  else if (Binary.ofBits bits).m = 0 then sign ++ "0.0"
  else
    let (d, e) := trim 640 (shortest bits)
    let digits := Nat.toDigits 10 d
    let point : Int := digits.length + e
    sign ++ (if -4 < point && point ≤ 16 then positional digits point
      else exponential digits point)

def whole? (bits : UInt64) : Option Int :=
  if exponentOf bits = 2047 then none
  else
    let ⟨m, q⟩ := Binary.ofBits bits
    let den := Nat.pow 2 (-q).toNat
    if m % den == 0 then
      let n : Int := (m / den * Nat.pow 2 q.toNat : Nat)
      some (if isNegative bits then -n else n)
    else none

end CategoryAudit.Text.Decimal
