import CategoryAudit.Text.Decimal
import CategoryAudit.Text.Quoted
import CategoryAudit.Yaml.Fault

/-!
# Values of a document

What a document stands for. Keys are scalars; a mapping keeps its keys in the order in which they
first occur. Sets and tuples are of no further interest here and are all `other`, and so is a
collection that contains itself.
-/

namespace CategoryAudit.Yaml

structure Date where
  year : Nat
  month : Nat
  day : Nat
  deriving BEq, ReflBEq, LawfulBEq, DecidableEq, Repr

/-- A time of day on a date; `offset` is the distance from universal time in minutes. -/
structure Moment where
  date : Date
  hour : Nat
  minute : Nat
  second : Nat
  micro : Nat
  offset : Option Int
  deriving BEq, ReflBEq, LawfulBEq, DecidableEq, Repr

inductive Scalar where
  | null
  | bool (b : Bool)
  | int (n : Int)
  | float (bits : UInt64)
  | text (s : String)
  | bytes (b : List UInt8)
  | date (d : Date)
  | moment (m : Moment)
  deriving BEq, ReflBEq, LawfulBEq, DecidableEq, Repr, Inhabited

inductive Value where
  | scalar (s : Scalar)
  | list (items : List Value)
  | map (entries : List (Scalar × Value))
  | other
  deriving Repr, Inhabited

def padded (width n : Nat) : String :=
  let digits := Nat.toDigits 10 n
  String.ofList (List.replicate (width - digits.length) '0' ++ digits)

def Date.shown (d : Date) : String := s!"{padded 4 d.year}-{padded 2 d.month}-{padded 2 d.day}"

def Moment.shown (m : Moment) : String :=
  let time := s!"{padded 2 m.hour}:{padded 2 m.minute}:{padded 2 m.second}"
  let fraction := if m.micro = 0 then "" else "." ++ padded 6 m.micro
  let offset := match m.offset with
    | none => ""
    | some o => (if o < 0 then "-" else "+")
        ++ s!"{padded 2 (o.natAbs / 60)}:{padded 2 (o.natAbs % 60)}"
  m.date.shown ++ " " ++ time ++ fraction ++ offset

namespace Scalar

def shown : Scalar → String
  | null => "None"
  | bool true => "True"
  | bool false => "False"
  | int n => toString n
  | float bits => Text.Decimal.text bits
  | text s => s
  | bytes b => Text.quotedBytes b
  | date d => d.shown
  | moment m => m.shown

/-- Whether a scalar has a text: a whole number must not have too many digits. -/
def isShowable : Scalar → Bool
  | int n => n.natAbs < Nat.pow 10 digitLimit
  | _ => true

/-- The whole number a scalar is equal to. Truth values count as 0 and 1. -/
def whole? : Scalar → Option Int
  | bool b => some (if b then 1 else 0)
  | int n => some n
  | float bits => Text.Decimal.whole? bits
  | _ => none

def isNaN : Scalar → Bool
  | float bits => Text.Decimal.exponentOf bits == 2047 && Text.Decimal.fractionOf bits != 0
  | _ => false

def sameKey (a b : Scalar) : Bool :=
  match a.whole?, b.whole? with
  | some m, some n => m == n
  | none, none => a == b && !a.isNaN
  | _, _ => false

end Scalar

/-- Puts a value under a key; a key that is there keeps its place and its first form. -/
def insertEntry {α : Type} (key : Scalar) (value : α) :
    List (Scalar × α) → List (Scalar × α)
  | [] => [(key, value)]
  | (k, v) :: rest =>
    if k.sameKey key then (k, value) :: rest else (k, v) :: insertEntry key value rest

def lookup? (name : String) (entries : List (Scalar × Value)) : Option Value :=
  (entries.find? (·.1 == .text name)).map (·.2)

def Value.text? : Value → Option String
  | .scalar (.text s) => some s
  | _ => none

end CategoryAudit.Yaml
