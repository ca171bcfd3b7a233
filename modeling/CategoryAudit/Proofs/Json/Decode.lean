import Mathlib
import CategoryAudit.Json

/-!
# Reading JSON

`Spells` is the grammar of JSON with the value that a text denotes, and `decode` reads texts. It
gives a value exactly if the grammar does (`decode_eq_some_iff`), so no text denotes two values.
Numbers denote rationals. Half of a surrogate pair by itself denotes no character.
-/

namespace CategoryAudit.Json

/-- What a JSON text denotes. Fields stand in the order of the text. -/
inductive Value where
  | null
  | bool (b : Bool)
  | number (q : ℚ)
  | string (s : String)
  | array (items : List Value)
  | object (fields : List (String × Value))
  deriving Repr, Inhabited

-- ---------------------------------------------------------------------------
-- The grammar
-- ---------------------------------------------------------------------------

def isBlank (c : Char) : Bool := c == ' ' || c == '\t' || c == '\n' || c == '\r'

def Blanks (cs : List Char) : Prop := ∀ c ∈ cs, isBlank c = true

def IsDigits (ds : List Char) : Prop := ds ≠ [] ∧ ∀ d ∈ ds, d.isDigit = true

def decimal (ds : List Char) : ℕ := Nat.ofDigitChars 10 ds 0

inductive Fraction : ℚ → List Char → Prop
  | absent : Fraction 0 []
  | digits : IsDigits ds → Fraction (decimal ds / 10 ^ ds.length) ('.' :: ds)

inductive Exponent : ℤ → List Char → Prop
  | absent : Exponent 0 []
  | unsigned : e = 'e' ∨ e = 'E' → IsDigits ds → Exponent (decimal ds) (e :: ds)
  | positive : e = 'e' ∨ e = 'E' → IsDigits ds → Exponent (decimal ds) (e :: '+' :: ds)
  | negative : e = 'e' ∨ e = 'E' → IsDigits ds → Exponent (-decimal ds) (e :: '-' :: ds)

/-- A number without its sign. A zero in front stands alone. -/
inductive Magnitude : ℚ → List Char → Prop
  | mk : IsDigits ds → (ds.head? = some '0' → ds = ['0']) → Fraction part cs →
      Exponent e cs' → Magnitude ((decimal ds + part) * 10 ^ e) (ds ++ (cs ++ cs'))

inductive Numeral : ℚ → List Char → Prop
  | positive : Magnitude q cs → Numeral q cs
  | negative : Magnitude q cs → Numeral (-q) ('-' :: cs)

def hexDigit? (c : Char) : Option ℕ :=
  if c.isDigit then some (c.toNat - '0'.toNat)
  else if 'a' ≤ c ∧ c ≤ 'f' then some (c.toNat - 'a'.toNat + 10)
  else if 'A' ≤ c ∧ c ≤ 'F' then some (c.toNat - 'A'.toNat + 10)
  else none

/-- The number that hexadecimal digits stand for, after the digits for `n`. -/
def hexadecimal? (n : ℕ) : List Char → Option ℕ
  | [] => some n
  | c :: cs => (hexDigit? c).bind fun d => hexadecimal? (16 * n + d) cs

def SpellsUnit (n : ℕ) (cs : List Char) : Prop := cs.length = 4 ∧ hexadecimal? 0 cs = some n

def escapes : List (Char × Char) :=
  [('\x22', '\x22'), ('\\', '\\'), ('/', '/'), ('b', '\x08'), ('f', '\x0c'), ('n', '\n'),
    ('r', '\r'), ('t', '\t')]

inductive SpellsChar : Char → List Char → Prop
  | plain : 32 ≤ c.toNat → c ≠ '\x22' → c ≠ '\\' → SpellsChar c [c]
  | escape : escapes.lookup key = some c → SpellsChar c ['\\', key]
  | unit : SpellsUnit n cs → n.isValidChar → SpellsChar (Char.ofNat n) ('\\' :: 'u' :: cs)
  | pair : SpellsUnit (0xd800 + high) cs → SpellsUnit (0xdc00 + low) cs' → high < 1024 →
      low < 1024 → SpellsChar (Char.ofNat (0x10000 + 1024 * high + low))
        ('\\' :: 'u' :: (cs ++ '\\' :: 'u' :: cs'))

inductive SpellsChars : List Char → List Char → Prop
  | close : SpellsChars [] ['\x22']
  | more : SpellsChar c cs → SpellsChars s rest → SpellsChars (c :: s) (cs ++ rest)

inductive Quoted : String → List Char → Prop
  | mk : SpellsChars s cs → Quoted (String.ofList s) ('\x22' :: cs)

section
variable {α : Type}

inductive Padded (S : α → List Char → Prop) : α → List Char → Prop
  | mk : Blanks before → S a cs → Blanks after → Padded S a (before ++ (cs ++ after))

/-- One or more items between commas, and what closes them. -/
inductive Items (S : α → List Char → Prop) (close : Char) : List α → List Char → Prop
  | last : S a cs → Items S close [a] (cs ++ [close])
  | more : S a cs → Items S close items rest → Items S close (a :: items) (cs ++ ',' :: rest)

inductive Group (S : α → List Char → Prop) (close : Char) : List α → List Char → Prop
  | empty : Blanks cs → Group S close [] (cs ++ [close])
  | items : Items S close items cs → Group S close items cs

inductive Field (S : α → List Char → Prop) : String × α → List Char → Prop
  | mk : Padded Quoted key cs → Padded S v cs' → Field S (key, v) (cs ++ ':' :: cs')

end

/-- The texts of a value, without blanks around it. -/
inductive Spells : Value → List Char → Prop
  | null : Spells .null ['n', 'u', 'l', 'l']
  | true : Spells (.bool true) ['t', 'r', 'u', 'e']
  | false : Spells (.bool false) ['f', 'a', 'l', 's', 'e']
  | number : Numeral q cs → Spells (.number q) cs
  | string : Quoted s cs → Spells (.string s) cs
  | array : Group (Padded Spells) ']' items cs → Spells (.array items) ('[' :: cs)
  | object : Group (Field Spells) '\x7d' fields cs → Spells (.object fields) ('\x7b' :: cs)

-- ---------------------------------------------------------------------------
-- The decoder
-- ---------------------------------------------------------------------------

abbrev Reader (α : Type) := List Char → Option (α × List Char)

def digits? (ds : List Char) : Option ℕ :=
  if ds ≠ [] ∧ ds.all Char.isDigit then some (decimal ds) else none

def exponent? : List Char → Option ℤ
  | [] => some 0
  | e :: cs =>
    if e = 'e' ∨ e = 'E' then
      match cs with
      | '+' :: ds => (digits? ds).map fun n : ℕ => (n : ℤ)
      | '-' :: ds => (digits? ds).map fun n : ℕ => -(n : ℤ)
      | ds => (digits? ds).map fun n : ℕ => (n : ℤ)
    else none

def readFraction : Reader ℚ
  | '.' :: cs =>
    let ds := cs.takeWhile Char.isDigit
    (digits? ds).map fun n : ℕ => ((n : ℚ) / 10 ^ ds.length, cs.dropWhile Char.isDigit)
  | cs => some (0, cs)

def whole? (ds : List Char) : Option ℕ :=
  if ds.head? = some '0' ∧ ds ≠ ['0'] then none else digits? ds

def magnitude? (cs : List Char) : Option ℚ := do
  let n ← whole? (cs.takeWhile Char.isDigit)
  let (part, rest) ← readFraction (cs.dropWhile Char.isDigit)
  let e ← exponent? rest
  return (n + part) * 10 ^ e

def numeral? : List Char → Option ℚ
  | '-' :: cs => (magnitude? cs).map (- ·)
  | cs => magnitude? cs

def isAtomic (c : Char) : Bool := c.isAlphanum || c == '+' || c == '-' || c == '.'

def atom? (cs : List Char) : Option Value :=
  if cs = ['n', 'u', 'l', 'l'] then some .null
  else if cs = ['t', 'r', 'u', 'e'] then some (.bool true)
  else if cs = ['f', 'a', 'l', 's', 'e'] then some (.bool false)
  else (numeral? cs).map .number

def readAtom : Reader Value := fun cs =>
  (atom? (cs.takeWhile isAtomic)).map (·, cs.dropWhile isAtomic)

def readUnit : Reader ℕ := fun cs =>
  if 4 ≤ cs.length then (hexadecimal? 0 (cs.take 4)).map (·, cs.drop 4) else none

/-- The second unit of a surrogate pair whose first unit is `n`. -/
def readSecond (n : ℕ) : Reader Char
  | '\\' :: 'u' :: cs =>
    match readUnit cs with
    | some (m, rest) =>
      if n < 0xdc00 ∧ 0xdc00 ≤ m ∧ m < 0xe000 then
        some (Char.ofNat (0x10000 + 1024 * (n - 0xd800) + (m - 0xdc00)), rest)
      else none
    | none => none
  | _ => none

def readEscape : Reader Char
  | 'u' :: cs =>
    match readUnit cs with
    | some (n, rest) => if n.isValidChar then some (Char.ofNat n, rest) else readSecond n rest
    | none => none
  | key :: cs => (escapes.lookup key).map (·, cs)
  | [] => none

def readChar : Reader Char
  | '\\' :: cs => readEscape cs
  | c :: cs => if 32 ≤ c.toNat ∧ c ≠ '\x22' then some (c, cs) else none
  | [] => none

def readChars : ℕ → Reader (List Char)
  | 0, _ => none
  | _, [] => none
  | fuel + 1, c :: cs =>
    if c = '\x22' then some ([], cs)
    else do
      let (first, rest) ← readChar (c :: cs)
      let (more, rest) ← readChars fuel rest
      return (first :: more, rest)

def readQuoted : Reader String
  | '\x22' :: cs => (readChars cs.length cs).map fun (s, rest) => (String.ofList s, rest)
  | _ => none

def skip (cs : List Char) : List Char := cs.dropWhile isBlank

section
variable {α : Type}

def readPadded (read : Reader α) : Reader α := fun cs =>
  (read (skip cs)).map fun (a, rest) => (a, skip rest)

def readItems (read : Reader α) (close : Char) : ℕ → Reader (List α)
  | 0, _ => none
  | fuel + 1, cs =>
    match read cs with
    | some (a, c :: rest) =>
      if c = ',' then (readItems read close fuel rest).map fun (items, rest) => (a :: items, rest)
      else if c = close then some ([a], rest)
      else none
    | _ => none

def readGroup (read : Reader α) (close : Char) : Reader (List α) := fun cs =>
  match skip cs with
  | [] => none
  | c :: rest => if c = close then some ([], rest) else readItems read close cs.length cs

def readField (read : Reader α) : Reader (String × α) := fun cs =>
  match readPadded readQuoted cs with
  | some (key, ':' :: rest) => (readPadded read rest).map fun (v, rest) => ((key, v), rest)
  | _ => none

end

def readValue : ℕ → Reader Value
  | 0, _ => none
  | fuel + 1, cs =>
    match cs with
    | '[' :: rest =>
      (readGroup (readPadded (readValue fuel)) ']' rest).map fun (items, rest) =>
        (.array items, rest)
    | '\x7b' :: rest =>
      (readGroup (readField (readValue fuel)) '\x7d' rest).map fun (fields, rest) =>
        (.object fields, rest)
    | '\x22' :: _ => (readQuoted cs).map fun (s, rest) => (.string s, rest)
    | _ => readAtom cs

def decode (text : String) : Option Value :=
  match readPadded (readValue text.length) text.toList with
  | some (v, []) => some v
  | _ => none

-- ---------------------------------------------------------------------------
-- Numbers
-- ---------------------------------------------------------------------------

theorem digits?_eq_some_iff : digits? ds = some n ↔ IsDigits ds ∧ n = decimal ds := by
  simp only [digits?, IsDigits, List.all_eq_true, Option.ite_none_right_eq_some, Option.some.injEq,
    eq_comm (a := n)]

theorem exponent?_sound (h : exponent? cs = some e) : Exponent e cs := by
  unfold exponent? at h
  split at h
  · cases h
    exact .absent
  · split at h
    · rename_i he
      split at h <;> obtain ⟨n, hn, rfl⟩ := Option.map_eq_some_iff.mp h <;>
        obtain ⟨hds, rfl⟩ := digits?_eq_some_iff.mp hn
      · exact .positive he hds
      · exact .negative he hds
      · exact .unsigned he hds
    · cases h

theorem exponent?_complete (h : Exponent e cs) : exponent? cs = some e := by
  have hdigits {ds : List Char} (h : IsDigits ds) : digits? ds = some (decimal ds) :=
    digits?_eq_some_iff.mpr ⟨h, rfl⟩
  cases h with
  | absent => rfl
  | positive he hds => simp [exponent?, he, hdigits hds]
  | negative he hds => simp [exponent?, he, hdigits hds]
  | @unsigned _ ds he hds =>
    rw [exponent?, if_pos he, hdigits hds, Option.map_some] <;> rintro ds rfl <;>
      simp [IsDigits] at hds

theorem takeWhile_digits (h : IsDigits ds) (hrest : ∀ c ∈ rest.head?, c.isDigit = false) :
    (ds ++ rest).takeWhile Char.isDigit = ds ∧ (ds ++ rest).dropWhile Char.isDigit = rest := by
  rw [List.takeWhile_append_of_pos h.2, List.dropWhile_append_of_pos h.2]
  cases rest with
  | nil => simp
  | cons c cs => simp [hrest c rfl]

theorem Exponent.head (h : Exponent e cs) : ∀ c ∈ cs.head?, c.isDigit = false ∧ c ≠ '.' := by
  have hmark {c : Char} (h : c = 'e' ∨ c = 'E') : c.isDigit = false ∧ c ≠ '.' := by
    rcases h with rfl | rfl <;> decide
  cases h with
  | absent => nofun
  | unsigned he _ | positive he _ | negative he _ =>
    rintro c ⟨⟩
    exact hmark he

theorem readFraction_sound (h : readFraction cs = some (part, rest)) :
    ∃ text, cs = text ++ rest ∧ Fraction part text := by
  unfold readFraction at h
  split at h
  · rename_i cs
    obtain ⟨n, hn, heq⟩ := Option.map_eq_some_iff.mp h
    obtain ⟨hds, rfl⟩ := digits?_eq_some_iff.mp hn
    cases heq
    exact ⟨_, by simp, .digits hds⟩
  · cases h
    exact ⟨[], rfl, .absent⟩

theorem readFraction_complete (h : Fraction part text) (he : Exponent e rest) :
    readFraction (text ++ rest) = some (part, rest) := by
  cases h with
  | absent =>
    rw [List.nil_append, readFraction]
    rintro cs rfl
    exact (he.head '.' rfl).2 rfl
  | digits hds =>
    obtain ⟨htake, hdrop⟩ := takeWhile_digits hds fun c hc => (he.head c hc).1
    simp only [List.cons_append, readFraction, htake, hdrop, digits?_eq_some_iff.mpr ⟨hds, rfl⟩,
      Option.map_some]

theorem whole?_eq_some_iff : whole? ds = some n ↔
    (IsDigits ds ∧ (ds.head? = some '0' → ds = ['0'])) ∧ n = decimal ds := by
  rw [whole?, Option.ite_none_left_eq_some, digits?_eq_some_iff, not_and_not_right]
  tauto

theorem magnitude?_sound (h : magnitude? cs = some q) : Magnitude q cs := by
  simp only [magnitude?, Option.bind_eq_bind, Option.bind_eq_some_iff] at h
  obtain ⟨n, hn, ⟨part, rest⟩, hpart, e, he, hq⟩ := h
  cases hq
  obtain ⟨⟨hds, hlead⟩, rfl⟩ := whole?_eq_some_iff.mp hn
  obtain ⟨text, htext, hfraction⟩ := readFraction_sound hpart
  have hmagnitude := Magnitude.mk hds hlead hfraction (exponent?_sound he)
  rwa [← htext, List.takeWhile_append_dropWhile] at hmagnitude

theorem magnitude?_complete (h : Magnitude q cs) : magnitude? cs = some q := by
  cases h with
  | @mk ds part text e rest hds hlead hpart he =>
    have hhead : ∀ c ∈ (text ++ rest).head?, c.isDigit = false := by
      cases hpart with
      | absent => exact fun c hc => (he.head c hc).1
      | digits _ => rintro c ⟨⟩; decide
    obtain ⟨htake, hdrop⟩ := takeWhile_digits hds hhead
    simp only [magnitude?, htake, hdrop, whole?_eq_some_iff.mpr ⟨⟨hds, hlead⟩, rfl⟩,
      readFraction_complete hpart he, exponent?_complete he, Option.bind_eq_bind, Option.bind_some]
    rfl

theorem Magnitude.head (h : Magnitude q cs) : ∃ c rest, cs = c :: rest ∧ c.isDigit = true := by
  cases h with
  | @mk ds _ _ _ _ hds _ _ _ =>
    obtain ⟨c, rest, rfl⟩ := List.exists_cons_of_ne_nil hds.1
    exact ⟨c, _, List.cons_append, hds.2 c (by simp)⟩

theorem numeral?_eq_some_iff : numeral? cs = some q ↔ Numeral q cs := by
  constructor
  · intro h
    unfold numeral? at h
    split at h
    · obtain ⟨q, hq, rfl⟩ := Option.map_eq_some_iff.mp h
      exact .negative (magnitude?_sound hq)
    · exact .positive (magnitude?_sound h)
  · intro h
    cases h with
    | positive h =>
      rw [numeral?, magnitude?_complete h]
      rintro cs rfl
      obtain ⟨c, rest, heq, hc⟩ := h.head
      cases heq
      simp at hc
    | negative h => rw [numeral?, magnitude?_complete h, Option.map_some]

-- ---------------------------------------------------------------------------
-- Readers
-- ---------------------------------------------------------------------------

section
variable {α β : Type} {S : α → List Char → Prop} {read : Reader α}

def Sound (read : Reader α) (S : α → List Char → Prop) : Prop :=
  ∀ ⦃cs a rest⦄, read cs = some (a, rest) → ∃ text, cs = text ++ rest ∧ S a text

/-- A reader takes off every text of the grammar up to a length, before anything that may stand
behind it. -/
def Complete (size : ℕ) (read : Reader α) (S : α → List Char → Prop)
    (Behind : List Char → Prop) : Prop :=
  ∀ ⦃a text⦄, S a text → text.length ≤ size → ∀ rest, Behind rest →
    read (text ++ rest) = some (a, rest)

/-- Characters before which numbers and names end. -/
def Apart (rest : List Char) : Prop := ∀ c ∈ rest.head?, isAtomic c = false

def isMark (c : Char) : Bool := c == ',' || c == ':' || c == ']' || c == '\x7d'

/-- Characters before which a value and the blanks around it end. -/
def Marked (rest : List Char) : Prop := ∀ c ∈ rest.head?, isMark c = true

def Opens (S : α → List Char → Prop) : Prop :=
  ∀ ⦃a text⦄, S a text → ∃ c rest, text = c :: rest ∧ isBlank c = false ∧ isMark c = false

theorem blank_not_atomic (h : isBlank c = true) : isAtomic c = false := by
  simp only [isBlank, Bool.or_eq_true, beq_iff_eq] at h
  rcases h with ((rfl | rfl) | rfl) | rfl <;> decide

theorem mark_not_atomic (h : isMark c = true) : isAtomic c = false := by
  simp only [isMark, Bool.or_eq_true, beq_iff_eq] at h
  rcases h with ((rfl | rfl) | rfl) | rfl <;> decide

theorem mark_not_blank (h : isMark c = true) : isBlank c = false := by
  simp only [isMark, Bool.or_eq_true, beq_iff_eq] at h
  rcases h with ((rfl | rfl) | rfl) | rfl <;> decide

theorem skip_blanks (h : Blanks cs) (rest : List Char) : skip (cs ++ rest) = skip rest :=
  List.dropWhile_append_of_pos h

theorem skip_cons (h : isBlank c = false) (rest : List Char) : skip (c :: rest) = c :: rest := by
  rw [skip, List.dropWhile_cons_of_neg (by simp [h])]

theorem Marked.skip (h : Marked rest) : skip rest = rest := by
  cases rest with
  | nil => rfl
  | cons c rest => exact skip_cons (mark_not_blank (h c rfl)) rest

theorem exists_blanks (cs : List Char) : ∃ front, Blanks front ∧ cs = front ++ skip cs :=
  ⟨cs.takeWhile isBlank, fun _ hc => List.mem_takeWhile_imp hc,
    List.takeWhile_append_dropWhile.symm⟩

theorem Sound.padded (h : Sound read S) : Sound (readPadded read) (Padded S) := by
  intro cs a rest hread
  obtain ⟨⟨a, rest⟩, hone, heq⟩ := Option.map_eq_some_iff.mp hread
  cases heq
  obtain ⟨before, hbefore, hcs⟩ := exists_blanks cs
  obtain ⟨after, hafter, hrest⟩ := exists_blanks rest
  obtain ⟨text, hskip, htext⟩ := h hone
  refine ⟨before ++ (text ++ after), ?_, .mk hbefore htext hafter⟩
  rw [List.append_assoc, List.append_assoc, ← hrest, ← hskip, ← hcs]

theorem Complete.padded (h : Complete size read S Apart) (hopens : Opens S) :
    Complete size (readPadded read) (Padded S) Marked := by
  rintro a _ ⟨hbefore, htext, hafter⟩ hsize rest hmarked
  rename_i before text after
  have hapart : Apart (after ++ rest) := by
    cases after with
    | nil => exact fun c hc => mark_not_atomic (hmarked c hc)
    | cons d after =>
      rintro _ ⟨⟩
      exact blank_not_atomic (hafter d (by simp))
  have hskip : skip (before ++ (text ++ after) ++ rest) = text ++ (after ++ rest) := by
    obtain ⟨c, text, rfl, hc, -⟩ := hopens htext
    rw [List.append_assoc, skip_blanks hbefore, List.append_assoc, List.cons_append, skip_cons hc]
  have hlength : text.length ≤ size := by
    simp only [List.length_append] at hsize
    omega
  have hrest : skip (after ++ rest) = rest := by rw [skip_blanks hafter, hmarked.skip]
  rw [readPadded, hskip, h htext hlength _ hapart]
  simp [hrest]

theorem readItems_sound (h : Sound read S) (close : Char) (fuel : ℕ) :
    Sound (readItems read close fuel) (Items S close) := by
  induction fuel with
  | zero => nofun
  | succ fuel ih =>
    intro cs items rest hread
    rw [readItems] at hread
    split at hread
    · rename_i a c more hone
      obtain ⟨text, rfl, htext⟩ := h hone
      split at hread
      · rename_i hcomma
        obtain ⟨⟨items, rest⟩, hmore, heq⟩ := Option.map_eq_some_iff.mp hread
        cases heq
        obtain ⟨others, rfl, hitems⟩ := ih hmore
        exact ⟨text ++ ',' :: others, by simp [hcomma], .more htext hitems⟩
      · split at hread
        · rename_i hclose
          cases hread
          exact ⟨text ++ [close], by simp [hclose], .last htext⟩
        · cases hread
    · cases hread

theorem readItems_complete (h : Complete size read S Marked) (hclose : isMark close = true)
    (hcomma : close ≠ ',') (hitems : Items S close items text) (hsize : text.length ≤ size)
    (hfuel : text.length ≤ fuel) (rest : List Char) :
    readItems read close fuel (text ++ rest) = some (items, rest) := by
  induction hitems generalizing fuel with
  | @last a cs ha =>
    simp only [List.length_append, List.length_singleton] at hsize hfuel
    obtain ⟨fuel, rfl⟩ := Nat.exists_eq_add_one_of_ne_zero (n := fuel) (by omega)
    have hbehind : Marked (close :: rest) := by
      rintro c ⟨⟩
      exact hclose
    have hone := h ha (by omega) _ hbehind
    rw [List.append_assoc, List.singleton_append, readItems, hone]
    simp [hcomma]
  | @more a cs items others ha _ ih =>
    simp only [List.length_append, List.length_cons] at hsize hfuel
    obtain ⟨fuel, rfl⟩ := Nat.exists_eq_add_one_of_ne_zero (n := fuel) (by omega)
    have hbehind : Marked (',' :: (others ++ rest)) := by
      rintro c ⟨⟩
      rfl
    have hone := h ha (by omega) _ hbehind
    have hmore : readItems read close fuel (others ++ rest) = some (items, rest) :=
      ih (by omega) (by omega)
    rw [List.append_assoc, List.cons_append, readItems, hone]
    simp [hmore]

theorem Sound.group (h : Sound read S) (close : Char) :
    Sound (readGroup read close) (Group S close) := by
  intro cs items rest hread
  unfold readGroup at hread
  split at hread
  · cases hread
  · rename_i c more hskip
    split at hread
    · rename_i hc
      cases hread
      obtain ⟨front, hfront, hcs⟩ := exists_blanks cs
      refine ⟨front ++ [close], ?_, .empty hfront⟩
      rw [hcs, hskip, hc, List.append_assoc, List.singleton_append]
    · obtain ⟨text, hcs, hitems⟩ := readItems_sound h close _ hread
      exact ⟨text, hcs, .items hitems⟩

/-- Behind blanks, the texts of a grammar begin with no mark. -/
def OpensLate (S : α → List Char → Prop) : Prop :=
  ∀ ⦃a text⦄, S a text → ∀ rest, ∃ c more, skip (text ++ rest) = c :: more ∧ isMark c = false

theorem Opens.padded (h : Opens S) : OpensLate (Padded S) := by
  rintro a _ ⟨hbefore, htext, -⟩ rest
  obtain ⟨c, more, rfl, hc, hmark⟩ := h htext
  rw [List.append_assoc, skip_blanks hbefore]
  exact ⟨c, _, skip_cons hc _, hmark⟩

theorem OpensLate.items (h : OpensLate S) (close : Char) : OpensLate (Items S close) := by
  intro items text hitems rest
  cases hitems with
  | last ha | more ha _ =>
    rw [List.append_assoc]
    exact h ha _

theorem Complete.group (h : Complete size read S Marked) (hopens : OpensLate S) (close : Char)
    (hclose : isMark close = true) (hcomma : close ≠ ',') :
    Complete size (readGroup read close) (Group S close) fun _ => True := by
  intro items text hgroup hsize rest _
  cases hgroup with
  | @empty front hfront =>
    have hskip : skip (front ++ [close] ++ rest) = close :: rest := by
      rw [List.append_assoc, skip_blanks hfront]
      exact skip_cons (mark_not_blank hclose) rest
    rw [readGroup, hskip]
    simp
  | items hitems =>
    have hread : readItems read close (text ++ rest).length (text ++ rest) = some (items, rest) :=
      readItems_complete h hclose hcomma hitems hsize (by simp) rest
    obtain ⟨c, more, hskip, hmark⟩ := hopens.items close hitems rest
    have hne : c ≠ close := by
      rintro rfl
      rw [hclose] at hmark
      cases hmark
    rw [readGroup, hread, hskip]
    simp [hne]

theorem Sound.field (h : Sound read S) (hkey : Sound readQuoted Quoted) :
    Sound (readField read) (Field S) := by
  intro cs field rest hread
  unfold readField at hread
  split at hread
  · rename_i key more hfirst
    obtain ⟨⟨v, rest⟩, hsecond, heq⟩ := Option.map_eq_some_iff.mp hread
    cases heq
    obtain ⟨text, rfl, htext⟩ := hkey.padded hfirst
    obtain ⟨text', rfl, htext'⟩ := h.padded hsecond
    exact ⟨text ++ ':' :: text', by simp, .mk htext htext'⟩
  · cases hread

theorem Complete.field (h : Complete size read S Apart) (hopens : Opens S)
    (hkey : Complete size readQuoted Quoted fun _ => True) (hquote : Opens Quoted) :
    Complete size (readField read) (Field S) Marked := by
  rintro _ _ ⟨htext, htext'⟩ hsize rest hmarked
  rename_i key text v text'
  simp only [List.length_append, List.length_cons] at hsize
  have hbehind : Marked (':' :: (text' ++ rest)) := by
    rintro _ ⟨⟩
    rfl
  have hkey' : Complete size readQuoted Quoted Apart :=
    fun _ _ hs hl rest _ => hkey hs hl rest trivial
  have hfirst := hkey'.padded hquote htext (by omega) _ hbehind
  have hsecond := h.padded hopens htext' (by omega) rest hmarked
  rw [readField, List.append_assoc, List.cons_append, hfirst]
  simp [hsecond]

theorem Opens.field (hquote : Opens Quoted) : OpensLate (Field S) := by
  rintro _ _ ⟨htext, -⟩ rest
  rw [List.append_assoc]
  exact hquote.padded htext _

end

-- ---------------------------------------------------------------------------
-- Strings
-- ---------------------------------------------------------------------------

theorem readUnit_sound : Sound readUnit SpellsUnit := by
  intro cs n rest h
  unfold readUnit at h
  split at h
  · rename_i hlength
    obtain ⟨m, hm, heq⟩ := Option.map_eq_some_iff.mp h
    cases heq
    exact ⟨cs.take 4, (List.take_append_drop 4 cs).symm, by simpa using hlength, hm⟩
  · cases h

theorem readUnit_complete (h : SpellsUnit n text) (rest : List Char) :
    readUnit (text ++ rest) = some (n, rest) := by
  obtain ⟨hlength, hn⟩ := h
  have htake : (text ++ rest).take 4 = text := by rw [← hlength, List.take_left]
  have hdrop : (text ++ rest).drop 4 = rest := by rw [← hlength, List.drop_left]
  rw [readUnit, if_pos (by simp [hlength]), htake, hdrop, hn, Option.map_some]

theorem readSecond_sound (hfirst : SpellsUnit n first) (hn : ¬ n.isValidChar)
    (h : readSecond n cs = some (c, rest)) :
    ∃ text, cs = text ++ rest ∧ SpellsChar c ('\\' :: 'u' :: (first ++ text)) := by
  simp only [Nat.isValidChar] at hn
  unfold readSecond at h
  split at h
  · split at h
    · rename_i m more hm
      split at h
      · rename_i hrange
        obtain ⟨text, rfl, htext⟩ := readUnit_sound hm
        obtain ⟨rfl, rfl⟩ := Prod.mk.inj (Option.some.inj h)
        refine ⟨'\\' :: 'u' :: text, rfl, .pair ?_ ?_ ?_ ?_⟩
        · rwa [Nat.add_sub_cancel' (by omega)]
        · rwa [Nat.add_sub_cancel' (by omega)]
        · omega
        · omega
      · cases h
    · cases h
  · cases h

theorem readEscape_sound (h : readEscape cs = some (c, rest)) :
    ∃ text, cs = text ++ rest ∧ SpellsChar c ('\\' :: text) := by
  unfold readEscape at h
  split at h
  · split at h
    · rename_i n more hn
      obtain ⟨text, rfl, htext⟩ := readUnit_sound hn
      split at h
      · rename_i hvalid
        cases h
        exact ⟨'u' :: text, rfl, .unit htext hvalid⟩
      · rename_i hvalid
        obtain ⟨text', rfl, hchar⟩ := readSecond_sound htext hvalid h
        exact ⟨'u' :: (text ++ text'), by simp, hchar⟩
    · cases h
  · rename_i key cs _
    obtain ⟨c, hc, heq⟩ := Option.map_eq_some_iff.mp h
    cases heq
    exact ⟨[key], rfl, .escape hc⟩
  · cases h

theorem readChar_sound : Sound readChar SpellsChar := by
  intro cs c rest h
  unfold readChar at h
  split at h
  · obtain ⟨text, rfl, htext⟩ := readEscape_sound h
    exact ⟨_, rfl, htext⟩
  · rename_i c cs hne
    split at h
    · rename_i hplain
      cases h
      refine ⟨[c], rfl, .plain hplain.1 hplain.2 ?_⟩
      exact hne
    · cases h
  · cases h

theorem readChar_complete (h : SpellsChar c text) (rest : List Char) :
    readChar (text ++ rest) = some (c, rest) := by
  cases h with
  | plain hc hquote hback =>
    rw [List.singleton_append, readChar, if_pos ⟨hc, hquote⟩]
    exact hback
  | @escape key c hkey =>
    rw [List.cons_append, readChar, List.singleton_append, readEscape, hkey, Option.map_some]
    rintro rfl
    cases hkey
  | unit htext hvalid =>
    rw [List.cons_append, readChar, List.cons_append, readEscape, readUnit_complete htext]
    simp [hvalid]
  | @pair high _ low _ htext htext' hhigh hlow =>
    have hinvalid : ¬ (0xd800 + high).isValidChar := by
      simp only [Nat.isValidChar]
      omega
    simp only [List.cons_append, List.append_assoc, readChar, readEscape, readSecond,
      readUnit_complete htext, readUnit_complete htext']
    rw [if_neg hinvalid, if_pos (by omega), Nat.add_sub_cancel_left, Nat.add_sub_cancel_left]

theorem SpellsChar.head (h : SpellsChar c text) : ∃ d rest, text = d :: rest ∧ d ≠ '\x22' := by
  cases h with
  | plain _ hquote _ => exact ⟨_, _, rfl, hquote⟩
  | escape _ | unit _ _ | pair _ _ _ _ => exact ⟨_, _, rfl, by decide⟩

theorem readChars_sound (fuel : ℕ) : Sound (readChars fuel) SpellsChars := by
  induction fuel with
  | zero => nofun
  | succ fuel ih =>
    intro cs s rest h
    unfold readChars at h
    split at h
    · cases h
    · cases h
    · rename_i c cs heq
      cases heq
      split at h
      · rename_i hquote
        cases h
        exact ⟨['\x22'], by rw [hquote]; rfl, .close⟩
      · simp only [Option.bind_eq_bind, Option.bind_eq_some_iff] at h
        obtain ⟨⟨first, more⟩, hfirst, ⟨s, rest⟩, hmore, h⟩ := h
        cases h
        obtain ⟨text, htext, hchar⟩ := readChar_sound hfirst
        obtain ⟨text', rfl, hchars⟩ := ih hmore
        exact ⟨text ++ text', by rw [htext, List.append_assoc], .more hchar hchars⟩

theorem readChars_complete (h : SpellsChars s text) (hfuel : text.length ≤ fuel)
    (rest : List Char) : readChars fuel (text ++ rest) = some (s, rest) := by
  induction h generalizing fuel with
  | close =>
    obtain ⟨fuel, rfl⟩ := Nat.exists_eq_add_one_of_ne_zero (n := fuel) (by simp at hfuel; omega)
    rfl
  | @more c text s text' hchar _ ih =>
    have hfirst := readChar_complete hchar (text' ++ rest)
    obtain ⟨d, tail, rfl, hquote⟩ := hchar.head
    simp only [List.length_append, List.length_cons] at hfuel
    obtain ⟨fuel, rfl⟩ := Nat.exists_eq_add_one_of_ne_zero (n := fuel) (by omega)
    have hmore : readChars fuel (text' ++ rest) = some (s, rest) := ih (by omega)
    rw [List.cons_append] at hfirst
    rw [List.append_assoc, List.cons_append, readChars, if_neg hquote, hfirst]
    simp [hmore]

theorem readQuoted_sound : Sound readQuoted Quoted := by
  intro cs s rest h
  unfold readQuoted at h
  split at h
  · obtain ⟨⟨s, rest⟩, hs, heq⟩ := Option.map_eq_some_iff.mp h
    cases heq
    obtain ⟨text, rfl, htext⟩ := readChars_sound _ hs
    exact ⟨_, rfl, .mk htext⟩
  · cases h

theorem readQuoted_complete (size : ℕ) : Complete size readQuoted Quoted fun _ => True := by
  rintro _ _ ⟨hchars⟩ _ rest _
  rw [List.cons_append, readQuoted, readChars_complete hchars (by simp), Option.map_some]

theorem opens_quoted : Opens Quoted := by
  rintro _ _ ⟨hchars⟩
  exact ⟨_, _, rfl, rfl, rfl⟩

-- ---------------------------------------------------------------------------
-- Values
-- ---------------------------------------------------------------------------

theorem digit_atomic (h : c.isDigit = true) : isAtomic c = true := by
  simp [isAtomic, Char.isAlphanum, h]

theorem IsDigits.atomic (h : IsDigits ds) : ∀ c ∈ ds, isAtomic c = true :=
  fun c hc => digit_atomic (h.2 c hc)

theorem Fraction.atomic (h : Fraction part cs) : ∀ c ∈ cs, isAtomic c = true := by
  cases h with
  | absent => nofun
  | digits hds => exact List.forall_mem_cons.mpr ⟨rfl, hds.atomic⟩

theorem Exponent.atomic (h : Exponent e cs) : ∀ c ∈ cs, isAtomic c = true := by
  have hmark {c : Char} (h : c = 'e' ∨ c = 'E') : isAtomic c = true := by
    rcases h with rfl | rfl <;> rfl
  cases h with
  | absent => nofun
  | unsigned he hds => exact List.forall_mem_cons.mpr ⟨hmark he, hds.atomic⟩
  | positive he hds | negative he hds =>
    exact List.forall_mem_cons.mpr ⟨hmark he, List.forall_mem_cons.mpr ⟨rfl, hds.atomic⟩⟩

theorem Magnitude.atomic (h : Magnitude q cs) : ∀ c ∈ cs, isAtomic c = true := by
  obtain ⟨hds, -, hpart, he⟩ := h
  simp only [List.forall_mem_append]
  exact ⟨hds.atomic, hpart.atomic, he.atomic⟩

theorem Numeral.atomic (h : Numeral q cs) : ∀ c ∈ cs, isAtomic c = true := by
  cases h with
  | positive h => exact h.atomic
  | negative h => exact List.forall_mem_cons.mpr ⟨rfl, h.atomic⟩

theorem Numeral.head (h : Numeral q cs) :
    ∃ c rest, cs = c :: rest ∧ (c.isDigit = true ∨ c = '-') := by
  cases h with
  | positive h =>
    obtain ⟨c, rest, rfl, hc⟩ := h.head
    exact ⟨c, rest, rfl, .inl hc⟩
  | negative h => exact ⟨_, _, rfl, .inr rfl⟩

theorem atom?_sound (h : atom? cs = some v) : Spells v cs := by
  unfold atom? at h
  split_ifs at h with hnull htrue hfalse
  · cases h
    exact hnull ▸ .null
  · cases h
    exact htrue ▸ .true
  · cases h
    exact hfalse ▸ .false
  · obtain ⟨q, hq, rfl⟩ := Option.map_eq_some_iff.mp h
    exact .number (numeral?_eq_some_iff.mp hq)

theorem atom?_numeral (h : Numeral q cs) : atom? cs = some (.number q) := by
  obtain ⟨c, rest, rfl, hc⟩ := h.head
  have hname : c ≠ 'n' ∧ c ≠ 't' ∧ c ≠ 'f' := by
    refine ⟨?_, ?_, ?_⟩ <;> rintro rfl <;> simp at hc
  simp [atom?, hname, numeral?_eq_some_iff.mpr h]

theorem readAtom_sound : Sound readAtom Spells := by
  intro cs v rest h
  obtain ⟨v, hv, heq⟩ := Option.map_eq_some_iff.mp h
  cases heq
  exact ⟨_, List.takeWhile_append_dropWhile.symm, atom?_sound hv⟩

theorem readAtom_complete (h : atom? text = some v) (hatomic : ∀ c ∈ text, isAtomic c = true)
    (hrest : Apart rest) : readAtom (text ++ rest) = some (v, rest) := by
  have hstop : rest.takeWhile isAtomic = [] ∧ rest.dropWhile isAtomic = rest := by
    cases rest with
    | nil => simp
    | cons c rest => simp [hrest c rfl]
  rw [readAtom, List.takeWhile_append_of_pos hatomic, List.dropWhile_append_of_pos hatomic,
    hstop.1, hstop.2, List.append_nil, h, Option.map_some]

theorem opens_spells : Opens Spells := by
  intro v text h
  cases h with
  | null | true | false | array _ | object _ => exact ⟨_, _, rfl, rfl, rfl⟩
  | string hquoted => exact opens_quoted hquoted
  | number hnumeral =>
    obtain ⟨c, rest, rfl, hc⟩ := hnumeral.head
    have hatomic : isAtomic c = true := hnumeral.atomic c (by simp)
    refine ⟨c, rest, rfl, ?_, ?_⟩
    · by_contra hblank
      simp [blank_not_atomic (eq_true_of_ne_false hblank)] at hatomic
    · by_contra hmark
      simp [mark_not_atomic (eq_true_of_ne_false hmark)] at hatomic

theorem readValue_atom (h : atom? (c :: cs) = some v)
    (hatomic : ∀ d ∈ c :: cs, isAtomic d = true) (hrest : Apart rest) (fuel : ℕ) :
    readValue (fuel + 1) (c :: cs ++ rest) = some (v, rest) := by
  have hc : isAtomic c = true := hatomic c (by simp)
  rw [← readAtom_complete h hatomic hrest, List.cons_append, readValue]
  all_goals
    rintro _ ⟨⟩
    revert hc
    decide

theorem readValue_sound (fuel : ℕ) : Sound (readValue fuel) Spells := by
  induction fuel with
  | zero => nofun
  | succ fuel ih =>
    intro cs v rest h
    unfold readValue at h
    split at h
    · obtain ⟨⟨items, rest⟩, hgroup, heq⟩ := Option.map_eq_some_iff.mp h
      cases heq
      obtain ⟨text, rfl, htext⟩ := ih.padded.group _ hgroup
      exact ⟨_, rfl, .array htext⟩
    · obtain ⟨⟨fields, rest⟩, hgroup, heq⟩ := Option.map_eq_some_iff.mp h
      cases heq
      obtain ⟨text, rfl, htext⟩ := (ih.field readQuoted_sound).group _ hgroup
      exact ⟨_, rfl, .object htext⟩
    · obtain ⟨⟨s, rest⟩, hquoted, heq⟩ := Option.map_eq_some_iff.mp h
      cases heq
      obtain ⟨text, htext, hs⟩ := readQuoted_sound hquoted
      exact ⟨text, htext, .string hs⟩
    · exact readAtom_sound h

theorem readValue_complete (fuel : ℕ) : Complete fuel (readValue fuel) Spells Apart := by
  induction fuel with
  | zero =>
    intro v text h hsize
    obtain ⟨c, more, rfl, -⟩ := opens_spells h
    simp at hsize
  | succ fuel ih =>
    intro v text h hsize rest hrest
    cases h with
    | null | true | false => exact readValue_atom rfl (by simp [isAtomic]) hrest fuel
    | number hnumeral =>
      obtain ⟨c, more, rfl, -⟩ := hnumeral.head
      exact readValue_atom (atom?_numeral hnumeral) hnumeral.atomic hrest fuel
    | string hquoted =>
      have hread := readQuoted_complete _ hquoted (Nat.le_refl _) rest trivial
      obtain ⟨hchars⟩ := hquoted
      rw [List.cons_append] at hread ⊢
      rw [readValue, hread, Option.map_some]
    | array hgroup =>
      have hread := (ih.padded opens_spells).group opens_spells.padded ']' rfl (by decide) hgroup
        (Nat.le_of_succ_le_succ hsize) rest trivial
      rw [List.cons_append, readValue, hread, Option.map_some]
    | object hgroup =>
      have hfields := ih.field opens_spells (readQuoted_complete fuel) opens_quoted
      have hread := hfields.group opens_quoted.field '\x7d' rfl (by decide) hgroup
        (Nat.le_of_succ_le_succ hsize) rest trivial
      rw [List.cons_append, readValue, hread, Option.map_some]

/-- Decoding gives a value exactly if the text spells it, with blanks around it. -/
theorem decode_eq_some_iff {text : String} :
    decode text = some v ↔ Padded Spells v text.toList := by
  constructor
  · intro h
    unfold decode at h
    split at h
    · rename_i hread
      cases h
      obtain ⟨all, hall, hspells⟩ := (readValue_sound _).padded hread
      rwa [hall, List.append_nil]
    · cases h
  · intro h
    have hread := (readValue_complete text.length).padded opens_spells h
      (Nat.le_of_eq String.length_toList) [] nofun
    rw [List.append_nil] at hread
    rw [decode, hread]

end CategoryAudit.Json
