import CategoryAudit.Proofs.Json.Decode
import CategoryAudit.Report

/-!
# Nothing is lost in JSON

The text of a JSON value spells that value, in ASCII. So the JSON form of a report can be decoded,
and different reports have different forms (`render_json_lossless`).
-/

namespace CategoryAudit

namespace Json

-- ---------------------------------------------------------------------------
-- Numbers and characters
-- ---------------------------------------------------------------------------

theorem hexDigit?_digitChar (h : d < 16) : hexDigit? d.digitChar = some d := by
  revert d
  decide

theorem hexadecimal?_append (n : ℕ) (xs ys : List Char) :
    hexadecimal? n (xs ++ ys) = (hexadecimal? n xs).bind (hexadecimal? · ys) := by
  induction xs generalizing n with
  | nil => rfl
  | cons c xs ih => simp only [List.cons_append, hexadecimal?, ih, Option.bind_assoc]

theorem hexadecimal?_toDigits (n : ℕ) : hexadecimal? 0 (Nat.toDigits 16 n) = some n := by
  induction n using Nat.strongRecOn with
  | ind n ih =>
    rw [Nat.toDigits_eq_if (by decide)]
    split
    · rename_i hn
      simp [hexadecimal?, hexDigit?_digitChar hn]
    · rename_i hn
      have hlast : hexDigit? (n % 16).digitChar = some (n % 16) :=
        hexDigit?_digitChar (Nat.mod_lt n (by decide))
      rw [hexadecimal?_append, ih (n / 16) (by omega), Option.bind_some, hexadecimal?, hlast,
        Option.bind_some, hexadecimal?, Nat.div_add_mod]

theorem hexadecimal?_zeros (k : ℕ) : hexadecimal? 0 (List.replicate k '0') = some 0 := by
  induction k with
  | zero => rfl
  | succ k ih => rw [List.replicate_succ, hexadecimal?, ← ih]; rfl

theorem spellsUnit_hex (h : n < 65536) : SpellsUnit n (Text.hex 4 n).toList := by
  have hlength : (Nat.toDigits 16 n).length ≤ 4 := Nat.toDigits_length 16 n 4 (by decide) h
  constructor
  · simp only [Text.hex, String.toList_ofList, List.length_append, List.length_replicate]
    omega
  · rw [Text.hex, String.toList_ofList, hexadecimal?_append, hexadecimal?_zeros, Option.bind_some,
      hexadecimal?_toDigits]

theorem toNat_isValidChar (c : Char) : c.toNat.isValidChar := c.valid

theorem toList_unit (n : ℕ) : (unit n).toList = '\\' :: 'u' :: (Text.hex 4 n).toList := by
  rw [unit, String.toList_append]
  rfl

/-- A character beyond the first 65536 is spelled by two units. -/
theorem spellsChar_pair (h : c.toNat = 0x10000 + n) :
    SpellsChar c (unit (0xd800 + n / 1024) ++ unit (0xdc00 + n % 1024)).toList := by
  have hmax : n < 1024 * 1024 := by
    have hvalid := toNat_isValidChar c
    rw [Nat.isValidChar] at hvalid
    omega
  have hhigh : SpellsUnit (0xd800 + n / 1024) _ := spellsUnit_hex (by omega)
  have hlow : SpellsUnit (0xdc00 + n % 1024) _ := spellsUnit_hex (by omega)
  have hcode : 0x10000 + 1024 * (n / 1024) + n % 1024 = c.toNat := by omega
  have hchar := SpellsChar.pair hhigh hlow (by omega) (by omega)
  rw [hcode, Char.ofNat_toNat] at hchar
  rwa [String.toList_append, toList_unit, toList_unit]

theorem spellsChar_unit (h : c.toNat < 65536) : SpellsChar c (unit c.toNat).toList := by
  have hchar := SpellsChar.unit (spellsUnit_hex h) (toNat_isValidChar c)
  rw [Char.ofNat_toNat] at hchar
  rwa [toList_unit]

/-- The ways to write a character between quotes. -/
inductive Escaped (c : Char) : String → Prop
  | key : escapes.lookup key = some c → Escaped c (String.ofList ['\\', key])
  | plain : 32 ≤ c.toNat → c.toNat ≤ 126 → c ≠ '\x22' → c ≠ '\\' → Escaped c (String.ofList [c])
  | unit : c.toNat < 65536 → Escaped c (unit c.toNat)
  | pair : c.toNat = 0x10000 + n →
      Escaped c (Json.unit (0xd800 + n / 1024) ++ Json.unit (0xdc00 + n % 1024))

theorem escaped_escapeChar (c : Char) : Escaped c (escapeChar c) := by
  have hkey {key : Char} (d : Char) (h : (c == d) = true) (hd : escapes.lookup key = some d) :
      Escaped c (String.ofList ['\\', key]) := .key (beq_iff_eq.mp h ▸ hd)
  unfold escapeChar
  by_cases hquote : (c == '\x22') = true
  · rw [if_pos hquote]
    exact hkey _ hquote rfl
  rw [if_neg hquote]
  by_cases hback : (c == '\\') = true
  · rw [if_pos hback]
    exact hkey _ hback rfl
  rw [if_neg hback]
  by_cases hfeed : (c == '\n') = true
  · rw [if_pos hfeed]
    exact hkey _ hfeed rfl
  rw [if_neg hfeed]
  by_cases hreturn : (c == '\r') = true
  · rw [if_pos hreturn]
    exact hkey _ hreturn rfl
  rw [if_neg hreturn]
  by_cases htab : (c == '\t') = true
  · rw [if_pos htab]
    exact hkey _ htab rfl
  rw [if_neg htab]
  by_cases hbackspace : (c == '\x08') = true
  · rw [if_pos hbackspace]
    exact hkey _ hbackspace rfl
  rw [if_neg hbackspace]
  by_cases hform : (c == '\x0c') = true
  · rw [if_pos hform]
    exact hkey _ hform rfl
  rw [if_neg hform]
  by_cases hplain : (32 ≤ c.toNat && c.toNat ≤ 126) = true
  · rw [if_pos hplain]
    simp only [Bool.and_eq_true, decide_eq_true_eq] at hplain
    exact .plain hplain.1 hplain.2 (by simpa using hquote) (by simpa using hback)
  rw [if_neg hplain]
  by_cases hunit : c.toNat < 65536
  · rw [if_pos hunit]
    exact .unit hunit
  · rw [if_neg hunit]
    exact .pair (by omega)

theorem Escaped.spells (h : Escaped c text) : SpellsChar c text.toList := by
  cases h with
  | key h =>
    rw [String.toList_ofList]
    exact .escape h
  | plain hlow _ hquote hback =>
    rw [String.toList_ofList]
    exact .plain hlow hquote hback
  | unit h => exact spellsChar_unit h
  | pair h => exact spellsChar_pair h

theorem quoted_quote (s : String) : Quoted s (quote s).toList := by
  have hchars (cs : List Char) :
      SpellsChars cs ((String.join (cs.map escapeChar)).toList ++ ['\x22']) := by
    induction cs with
    | nil => exact .close
    | cons c cs ih =>
      rw [List.map_cons, String.join_cons, String.toList_append, List.append_assoc]
      exact .more (escaped_escapeChar c).spells ih
  have hquoted := Quoted.mk (hchars s.toList)
  rw [String.ofList_toList] at hquoted
  simpa [quote] using hquoted

theorem toDigits_head (h : (Nat.toDigits 10 n).head? = some '0') : Nat.toDigits 10 n = ['0'] := by
  induction n using Nat.strongRecOn with
  | ind n ih =>
    rw [Nat.toDigits_eq_if (by decide)] at h ⊢
    split at h
    · rename_i hn
      rw [if_pos hn]
      simpa using h
    · rename_i hn
      rw [List.head?_append_of_ne_nil _ Nat.toDigits_ne_nil] at h
      have hfront := ih (n / 10) (by omega) h
      have hzero := congrArg (Nat.ofDigitChars 10 · 0) hfront
      simp only [Nat.ofDigitChars_ten_toDigits] at hzero
      have hval : Nat.ofDigitChars 10 ['0'] 0 = 0 := rfl
      omega

theorem magnitude_toDigits (n : ℕ) : Magnitude n (Nat.toDigits 10 n) := by
  have hdigits : IsDigits (Nat.toDigits 10 n) :=
    ⟨Nat.toDigits_ne_nil, fun _ => Nat.isDigit_of_mem_toDigits (by decide) (by decide)⟩
  have hmagnitude := Magnitude.mk hdigits toDigits_head .absent .absent
  simpa [decimal, Nat.ofDigitChars_ten_toDigits] using hmagnitude

theorem numeral_toString (n : ℤ) : Numeral n (toString n).toList := by
  rw [Int.toString_eq_repr, Int.repr_eq_if]
  split
  · rename_i hn
    have hvalue : ((n.toNat : ℕ) : ℚ) = n := by exact_mod_cast Int.toNat_of_nonneg hn
    rw [Nat.repr_eq_ofList_toDigits, String.toList_ofList, ← hvalue]
    exact .positive (magnitude_toDigits _)
  · rename_i hn
    have hvalue : (((-n).toNat : ℕ) : ℚ) = -n := by
      exact_mod_cast Int.toNat_of_nonneg (a := -n) (by omega)
    have htext : ("-" ++ (-n).toNat.repr).toList = '-' :: Nat.toDigits 10 (-n).toNat := by
      simp [Nat.repr_eq_ofList_toDigits]
    have hnumeral := Numeral.negative (magnitude_toDigits (-n).toNat)
    rwa [hvalue, neg_neg, ← htext] at hnumeral

-- ---------------------------------------------------------------------------
-- Values
-- ---------------------------------------------------------------------------

mutual
def denote : Json → Value
  | int n => .number n
  | string s => .string s
  | array items => .array (denoteItems items)
  | object fields => .object (denoteFields fields)
def denoteItems : List Json → List Value
  | [] => []
  | item :: rest => item.denote :: denoteItems rest
def denoteFields : List (String × Json) → List (String × Value)
  | [] => []
  | (key, value) :: rest => (key, value.denote) :: denoteFields rest
end

theorem blanks_newline (level : ℕ) : Blanks (newline level).toList := by
  intro c hc
  simp only [newline, String.toList_append, String.toList_ofList, List.mem_append] at hc
  rcases hc with hc | hc
  · rw [List.mem_singleton.mp hc]
    rfl
  · rw [List.eq_of_mem_replicate hc]
    rfl

theorem padded_newline (h : Spells v text) (level : ℕ) (hafter : Blanks after) :
    Padded Spells v ((newline level).toList ++ (text ++ after)) :=
  .mk (blanks_newline level) h hafter

theorem field_newline (hkey : Quoted key cs) (h : Spells v text) (level : ℕ)
    (hafter : Blanks after) :
    Field Spells (key, v) ((newline level).toList ++ (cs ++ ':' :: ' ' :: (text ++ after))) := by
  have hfront : Padded Quoted key ((newline level).toList ++ (cs ++ [])) :=
    .mk (blanks_newline level) hkey nofun
  have hspace : Blanks [' '] := by simp [Blanks, isBlank]
  have hfield := Field.mk hfront (.mk hspace h hafter)
  simpa using hfield

mutual
theorem spells_renderAt (level : ℕ) : (j : Json) → Spells j.denote (renderAt level j).toList
  | int n => .number (numeral_toString n)
  | string s => .string (quoted_quote s)
  | array [] => by
    rw [renderAt, denote, denoteItems]
    exact .array (.empty (List.forall_mem_nil _))
  | array (first :: rest) => by
    have hitems := spells_renderItems (level + 1) level rest (spells_renderAt (level + 1) first)
    simp only [renderAt, denote, denoteItems, String.toList_append, List.append_assoc]
    exact .array (.items hitems)
  | object [] => by
    rw [renderAt, denote, denoteFields]
    exact .object (.empty (List.forall_mem_nil _))
  | object ((key, value) :: rest) => by
    have hfields := spells_renderFields (level + 1) level rest (quoted_quote key)
      (spells_renderAt (level + 1) value)
    simp only [renderAt, denote, denoteFields, String.toList_append, List.append_assoc]
    exact .object (.items hfields)
theorem spells_renderItems (level outer : ℕ) : (rest : List Json) → ∀ {v text}, Spells v text →
    Items (Padded Spells) ']' (v :: denoteItems rest) ((newline level).toList ++ (text ++
      ((renderItems level rest).toList ++ ((newline outer).toList ++ [']']))))
  | [], v, text, h => by
    have hlast : Items (Padded Spells) ']' [v] _ :=
      .last (padded_newline h level (blanks_newline outer))
    simpa [renderItems, denoteItems] using hlast
  | item :: rest, v, text, h => by
    have hfirst : Padded Spells v ((newline level).toList ++ (text ++ [])) :=
      padded_newline h level nofun
    have hrest := spells_renderItems level outer rest (spells_renderAt level item)
    simpa [renderItems, denoteItems] using Items.more hfirst hrest
theorem spells_renderFields (level outer : ℕ) : (rest : List (String × Json)) →
    ∀ {key cs v text}, Quoted key cs → Spells v text →
    Items (Field Spells) '\x7d' ((key, v) :: denoteFields rest) ((newline level).toList ++ (cs ++
      ':' :: ' ' :: (text ++ ((renderFields level rest).toList ++ ((newline outer).toList ++
        ['\x7d'])))))
  | [], key, cs, v, text, hkey, h => by
    have hlast : Items (Field Spells) '\x7d' [(key, v)] _ :=
      .last (field_newline hkey h level (blanks_newline outer))
    simpa [renderFields, denoteFields] using hlast
  | (nextKey, value) :: rest, key, cs, v, text, hkey, h => by
    have hfirst : Field Spells (key, v) ((newline level).toList ++ (cs ++ ':' :: ' ' ::
      (text ++ []))) := field_newline hkey h level nofun
    have hrest := spells_renderFields level outer rest (quoted_quote nextKey)
      (spells_renderAt level value)
    simpa [renderFields, denoteFields] using Items.more hfirst hrest
end

-- ---------------------------------------------------------------------------
-- ASCII
-- ---------------------------------------------------------------------------

def isAscii (s : String) : Bool := s.toList.all (·.toNat < 128)

theorem isAscii_append (s t : String) : isAscii (s ++ t) = (isAscii s && isAscii t) := by
  rw [isAscii, String.toList_append, List.all_append]
  rfl

theorem toNat_lt_of_le {c d : Char} (h : c ≤ d) (hd : d.toNat < 128) : c.toNat < 128 := by
  have hle : c.toNat ≤ d.toNat := UInt32.le_iff_toNat_le.mp h
  omega

theorem toNat_lt_of_isAlphanum {c : Char} (h : c.isAlphanum = true) : c.toNat < 128 := by
  simp only [Char.isAlphanum, Char.isAlpha, Char.isUpper, Char.isLower, Char.isDigit,
    Bool.or_eq_true, Bool.and_eq_true, decide_eq_true_eq] at h
  rcases h with (⟨-, h⟩ | ⟨-, h⟩) | ⟨-, h⟩
  · exact toNat_lt_of_le (d := 'Z') h (by decide)
  · exact toNat_lt_of_le (d := 'z') h (by decide)
  · exact toNat_lt_of_le (d := '9') h (by decide)

theorem toNat_lt_of_hexDigit? {c : Char} (h : hexDigit? c = some d) : c.toNat < 128 := by
  unfold hexDigit? at h
  split_ifs at h with hdigit hlower hupper
  · exact toNat_lt_of_isAlphanum (by simp [Char.isAlphanum, hdigit])
  · exact toNat_lt_of_le hlower.2 (by decide)
  · exact toNat_lt_of_le hupper.2 (by decide)

theorem isAscii_hexadecimal (h : hexadecimal? n cs = some m) :
    isAscii (String.ofList cs) = true := by
  induction cs generalizing n with
  | nil => rfl
  | cons c cs ih =>
    obtain ⟨d, hd, h⟩ := Option.bind_eq_some_iff.mp h
    simpa [isAscii, toNat_lt_of_hexDigit? hd] using ih h

theorem isAscii_unit (h : n < 65536) : isAscii (unit n) = true := by
  have hhex := isAscii_hexadecimal (spellsUnit_hex h).2
  rw [String.ofList_toList] at hhex
  rw [unit, isAscii_append, hhex]
  rfl

theorem escapes_isAscii (h : escapes.lookup key = some c) : key.toNat < 128 := by
  by_contra hkey
  have hne (d : Char) (hd : d.toNat < 128) : (key == d) = false := by
    refine beq_false_of_ne ?_
    rintro rfl
    exact hkey hd
  simp [escapes, List.lookup_cons, hne] at h

theorem Escaped.isAscii (h : Escaped c text) : isAscii text = true := by
  cases h with
  | key h => simp [Json.isAscii, escapes_isAscii h]
  | plain _ hhigh _ _ =>
    simp only [Json.isAscii, String.toList_ofList, List.all_cons, List.all_nil, Bool.and_true,
      decide_eq_true_eq]
    omega
  | unit h => exact isAscii_unit h
  | pair h =>
    have hvalid := toNat_isValidChar c
    rw [Nat.isValidChar] at hvalid
    rw [isAscii_append, isAscii_unit (by omega), isAscii_unit (by omega)]
    rfl

theorem isAscii_quote (s : String) : isAscii (quote s) = true := by
  have hchars (cs : List Char) : isAscii (String.join (cs.map escapeChar)) = true := by
    induction cs with
    | nil => rfl
    | cons c cs ih =>
      rw [List.map_cons, String.join_cons, isAscii_append, (escaped_escapeChar c).isAscii, ih]
      rfl
  rw [quote, isAscii_append, isAscii_append, hchars]
  rfl

theorem isAscii_newline (level : ℕ) : isAscii (newline level) = true := by
  rw [newline, isAscii_append]
  simp [isAscii]

theorem isAscii_toString (n : ℤ) : isAscii (toString n) = true := by
  rw [isAscii, List.all_eq_true]
  intro c hc
  have hatomic : isAtomic c = true := (numeral_toString n).atomic c hc
  simp only [isAtomic, Bool.or_eq_true, beq_iff_eq] at hatomic
  rw [decide_eq_true_eq]
  rcases hatomic with ((h | rfl) | rfl) | rfl
  · exact toNat_lt_of_isAlphanum h
  all_goals decide

mutual
theorem isAscii_renderAt (level : ℕ) : (j : Json) → isAscii (renderAt level j) = true
  | int n => isAscii_toString n
  | string s => isAscii_quote s
  | array [] | object [] => by rw [renderAt]; rfl
  | array (first :: rest) => by
    simp only [renderAt, isAscii_append, isAscii_newline, isAscii_renderAt _ first,
      isAscii_renderItems _ rest]
    rfl
  | object ((key, value) :: rest) => by
    simp only [renderAt, isAscii_append, isAscii_newline, isAscii_quote, isAscii_renderAt _ value,
      isAscii_renderFields _ rest]
    rfl
theorem isAscii_renderItems (level : ℕ) : (items : List Json) →
    isAscii (renderItems level items) = true
  | [] => rfl
  | item :: rest => by
    simp only [renderItems, isAscii_append, isAscii_newline, isAscii_renderAt _ item,
      isAscii_renderItems _ rest]
    rfl
theorem isAscii_renderFields (level : ℕ) : (fields : List (String × Json)) →
    isAscii (renderFields level fields) = true
  | [] => rfl
  | (key, value) :: rest => by
    simp only [renderFields, isAscii_append, isAscii_newline, isAscii_quote,
      isAscii_renderAt _ value, isAscii_renderFields _ rest]
    rfl
end

-- ---------------------------------------------------------------------------
-- Reports
-- ---------------------------------------------------------------------------

theorem denoteItems_map {α : Type} (f : α → Json) (xs : List α) :
    denoteItems (xs.map f) = xs.map fun x => (f x).denote := by
  induction xs with
  | nil => rfl
  | cons x xs ih => rw [List.map_cons, denoteItems, ih, List.map_cons]

end Json

namespace Report

theorem denote_findingJson_injective : Function.Injective fun f => (findingJson f).denote := by
  rintro ⟨name, path, line⟩ ⟨name', path', line'⟩ h
  simpa [findingJson, Json.denote, Json.denoteFields] using h

theorem name_injective : Function.Injective FileError.Stage.name := by
  intro stage stage'
  cases stage <;> cases stage' <;> simp [FileError.Stage.name]

theorem denote_errorJson_injective : Function.Injective fun e => (errorJson e).denote := by
  rintro ⟨path, stage, message⟩ ⟨path', stage', message'⟩ h
  simpa [errorJson, Json.denote, Json.denoteFields, name_injective.eq_iff] using h

theorem denote_toJson_injective : Function.Injective fun r : Report => r.toJson.denote := by
  rintro ⟨project, files, findings, errors⟩ ⟨project', files', findings', errors'⟩ h
  simp only [toJson, Json.denote, Json.denoteFields, Json.denoteItems_map, Json.Value.object.injEq,
    List.cons.injEq, Prod.mk.injEq, Json.Value.string.injEq, Json.Value.number.injEq,
    Json.Value.array.injEq, true_and, and_true, Int.cast_inj] at h
  obtain ⟨hproject, hfiles, hfindings, herrors⟩ := h
  rw [hproject, hfiles, List.map_injective_iff.mpr denote_findingJson_injective hfindings,
    List.map_injective_iff.mpr denote_errorJson_injective herrors]

theorem decode_render (r : Report) (markers : Markers) :
    Json.decode (r.render .json markers) = some r.toJson.denote := by
  have hbreak : Json.Blanks ['\n'] := by simp [Json.Blanks, Json.isBlank]
  have hpadded : Json.Padded Json.Spells r.toJson.denote
      ([] ++ ((Json.renderAt 0 r.toJson).toList ++ ['\n'])) :=
    .mk nofun (Json.spells_renderAt 0 r.toJson) hbreak
  rw [Json.decode_eq_some_iff]
  simpa [render, Json.render] using hpadded

/-- The JSON form of a report is ASCII text that spells the value of the report and no other, so a
decoder gives that value, and no other report has the same form. -/
theorem render_json_lossless (r : Report) (markers : Markers) :
    (∀ r' markers', r'.render .json markers' = r.render .json markers ↔ r' = r) ∧
    Json.isAscii (r.render .json markers) = true ∧
    Json.decode (r.render .json markers) = some r.toJson.denote ∧
    ∀ v, Json.Padded Json.Spells v (r.render .json markers).toList ↔ v = r.toJson.denote := by
  refine ⟨fun r' markers' => ⟨fun heq => ?_, ?_⟩, ?_, decode_render r markers, fun v => ?_⟩
  · have hvalue := decode_render r' markers'
    rw [heq, decode_render] at hvalue
    exact (denote_toJson_injective (Option.some.inj hvalue)).symm
  · rintro rfl
    rfl
  · rw [render, Json.isAscii_append, Json.render, Json.isAscii_renderAt]
    rfl
  · rw [← Json.decode_eq_some_iff, decode_render, Option.some.injEq, eq_comm]

end Report

end CategoryAudit
