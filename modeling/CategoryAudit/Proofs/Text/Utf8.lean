import Mathlib
import CategoryAudit.Text.Utf8

/-!
# Well-formed UTF-8

Bytes are well formed if they are the encoding of some characters. A strict reader accepts exactly
these, as the characters that they encode (`decode_eq_ok_iff`). It stops at the one place that has
well-formed bytes before it and at which no character begins (`breaks_iff`), and says why
(`explains_of_decode`).
-/

namespace CategoryAudit.Text.Utf8

open String (utf8EncodeChar)

def encode (cs : List Char) : List UInt8 := cs.flatMap utf8EncodeChar

def WellFormed (bytes : List UInt8) : Prop := ∃ cs, bytes = encode cs

/-- The first ill-formed part of some bytes is at a place: what is before it is well formed, and no
character begins there. -/
structure Breaks (bytes : List UInt8) (place : Nat) : Prop where
  inside : place < bytes.length
  before : WellFormed (bytes.take place)
  here : ∀ c, ¬ utf8EncodeChar c <+: bytes.drop place

/-- What a fault says about the bytes at its place: the first of them begins no character; they end
within a character; or neither. -/
def Fault.Explains (bytes : List UInt8) : Fault → Prop
  | .invalidStart => ∀ c, (utf8EncodeChar c).head? ≠ bytes.head?
  | .unexpectedEnd => ∃ c, bytes <+: utf8EncodeChar c
  | .invalidContinuation =>
    (∃ c, (utf8EncodeChar c).head? = bytes.head?) ∧ ∀ c, ¬ bytes <+: utf8EncodeChar c

-- ---------------------------------------------------------------------------
-- The forms of a character
-- ---------------------------------------------------------------------------

/-- The bytes of one character and its number: the payloads of the bytes put together, in the
shortest of the forms that the number fits in. -/
inductive Form : List UInt8 → Nat → Prop
  | one : b.toNat < 0x80 → Form [b] b.toNat
  | two : 0xc0 ≤ b.toNat → b.toNat < 0xe0 → isContinuation d → 0x80 ≤ v →
      v = b.toNat % 32 * 64 + d.toNat % 64 → Form [b, d] v
  | three : 0xe0 ≤ b.toNat → b.toNat < 0xf0 → isContinuation d → isContinuation e → 0x800 ≤ v →
      v.isValidChar → v = (b.toNat % 16 * 64 + d.toNat % 64) * 64 + e.toNat % 64 → Form [b, d, e] v
  | four : 0xf0 ≤ b.toNat → b.toNat < 0xf8 → isContinuation d → isContinuation e →
      isContinuation f → 0x10000 ≤ v → v.isValidChar →
      v = ((b.toNat % 8 * 64 + d.toNat % 64) * 64 + e.toNat % 64) * 64 + f.toNat % 64 →
      Form [b, d, e, f] v

theorem isContinuation_iff {b : UInt8} :
    isContinuation b = true ↔ 0x80 ≤ b.toNat ∧ b.toNat < 0xc0 := by
  simp only [isContinuation, Bool.and_eq_true, decide_eq_true_eq, UInt8.le_iff_toNat_le,
    UInt8.reduceToNat]
  omega

theorem toNat_ofNat_of_lt {n : Nat} (h : n < 256) : (UInt8.ofNat n).toNat = n := by
  rw [UInt8.toNat_ofNat', Nat.mod_eq_of_lt h]

theorem isContinuation_ofNat {n : Nat} (h : 0x80 ≤ n) (h' : n < 0xc0) :
    isContinuation (UInt8.ofNat n) = true :=
  isContinuation_iff.mpr (by rw [toNat_ofNat_of_lt (by omega)]; exact ⟨h, h'⟩)

theorem form_encode (c : Char) : Form (utf8EncodeChar c) c.toNat := by
  have hvalid : c.toNat.isValidChar := c.valid
  have hbounds : c.toNat < 0xd800 ∨ 0xdfff < c.toNat ∧ c.toNat < 0x110000 := hvalid
  have hval : c.val.toNat = c.toNat := rfl
  unfold utf8EncodeChar
  simp only [hval]
  generalize c.toNat = v at hvalid hbounds
  split
  · have hb : (UInt8.ofNat v).toNat = v := toNat_ofNat_of_lt (by omega)
    have hform : Form [UInt8.ofNat v] (UInt8.ofNat v).toNat := .one (by omega)
    rwa [hb] at hform
  split
  · have hb := toNat_ofNat_of_lt (n := v / 64 % 32 + 192) (by omega)
    have hd := toNat_ofNat_of_lt (n := v % 64 + 128) (by omega)
    exact .two (by omega) (by omega) (isContinuation_ofNat (by omega) (by omega)) (by omega)
      (by omega)
  split
  · have hb := toNat_ofNat_of_lt (n := v / 4096 % 16 + 224) (by omega)
    have hd := toNat_ofNat_of_lt (n := v / 64 % 64 + 128) (by omega)
    have he := toNat_ofNat_of_lt (n := v % 64 + 128) (by omega)
    exact .three (by omega) (by omega) (isContinuation_ofNat (by omega) (by omega))
      (isContinuation_ofNat (by omega) (by omega)) (by omega) hvalid (by omega)
  · have hb := toNat_ofNat_of_lt (n := v / 262144 % 8 + 240) (by omega)
    have hd := toNat_ofNat_of_lt (n := v / 4096 % 64 + 128) (by omega)
    have he := toNat_ofNat_of_lt (n := v / 64 % 64 + 128) (by omega)
    have hf := toNat_ofNat_of_lt (n := v % 64 + 128) (by omega)
    exact .four (by omega) (by omega) (isContinuation_ofNat (by omega) (by omega))
      (isContinuation_ofNat (by omega) (by omega)) (isContinuation_ofNat (by omega) (by omega))
      (by omega) hvalid (by omega)

theorem Form.encode (h : Form bytes v) : utf8EncodeChar (Char.ofNat v) = bytes := by
  have hvalid : v.isValidChar := by
    cases h with
    | one | two => exact .inl (by omega)
    | three _ _ _ _ _ hv | four _ _ _ _ _ _ hv => exact hv
  have hval : (Char.ofNat v).val.toNat = v := (Char.toNat_ofNat v).trans (if_pos hvalid)
  have hbyte {n : Nat} {b : UInt8} (h : n = b.toNat) : UInt8.ofNat n = b := by simp [h]
  have hbounds : v < 0xd800 ∨ 0xdfff < v ∧ v < 0x110000 := hvalid
  unfold utf8EncodeChar
  simp only [hval]
  cases h with
  | one hb => rw [if_pos (by omega), hbyte rfl]
  | two hb hb' hd hv hcode =>
    rw [isContinuation_iff] at hd
    rw [if_neg (by omega), if_pos (by omega)]
    simp only [List.cons.injEq, and_true]
    exact ⟨hbyte (by omega), hbyte (by omega)⟩
  | three hb hb' hd he hv _ hcode =>
    rw [isContinuation_iff] at hd he
    rw [if_neg (by omega), if_neg (by omega), if_pos (by omega)]
    simp only [List.cons.injEq, and_true]
    exact ⟨hbyte (by omega), hbyte (by omega), hbyte (by omega)⟩
  | four hb hb' hd he hf hv _ hcode =>
    rw [isContinuation_iff] at hd he hf
    rw [if_neg (by omega), if_neg (by omega), if_neg (by omega)]
    simp only [List.cons.injEq, and_true]
    exact ⟨hbyte (by omega), hbyte (by omega), hbyte (by omega), hbyte (by omega)⟩

-- ---------------------------------------------------------------------------
-- The first two bytes
-- ---------------------------------------------------------------------------

theorem tail?_none {b : UInt8} (h : b.toNat < 0xc2 ∨ 0xf5 ≤ b.toNat) : tail? b = none := by
  simp only [tail?, UInt8.lt_iff_toNat_lt, beq_iff_eq, ← UInt8.toNat_inj, UInt8.reduceToNat]
  split
  · rfl
  · repeat rw [if_neg (by omega)]

theorem tail?_one {b : UInt8} (h : 0xc2 ≤ b.toNat) (h' : b.toNat < 0xe0) :
    tail? b = some (1, 0x80, 0xbf) := by
  have hlow : ¬ b < 0xc2 := by simpa [UInt8.lt_iff_toNat_lt] using h
  have hhigh : b < 0xe0 := by simpa [UInt8.lt_iff_toNat_lt] using h'
  rw [tail?, if_neg hlow, if_pos hhigh]

/-- The second of three bytes keeps the number from fitting into two and off the surrogates. -/
theorem tail?_two {b : UInt8} (h : 0xe0 ≤ b.toNat) (h' : b.toNat < 0xf0) :
    ∃ low high, tail? b = some (2, low, high) ∧ ∀ d : UInt8, low ≤ d ∧ d ≤ high ↔
      isContinuation d = true ∧ 0x20 ≤ b.toNat % 16 * 64 + d.toNat % 64 ∧
        ¬ (0x360 ≤ b.toNat % 16 * 64 + d.toNat % 64 ∧
          b.toNat % 16 * 64 + d.toNat % 64 < 0x380) := by
  simp only [tail?, isContinuation_iff, UInt8.lt_iff_toNat_lt, UInt8.le_iff_toNat_le, beq_iff_eq,
    ← UInt8.toNat_inj, UInt8.reduceToNat]
  rw [if_neg (by omega), if_neg (by omega)]
  split
  · refine ⟨_, _, rfl, fun d => ?_⟩
    simp only [UInt8.reduceToNat]
    omega
  split
  · refine ⟨_, _, rfl, fun d => ?_⟩
    simp only [UInt8.reduceToNat]
    omega
  · refine ⟨_, _, rfl, fun d => ?_⟩
    simp only [UInt8.reduceToNat]
    omega

/-- The second of four bytes keeps the number from fitting into three and within the code points. -/
theorem tail?_three {b : UInt8} (h : 0xf0 ≤ b.toNat) (h' : b.toNat < 0xf5) :
    ∃ low high, tail? b = some (3, low, high) ∧ ∀ d : UInt8, low ≤ d ∧ d ≤ high ↔
      isContinuation d = true ∧ 0x10 ≤ b.toNat % 8 * 64 + d.toNat % 64 ∧
        b.toNat % 8 * 64 + d.toNat % 64 < 0x110 := by
  simp only [tail?, isContinuation_iff, UInt8.lt_iff_toNat_lt, UInt8.le_iff_toNat_le, beq_iff_eq,
    ← UInt8.toNat_inj, UInt8.reduceToNat]
  rw [if_neg (by omega), if_neg (by omega), if_neg (by omega), if_neg (by omega),
    if_neg (by omega)]
  split
  · refine ⟨_, _, rfl, fun d => ?_⟩
    simp only [UInt8.reduceToNat]
    omega
  split
  · refine ⟨_, _, rfl, fun d => ?_⟩
    simp only [UInt8.reduceToNat]
    omega
  · refine ⟨_, _, if_pos (by omega), fun d => ?_⟩
    simp only [UInt8.reduceToNat]
    omega

-- ---------------------------------------------------------------------------
-- One step of a reader
-- ---------------------------------------------------------------------------

theorem step_ascii {b : UInt8} (h : b.toNat < 0x80) (rest : List UInt8) :
    step b rest = .char (Char.ofNat b.toNat) 0 :=
  if_pos (by simpa [UInt8.lt_iff_toNat_lt] using h)

theorem step_lead {b : UInt8} (h : 0x80 ≤ b.toNat) (rest : List UInt8) :
    step b rest = match tail? b with
      | none => .fault .invalidStart 0
      | some (tail, low, high) =>
        match rest with
        | [] => .fault .unexpectedEnd 0
        | d :: more =>
          if low ≤ d ∧ d ≤ high then
            continuation (leadBits tail b * 64 + d.toNat % 64) 1 (tail - 1) more
          else .fault .invalidContinuation 0 := by
  have hb : ¬ b < 0x80 := by simpa [UInt8.lt_iff_toNat_lt] using h
  rw [step, if_neg hb]
  cases tail? b with
  | none => rfl
  | some row => cases rest <;> simp

theorem continuation_cons {e : UInt8} {code read : Nat} (h : isContinuation e = true) :
    continuation code read (left + 1) (e :: rest) =
      continuation (code * 64 + e.toNat % 64) (read + 1) left rest := by
  rw [continuation, if_pos h]

theorem Form.step (h : Form (b :: more) v) (rest : List UInt8) :
    step b (more ++ rest) = .char (Char.ofNat v) more.length := by
  cases h with
  | one hb => exact step_ascii hb _
  | two hb hb' hd hv hcode =>
    rw [step_lead (by omega), tail?_one (by omega) hb']
    rw [isContinuation_iff] at hd
    simp only [List.cons_append, UInt8.le_iff_toNat_le, UInt8.reduceToNat]
    rw [if_pos (by omega), hcode]
    rfl
  | three hb hb' hd he hv hvalid hcode =>
    have hbounds : v < 0xd800 ∨ 0xdfff < v ∧ v < 0x110000 := hvalid
    obtain ⟨low, high, htail, hrange⟩ := tail?_two hb hb'
    rw [step_lead (by omega), htail]
    simp only [List.cons_append]
    rw [if_pos ((hrange _).mpr ⟨hd, by omega, by omega⟩), continuation_cons he, hcode]
    rfl
  | four hb hb' hd he hf hv hvalid hcode =>
    have hbounds : v < 0xd800 ∨ 0xdfff < v ∧ v < 0x110000 := hvalid
    obtain ⟨low, high, htail, hrange⟩ := tail?_three hb (by omega)
    rw [step_lead (by omega), htail]
    simp only [List.cons_append]
    rw [if_pos ((hrange _).mpr ⟨hd, by omega, by omega⟩), continuation_cons he,
      continuation_cons hf, hcode]
    rfl

theorem of_continuation_succ {code read : Nat}
    (h : continuation code read (left + 1) rest = .char c more) :
    ∃ e later, rest = e :: later ∧ isContinuation e = true ∧
      continuation (code * 64 + e.toNat % 64) (read + 1) left later = .char c more := by
  cases rest with
  | nil => cases h
  | cons e later =>
    rw [continuation] at h
    split at h
    · exact ⟨e, later, rfl, ‹_›, h⟩
    · cases h

theorem of_step_lead {b : UInt8} (hb : 0x80 ≤ b.toNat) (ht : tail? b = some (tail, low, high))
    (h : step b rest = .char c more) :
    ∃ d later, rest = d :: later ∧ (low ≤ d ∧ d ≤ high) ∧
      continuation (leadBits tail b * 64 + d.toNat % 64) 1 (tail - 1) later = .char c more := by
  rw [step_lead hb, ht] at h
  cases rest with
  | nil => cases h
  | cons d later =>
    simp only at h
    split at h
    · exact ⟨d, later, rfl, ‹_›, h⟩
    · cases h

theorem form_of_step (h : step b rest = .char c more) :
    ∃ bytes v later, Form (b :: bytes) v ∧ rest = bytes ++ later ∧ c = Char.ofNat v ∧
      more = bytes.length := by
  by_cases hascii : b.toNat < 0x80
  · rw [step_ascii hascii] at h
    cases h
    exact ⟨[], _, rest, .one hascii, rfl, rfl, rfl⟩
  have hb : 0x80 ≤ b.toNat := by omega
  by_cases hnone : b.toNat < 0xc2 ∨ 0xf5 ≤ b.toNat
  · rw [step_lead hb, tail?_none hnone] at h
    cases h
  by_cases hone : b.toNat < 0xe0
  · obtain ⟨d, rest, rfl, hd, h⟩ := of_step_lead hb (tail?_one (by omega) hone) h
    simp only [UInt8.le_iff_toNat_le, UInt8.reduceToNat] at hd
    cases h
    exact ⟨[d], _, rest, .two (by omega) hone (isContinuation_iff.mpr (by omega)) (by omega) rfl,
      rfl, rfl, rfl⟩
  by_cases htwo : b.toNat < 0xf0
  · obtain ⟨low, high, htail, hrange⟩ := tail?_two (by omega) htwo
    obtain ⟨d, rest, rfl, hd, h⟩ := of_step_lead hb htail h
    obtain ⟨hd, hform, hsurrogate⟩ := (hrange d).mp hd
    obtain ⟨e, rest, rfl, he, h⟩ := of_continuation_succ h
    cases h
    exact ⟨[d, e], _, rest, .three (by omega) htwo hd he (by omega) (show _ ∨ _ by omega) rfl,
      rfl, rfl, rfl⟩
  · obtain ⟨low, high, htail, hrange⟩ := tail?_three (b := b) (by omega) (by omega)
    obtain ⟨d, rest, rfl, hd, h⟩ := of_step_lead hb htail h
    obtain ⟨hd, hform, hlimit⟩ := (hrange d).mp hd
    obtain ⟨e, rest, rfl, he, h⟩ := of_continuation_succ h
    obtain ⟨f, rest, rfl, hf, h⟩ := of_continuation_succ h
    cases h
    exact ⟨[d, e, f], _, rest, .four (by omega) (by omega) hd he hf (by omega)
      (show _ ∨ _ by omega) rfl, rfl, rfl, rfl⟩

theorem step_eq_char_iff : step b rest = .char c more ↔
    ∃ bytes later, utf8EncodeChar c = b :: bytes ∧ rest = bytes ++ later ∧ more = bytes.length := by
  constructor
  · intro h
    obtain ⟨bytes, v, later, hform, hrest, rfl, hmore⟩ := form_of_step h
    exact ⟨bytes, later, hform.encode, hrest, hmore⟩
  · rintro ⟨bytes, later, hc, rfl, rfl⟩
    have hform := form_encode c
    rw [hc] at hform
    rw [hform.step, Char.ofNat_toNat]

theorem utf8EncodeChar_ne_nil (c : Char) : utf8EncodeChar c ≠ [] := by
  intro h
  have hform := form_encode c
  rw [h] at hform
  cases hform

theorem not_begins_of_fault (h : step b rest = .fault f more) (c : Char) :
    ¬ utf8EncodeChar c <+: b :: rest := by
  rintro ⟨later, hlater⟩
  obtain ⟨d, bytes, hc⟩ := List.exists_cons_of_ne_nil (utf8EncodeChar_ne_nil c)
  rw [hc, List.cons_append] at hlater
  obtain ⟨rfl, rfl⟩ := List.cons.inj hlater
  rw [step_eq_char_iff.mpr ⟨bytes, later, hc, rfl, rfl⟩] at h
  cases h

-- ---------------------------------------------------------------------------
-- What a fault says
-- ---------------------------------------------------------------------------

theorem continuation_ne_invalidStart {code read : Nat} :
    continuation code read left rest ≠ .fault .invalidStart more := by
  induction left generalizing code read rest with
  | zero => nofun
  | succ left ih =>
    cases rest with
    | nil => nofun
    | cons e rest =>
      rw [continuation]
      split
      · exact ih
      · nofun

theorem continuation_append {code read : Nat}
    (h : continuation code read left rest = .fault .invalidContinuation more) (later : List UInt8) :
    continuation code read left (rest ++ later) = .fault .invalidContinuation more := by
  induction left generalizing code read rest with
  | zero => cases h
  | succ left ih =>
    cases rest with
    | nil => cases h
    | cons e rest =>
      rw [continuation] at h
      rw [List.cons_append, continuation]
      split at h
      · rw [if_pos ‹_›, ih h]
      · rw [if_neg ‹_›, h]

theorem continuation_fill (code read left : Nat) :
    ∃ c, continuation code read left (List.replicate left 0x80) = .char c (read + left) := by
  induction left generalizing code read with
  | zero => exact ⟨_, rfl⟩
  | succ left ih =>
    obtain ⟨c, hc⟩ := ih (code * 64) (read + 1)
    refine ⟨c, ?_⟩
    have hcount : read + (left + 1) = read + 1 + left := by omega
    rw [List.replicate_succ, continuation_cons (by decide), hcount]
    exact hc

theorem continuation_completed {code read : Nat}
    (h : continuation code read left rest = .fault .unexpectedEnd more) :
    ∃ later c, continuation code read left (rest ++ later) = .char c (read + left) ∧
      (rest ++ later).length = left := by
  induction left generalizing code read rest with
  | zero => cases h
  | succ left ih =>
    cases rest with
    | nil =>
      obtain ⟨c, hc⟩ := continuation_fill code read (left + 1)
      exact ⟨List.replicate (left + 1) 0x80, c, hc, by simp⟩
    | cons e rest =>
      rw [continuation] at h
      split at h
      · rename_i he
        obtain ⟨later, c, hc, hlength⟩ := ih h
        refine ⟨later, c, ?_, by simpa using hlength⟩
        rw [List.cons_append, continuation_cons he, hc]
        congr 1
        omega
      · cases h

theorem le_of_tail? (h : tail? b = some (tail, low, high)) : low ≤ high := by
  unfold tail? at h
  repeat' split at h
  all_goals cases h <;> decide

theorem lead_of_fault (h : step b rest = .fault f more) : 0x80 ≤ b.toNat := by
  refine Nat.le_of_not_lt fun hascii => ?_
  rw [step_ascii hascii] at h
  cases h

theorem tail?_of_fault (h : step b rest = .fault f more) :
    f = .invalidStart ∧ tail? b = none ∨ f ≠ .invalidStart ∧ ∃ row, tail? b = some row := by
  rw [step_lead (lead_of_fault h)] at h
  cases ht : tail? b with
  | none =>
    rw [ht] at h
    cases h
    exact .inl ⟨rfl, rfl⟩
  | some row =>
    refine .inr ⟨?_, row, rfl⟩
    rintro rfl
    rw [ht] at h
    cases rest with
    | nil => cases h
    | cons d rest =>
      simp only at h
      split at h
      · exact continuation_ne_invalidStart h
      · cases h

/-- Bytes that do not go on a character do not do so whatever comes after them. -/
theorem step_append (h : step b rest = .fault .invalidContinuation more) (later : List UInt8) :
    step b (rest ++ later) = .fault .invalidContinuation more := by
  obtain ⟨hf, -⟩ | ⟨-, row, ht⟩ := tail?_of_fault h
  · cases hf
  have hb := lead_of_fault h
  rw [step_lead hb, ht] at h
  rw [step_lead hb, ht]
  cases rest with
  | nil => cases h
  | cons d rest =>
    simp only [List.cons_append] at h ⊢
    split at h
    · rw [if_pos ‹_›, continuation_append h]
    · rw [if_neg ‹_›, h]

/-- Bytes that end within a character can be completed to it. -/
theorem step_completed (h : step b rest = .fault .unexpectedEnd more) :
    ∃ later c, step b (rest ++ later) = .char c (rest ++ later).length := by
  obtain ⟨hf, -⟩ | ⟨-, ⟨tail, low, high⟩, ht⟩ := tail?_of_fault h
  · cases hf
  have hb := lead_of_fault h
  rw [step_lead hb, ht] at h
  cases rest with
  | nil =>
    obtain ⟨c, hc⟩ := continuation_fill (leadBits tail b * 64 + low.toNat % 64) 1 (tail - 1)
    refine ⟨low :: List.replicate (tail - 1) 0x80, c, ?_⟩
    rw [List.nil_append, step_lead hb, ht]
    simp only
    rw [if_pos ⟨UInt8.le_refl low, le_of_tail? ht⟩, hc, List.length_cons, List.length_replicate,
      Nat.add_comm]
  | cons d rest =>
    simp only at h
    split at h
    · rename_i hd
      obtain ⟨later, c, hc, hlength⟩ := continuation_completed h
      refine ⟨later, c, ?_⟩
      rw [step_lead hb, ht]
      simp only [List.cons_append]
      rw [if_pos hd, hc, List.length_cons, hlength, Nat.add_comm]
    · cases h

theorem begins_of_unexpectedEnd (h : step b rest = .fault .unexpectedEnd more) :
    ∃ c, b :: rest <+: utf8EncodeChar c := by
  obtain ⟨later, c, hc⟩ := step_completed h
  obtain ⟨bytes, after, hencode, hrest, hlength⟩ := step_eq_char_iff.mp hc
  have hnone : after = [] := by
    rw [hrest, List.length_append] at hlength
    exact List.length_eq_zero_iff.mp (by omega)
  refine ⟨c, later, ?_⟩
  rw [hencode, List.cons_append, hrest, hnone, List.append_nil]

theorem explains_of_step (h : step b rest = .fault f more) : f.Explains (b :: rest) := by
  have hb := lead_of_fault h
  cases f with
  | unexpectedEnd => exact begins_of_unexpectedEnd h
  | invalidStart =>
    obtain ⟨-, ht⟩ | ⟨hf, -⟩ := tail?_of_fault h
    · intro c hc
      obtain ⟨bytes, hbytes⟩ := List.head?_eq_some_iff.mp hc
      have hchar := step_eq_char_iff.mpr ⟨bytes, [], hbytes, rfl, rfl⟩
      rw [step_lead hb, ht] at hchar
      cases hchar
    · exact absurd rfl hf
  | invalidContinuation =>
    obtain ⟨hf, -⟩ | ⟨-, row, ht⟩ := tail?_of_fault h
    · cases hf
    have hbegins : step b [] = .fault .unexpectedEnd 0 := by rw [step_lead hb, ht]
    obtain ⟨c, bytes, hc⟩ := begins_of_unexpectedEnd hbegins
    refine ⟨⟨c, by rw [← hc]; rfl⟩, ?_⟩
    rintro c ⟨later, hc⟩
    have hfault := step_append h later
    rw [step_eq_char_iff.mpr ⟨rest ++ later, [], hc.symm, (List.append_nil _).symm, rfl⟩] at hfault
    cases hfault

-- ---------------------------------------------------------------------------
-- Reading all bytes
-- ---------------------------------------------------------------------------

theorem encode_cons (c : Char) (cs : List Char) :
    encode (c :: cs) = utf8EncodeChar c ++ encode cs :=
  List.flatMap_cons

theorem decodeFrom_char (offset : Nat) (read : List Char) (c : Char) (rest : List UInt8) :
    decodeFrom offset read (utf8EncodeChar c ++ rest) =
      decodeFrom (offset + (utf8EncodeChar c).length) (c :: read) rest := by
  obtain ⟨b, bytes, hc⟩ := List.exists_cons_of_ne_nil (utf8EncodeChar_ne_nil c)
  have hstep := step_eq_char_iff.mpr ⟨bytes, rest, hc, rfl, rfl⟩
  rw [hc, List.cons_append, decodeFrom, hstep, List.length_cons]
  simp only [List.drop_left]
  congr 1
  omega

theorem decodeFrom_encode (offset : Nat) (read cs : List Char) (rest : List UInt8) :
    decodeFrom offset read (encode cs ++ rest) =
      decodeFrom (offset + (encode cs).length) (cs.reverse ++ read) rest := by
  induction cs generalizing offset read with
  | nil => rfl
  | cons c cs ih =>
    rw [encode_cons, List.append_assoc, decodeFrom_char, ih, List.length_append,
      List.reverse_cons, List.append_assoc, Nat.add_assoc]
    rfl

/-- Any bytes are the encoding of some characters, and then at the end or faulty. -/
theorem exists_encode_append (bytes : List UInt8) : ∃ cs rest, bytes = encode cs ++ rest ∧
    (rest = [] ∨ ∃ b later f more, rest = b :: later ∧ step b later = .fault f more) := by
  -- A step takes as many bytes as its character has, so the rest is shorter but no tail.
  induction h : bytes.length using Nat.strong_induction_on generalizing bytes with
  | _ length ih =>
    cases bytes with
    | nil => exact ⟨[], [], rfl, .inl rfl⟩
    | cons b rest =>
      cases hstep : step b rest with
      | fault f more => exact ⟨[], b :: rest, rfl, .inr ⟨b, rest, f, more, rfl, hstep⟩⟩
      | char c more =>
        obtain ⟨front, later, hc, rfl, -⟩ := step_eq_char_iff.mp hstep
        have hlt : later.length < length := by
          rw [← h, List.length_cons, List.length_append]
          omega
        obtain ⟨cs, rest, rfl, hrest⟩ := ih _ hlt later rfl
        refine ⟨c :: cs, rest, ?_, hrest⟩
        rw [encode_cons, hc, List.append_assoc, List.cons_append]

theorem decode_encode (cs : List Char) : decode (encode cs) = .ok (String.ofList cs) := by
  have h := decodeFrom_encode 0 [] cs []
  rw [List.append_nil] at h
  rw [decode, h, decodeFrom, List.append_nil, List.reverse_reverse]
  rfl

theorem decode_fault (cs : List Char) (h : step b rest = .fault f more) :
    decode (encode cs ++ b :: rest) = .error ⟨f, (encode cs).length⟩ := by
  rw [decode, decodeFrom_encode, decodeFrom, h, Nat.zero_add]
  rfl

/-- Bytes are read as the characters that they encode, or up to a first fault. -/
theorem decode_cases (bytes : List UInt8) :
    (∃ cs, bytes = encode cs ∧ decode bytes = .ok (String.ofList cs)) ∨
    ∃ cs b rest f more, bytes = encode cs ++ b :: rest ∧ step b rest = .fault f more ∧
      decode bytes = .error ⟨f, (encode cs).length⟩ := by
  obtain ⟨cs, rest, rfl, rfl | ⟨b, later, f, more, rfl, hstep⟩⟩ := exists_encode_append bytes
  · rw [List.append_nil]
    exact .inl ⟨cs, rfl, decode_encode cs⟩
  · exact .inr ⟨cs, b, later, f, more, rfl, hstep, decode_fault cs hstep⟩

theorem breaks_of_fault (cs : List Char) (h : step b rest = .fault f more) :
    Breaks (encode cs ++ b :: rest) (encode cs).length where
  inside := by
    rw [List.length_append, List.length_cons]
    omega
  before := ⟨cs, List.take_left⟩
  here := by
    rw [List.drop_left]
    exact not_begins_of_fault h

theorem breaks_iff : Breaks bytes place ↔ ∃ f, decode bytes = .error ⟨f, place⟩ := by
  constructor
  · rintro ⟨hinside, ⟨cs, hcs⟩, hhere⟩
    obtain ⟨b, rest, hrest⟩ :=
      List.exists_cons_of_ne_nil (List.drop_eq_nil_iff.not.mpr hinside.not_ge)
    rw [hrest] at hhere
    have hbytes : bytes = encode cs ++ b :: rest := by rw [← hcs, ← hrest, List.take_append_drop]
    have hplace : (encode cs).length = place := by rw [← hcs, List.length_take_of_le hinside.le]
    cases hstep : step b rest with
    | fault f more => exact ⟨f, by rw [hbytes, decode_fault cs hstep, hplace]⟩
    | char c more =>
      obtain ⟨front, later, hc, rfl, -⟩ := step_eq_char_iff.mp hstep
      exact absurd ⟨later, by rw [hc, List.cons_append]⟩ (hhere c)
  · rintro ⟨f, h⟩
    obtain ⟨cs, -, hok⟩ | ⟨cs, b, rest, f', more, rfl, hstep, herror⟩ := decode_cases bytes
    · rw [hok] at h
      cases h
    · rw [herror] at h
      cases h
      exact breaks_of_fault cs hstep

theorem explains_of_decode (h : decode bytes = .error e) :
    e.fault.Explains (bytes.drop e.offset) := by
  obtain ⟨cs, -, hok⟩ | ⟨cs, b, rest, f, more, rfl, hstep, herror⟩ := decode_cases bytes
  · rw [hok] at h
    cases h
  · rw [herror] at h
    cases h
    rw [List.drop_left]
    exact explains_of_step hstep

theorem decode_eq_ok_iff : decode bytes = .ok s ↔ bytes = encode s.toList := by
  constructor
  · intro h
    obtain ⟨cs, hbytes, hok⟩ | ⟨cs, b, rest, f, more, -, -, herror⟩ := decode_cases bytes
    · rw [hok] at h
      cases h
      rw [hbytes, String.toList_ofList]
    · rw [herror] at h
      cases h
  · rintro rfl
    rw [decode_encode, String.ofList_toList]

theorem Breaks.unique (h : Breaks bytes place) (h' : Breaks bytes place') : place = place' := by
  obtain ⟨f, hf⟩ := breaks_iff.mp h
  obtain ⟨f', hf'⟩ := breaks_iff.mp h'
  rw [hf] at hf'
  cases hf'
  rfl

theorem not_wellFormed_iff : ¬ WellFormed bytes ↔ ∃ place, Breaks bytes place := by
  constructor
  · intro h
    cases hdecode : decode bytes with
    | ok s => exact absurd ⟨_, decode_eq_ok_iff.mp hdecode⟩ h
    | error e => exact ⟨e.offset, breaks_iff.mpr ⟨e.fault, hdecode⟩⟩
  · rintro ⟨place, hbreaks⟩ ⟨cs, rfl⟩
    obtain ⟨f, hf⟩ := breaks_iff.mp hbreaks
    rw [decode_encode] at hf
    cases hf

-- ---------------------------------------------------------------------------
-- A character in front
-- ---------------------------------------------------------------------------

theorem WellFormed.cons (c : Char) (h : WellFormed bytes) :
    WellFormed (utf8EncodeChar c ++ bytes) := by
  obtain ⟨cs, rfl⟩ := h
  exact ⟨c :: cs, (encode_cons c cs).symm⟩

theorem Breaks.cons (c : Char) (h : Breaks bytes place) :
    Breaks (utf8EncodeChar c ++ bytes) ((utf8EncodeChar c).length + place) where
  inside := by
    rw [List.length_append]
    exact Nat.add_lt_add_left h.inside _
  before := by
    rw [List.take_length_add_append]
    exact h.before.cons c
  here := by
    rw [List.drop_length_add_append]
    exact h.here

-- ---------------------------------------------------------------------------
-- A byte order mark in front
-- ---------------------------------------------------------------------------

def markLength (bytes : List UInt8) : Nat := if mark.isPrefixOf bytes then mark.length else 0

theorem markLength_eq_zero_iff : markLength bytes = 0 ↔ ¬ mark <+: bytes := by
  rw [markLength, ← List.isPrefixOf_iff_prefix]
  split <;> simp_all [mark]

theorem mark_eq : mark = utf8EncodeChar '\ufeff' := by decide

theorem marked_or_unmarked (bytes : List UInt8) :
    (∃ rest, bytes = utf8EncodeChar '\ufeff' ++ rest ∧ dropMark bytes = rest ∧
      markLength bytes = (utf8EncodeChar '\ufeff').length) ∨
    dropMark bytes = bytes ∧ markLength bytes = 0 := by
  unfold dropMark markLength
  split
  · rename_i h
    obtain ⟨rest, rfl⟩ := List.isPrefixOf_iff_prefix.mp h
    exact .inl ⟨rest, by rw [mark_eq], List.drop_left, by rw [mark_eq]⟩
  · exact .inr ⟨rfl, rfl⟩

theorem Breaks.of_dropMark (h : Breaks (dropMark bytes) place) :
    Breaks bytes (markLength bytes + place) := by
  obtain ⟨rest, rfl, hrest, hlength⟩ | ⟨hbytes, hlength⟩ := marked_or_unmarked bytes
  · rw [hrest] at h
    rw [hlength]
    exact h.cons _
  · rw [hbytes] at h
    rwa [hlength, Nat.zero_add]

theorem drop_markLength (bytes : List UInt8) (place : Nat) :
    bytes.drop (markLength bytes + place) = (dropMark bytes).drop place := by
  obtain ⟨rest, rfl, hrest, hlength⟩ | ⟨hbytes, hlength⟩ := marked_or_unmarked bytes
  · rw [hrest, hlength, List.drop_length_add_append]
  · rw [hbytes, hlength, Nat.zero_add]

theorem wellFormed_dropMark : WellFormed (dropMark bytes) ↔ WellFormed bytes := by
  constructor
  · intro h
    obtain ⟨rest, rfl, hrest, -⟩ | ⟨hbytes, -⟩ := marked_or_unmarked bytes
    · rw [hrest] at h
      exact h.cons _
    · rwa [hbytes] at h
  · intro h
    by_contra hbroken
    obtain ⟨place, hbreaks⟩ := not_wellFormed_iff.mp hbroken
    exact not_wellFormed_iff.mpr ⟨_, hbreaks.of_dropMark⟩ h

end CategoryAudit.Text.Utf8
