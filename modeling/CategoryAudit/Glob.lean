/-!
# Glob patterns

`*` stands for any text, `?` for any character, `[...]` for one of some characters and `[!...]`
for any other one. No character is special to the text that is matched: `*` and `?` also stand
for slashes and line breaks. Letters match only in their own case.
-/

namespace CategoryAudit.Glob

inductive Piece where
  | star
  | any
  | literal (c : Char)
  /-- One character inside, or if `negated` outside, all the ranges. -/
  | set (negated : Bool) (ranges : List (Char × Char))
  deriving BEq, DecidableEq, Repr

def cut? (mark : Char) : List Char → Option (List Char × List Char)
  | [] => none
  | c :: rest =>
    if c == mark then some ([], rest)
    else (cut? mark rest).map fun (before, after) => (c :: before, after)

theorem length_of_cut? {mark : Char} {cs before after : List Char}
    (h : cut? mark cs = some (before, after)) : after.length < cs.length := by
  induction cs generalizing before with
  | nil => simp [cut?] at h
  | cons c rest ih =>
    rw [cut?] at h
    split at h
    · simp_all
    · obtain ⟨⟨b, a⟩, hc, he⟩ := Option.map_eq_some_iff.1 h
      obtain ⟨-, rfl⟩ := Prod.mk.inj he
      exact Nat.lt_succ_of_lt (ih hc)

/-! ## Bracket expressions -/

/-- Cuts the inside of brackets at the hyphens that may form ranges. The first `keep` characters
of each part are taken as they are, so a hyphen among them stands for itself. -/
def cutAtHyphens (keep : Nat) (cs : List Char) : List (List Char) :=
  match _h : cut? '-' (cs.drop keep) with
  | some (before, after) => (cs.take keep ++ before) :: cutAtHyphens 2 after
  | none => [cs]
termination_by cs.length
decreasing_by
  have := length_of_cut? _h
  simp only [List.length_drop] at this
  omega

def keepLastHyphen : List (List Char) → List (List Char)
  | [] => []
  | [part] => [part]
  | [part, []] => [part ++ ['-']]
  | part :: rest => part :: keepLastHyphen rest

def joinIfEmpty (part : List Char) : List (List Char) → List (List Char)
  | next :: rest =>
    match part.getLast?, next.head? with
    | some low, some high =>
      if high < low then (part.dropLast ++ next.drop 1) :: rest else part :: next :: rest
    | _, _ => part :: next :: rest
  | [] => [part]

/-- The ranges of some parts: from the end of each to the beginning of the next, and all other
characters alone. -/
def rangesOf : List Char → List (List Char) → List (Char × Char)
  | part, [] => part.map fun c => (c, c)
  | part, next :: rest =>
    let alone := part.dropLast.map fun c => (c, c)
    match part.getLast?, next with
    | some low, high :: more => alone ++ (low, high) :: rangesOf more rest
    | _, _ => alone ++ rangesOf next rest

def bracket (inside : List Char) : Piece :=
  let keep := if inside.head? == some '!' then 2 else 1
  let parts := (keepLastHyphen (cutAtHyphens keep inside)).foldr joinIfEmpty []
  match parts with
  | ('!' :: part) :: rest => .set true (rangesOf part rest)
  | part :: rest => .set false (rangesOf part rest)
  | [] => .set false []

def unclosing : List Char → Nat
  | '!' :: ']' :: _ => 2
  | '!' :: _ => 1
  | ']' :: _ => 1
  | _ => 0

def bracketed? (cs : List Char) : Option (List Char × List Char) :=
  (cut? ']' (cs.drop (unclosing cs))).map fun (before, after) =>
    (cs.take (unclosing cs) ++ before, after)

theorem length_of_bracketed? {cs inside rest : List Char}
    (h : bracketed? cs = some (inside, rest)) : rest.length < cs.length := by
  obtain ⟨⟨before, after⟩, hc, he⟩ := Option.map_eq_some_iff.1 h
  obtain ⟨-, rfl⟩ := Prod.mk.inj he
  have := length_of_cut? hc
  simp only [List.length_drop] at this
  omega

/-! ## Patterns -/

/-- The pieces of a pattern. A bracket that is never closed stands for itself. -/
def parse (pattern : List Char) : List Piece :=
  match pattern with
  | [] => []
  | '*' :: rest => .star :: parse rest
  | '?' :: rest => .any :: parse rest
  | '[' :: rest =>
    match _h : bracketed? rest with
    | some (inside, after) => bracket inside :: parse after
    | none => .literal '[' :: parse rest
  | c :: rest => .literal c :: parse rest
termination_by pattern.length
decreasing_by
  all_goals simp only [List.length_cons, Nat.lt_succ_self]
  exact Nat.lt_succ_of_lt (length_of_bracketed? _h)

def Piece.accepts : Piece → Char → Bool
  | .star, _ => false
  | .any, _ => true
  | .literal d, c => c == d
  | .set negated ranges, c => ranges.any (fun r => r.1 ≤ c && c ≤ r.2) != negated

/-- For each end part of a text, the longest first, whether it or a shorter one is marked. -/
def markLonger : List Bool → List Bool
  | [] => []
  | b :: rest => (b || rest.any id) :: markLonger rest

/-- For each end part of a text, the longest first, whether the pieces stand for it. -/
def ends (text : List Char) : List Piece → List Bool
  | [] => List.replicate text.length false ++ [true]
  | .star :: rest => markLonger (ends text rest)
  | piece :: rest =>
    List.zipWith (fun c later => piece.accepts c && later) text (ends text rest).tail ++ [false]

def accepts (pattern text : String) : Bool :=
  (ends text.toList (parse pattern.toList)).head?.getD false

/-- Whether one of some patterns stands for a path or for the name at its end. -/
def excludes (patterns : List String) (path name : String) : Bool :=
  patterns.any fun p => accepts p path || accepts p name

end CategoryAudit.Glob
