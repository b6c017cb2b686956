/-! Text as a list of characters: blanks, trimming, cutting and splitting, and letter case. Protocol
text is compared without regard to the case of ASCII letters only, and blanks are the characters with
the Unicode property White_Space. -/

namespace BorderProxy

/-- Text is handled as the list of its characters. -/
abbrev Text := List Char

namespace Text

/-- The characters with the property White_Space. -/
def isBlank (c : Char) : Bool :=
  let n := c.toNat
  (9 ≤ n && n ≤ 13) || n == 0x20 || n == 0x85 || n == 0xA0 || n == 0x1680 ||
    (0x2000 ≤ n && n ≤ 0x200A) || n == 0x2028 || n == 0x2029 || n == 0x202F || n == 0x205F ||
    n == 0x3000

/-- Drops the longest tail whose characters all satisfy `p`. -/
def dropEndWhile (p : Char → Bool) : Text → Text
  | [] => []
  | c :: cs =>
    match dropEndWhile p cs with
    | [] => if p c then [] else [c]
    | kept => c :: kept

def trimStart (t : Text) : Text := t.dropWhile isBlank

def trimEnd (t : Text) : Text := dropEndWhile isBlank t

def trim (t : Text) : Text := trimEnd (trimStart t)

/-- Lower case for ASCII letters; all other characters stay. -/
def lower (t : Text) : Text := t.map Char.toLower

/-- Upper case for ASCII letters; all other characters stay. -/
def upper (t : Text) : Text := t.map Char.toUpper

/-- Equality up to the case of ASCII letters. -/
def sameLetters (a b : Text) : Bool := lower a == lower b

/-- What follows `start`, if the list begins with it. -/
def afterPrefix? {α : Type} [BEq α] : (start : List α) → List α → Option (List α)
  | [], t => some t
  | _ :: _, [] => none
  | p :: ps, c :: cs => if p == c then afterPrefix? ps cs else none

theorem afterPrefix?_eq_some_iff {α : Type} [BEq α] [LawfulBEq α] {start t rest : List α} :
    afterPrefix? start t = some rest ↔ t = start ++ rest := by
  induction start generalizing t with
  | nil => simp [afterPrefix?]
  | cons p ps ih =>
    cases t with
    | nil => simp [afterPrefix?]
    | cons c cs =>
      by_cases h : p = c
      · simp [afterPrefix?, h, ih]
      · simp [afterPrefix?, h, Ne.symm h]

/-- What follows `start`, if the text begins with it up to the case of ASCII letters. -/
def afterPrefixAnyCase? (start t : Text) : Option Text :=
  if sameLetters start (t.take start.length) then some (t.drop start.length) else none

/-- Whether the list begins with `start`. -/
def startsWith {α : Type} [BEq α] (start t : List α) : Bool := (afterPrefix? start t).isSome

/-- The parts before and after the first occurrence of a non-empty pattern. -/
def cutAt? {α : Type} [BEq α] (pattern : List α) : List α → Option (List α × List α)
  | [] => none
  | c :: cs =>
    match afterPrefix? pattern (c :: cs) with
    | some after => some ([], after)
    | none => (cutAt? pattern cs).map fun parts => (c :: parts.1, parts.2)

/-- Whether a non-empty pattern occurs in the list. -/
def occursIn {α : Type} [BEq α] (pattern t : List α) : Bool := (cutAt? pattern t).isSome

/-- The parts before and after the first character that satisfies `p`. -/
def cutWhere? (p : Char → Bool) : Text → Option (Text × Text)
  | [] => none
  | c :: cs =>
    if p c then some ([], cs) else (cutWhere? p cs).map fun parts => (c :: parts.1, parts.2)

/-- The parts before and after the first `mark`. -/
def cut? (mark : Char) (t : Text) : Option (Text × Text) := cutWhere? (· == mark) t

theorem cut?_eq_some {mark : Char} {t before after : Text} (h : cut? mark t = some (before, after)) :
    t = before ++ mark :: after ∧ mark ∉ before := by
  induction t generalizing before with
  | nil => simp [cut?, cutWhere?] at h
  | cons c cs ih =>
    simp only [cut?, cutWhere?] at h ih
    split at h
    · rename_i hc
      obtain ⟨rfl, rfl⟩ : [] = before ∧ cs = after := by simpa using h
      simpa using hc
    · rename_i hc
      obtain ⟨parts, hparts, heq⟩ := Option.map_eq_some_iff.mp h
      obtain ⟨rfl, rfl⟩ := Prod.mk.inj heq
      obtain ⟨rfl, hnot⟩ := ih hparts
      refine ⟨rfl, ?_⟩
      rw [List.mem_cons, not_or]
      exact ⟨fun e => hc (by simp [e]), hnot⟩

theorem cut?_eq_none_iff {mark : Char} {t : Text} : cut? mark t = none ↔ mark ∉ t := by
  induction t with
  | nil => simp [cut?, cutWhere?]
  | cons c cs ih =>
    simp only [cut?, cutWhere?] at ih ⊢
    by_cases h : c = mark
    · simp [h]
    · simp [h, Ne.symm h, ih]

/-- The parts before and after the last `mark`. -/
def cutLast? (mark : Char) : Text → Option (Text × Text)
  | [] => none
  | c :: cs =>
    match cutLast? mark cs with
    | some parts => some (c :: parts.1, parts.2)
    | none => if c == mark then some ([], cs) else none

/-- The pieces between the characters that satisfy `p`; there is always at least one piece. -/
def splitWhere (p : Char → Bool) : Text → List Text
  | [] => [[]]
  | c :: cs =>
    if p c then [] :: splitWhere p cs
    else
      match splitWhere p cs with
      | [] => [[c]]
      | piece :: pieces => (c :: piece) :: pieces

def splitOn (mark : Char) (t : Text) : List Text := splitWhere (· == mark) t

/-- The pieces joined by a separator; undoes `splitOn` for a separator of one character. -/
def join (separator : Text) : List Text → Text
  | [] => []
  | [piece] => piece
  | piece :: pieces => piece ++ separator ++ join separator pieces

theorem splitWhere_ne_nil (p : Char → Bool) (t : Text) : splitWhere p t ≠ [] := by
  cases t with
  | nil => simp [splitWhere]
  | cons c cs =>
    rw [splitWhere]
    split
    · simp
    · split <;> simp

theorem join_cons_cons (separator piece next : Text) (pieces : List Text) :
    join separator (piece :: next :: pieces) = piece ++ separator ++ join separator (next :: pieces) :=
  rfl

theorem join_splitOn (mark : Char) (t : Text) : join [mark] (splitOn mark t) = t := by
  induction t with
  | nil => rfl
  | cons c cs ih =>
    simp only [splitOn, splitWhere] at ih ⊢
    have hne := splitWhere_ne_nil (· == mark) cs
    cases hs : splitWhere (· == mark) cs with
    | nil => exact absurd hs hne
    | cons piece pieces =>
      rw [hs] at ih
      by_cases h : c = mark
      · simp [h, join_cons_cons, ih]
      · cases pieces <;> simp_all [join]

/-- The non-empty pieces between blanks. -/
def words (t : Text) : List Text := (splitWhere isBlank t).filter (· != [])

end Text

end BorderProxy
