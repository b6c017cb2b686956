import BorderProxy.Proofs.Field.CommaList
import BorderProxy.Proofs.Field.NameAddr

/-! Name-addr values as they are written: a display name in quotes, a URI in brackets and parameters whose values
are tokens or stand in quotes. Values without quotes inside their quotes are found again in a list of them. The
URI and the parameters are found by marks that quotes do not hide, so the URI is found where the display name
holds no opening bracket, and a parameter where no quotes hold a mark of parameters. -/

namespace BorderProxy.NameAddr

open Text CommaList

/-! Values as text. -/

/-- A text as it stands within quotes: a quote or a backslash in it has a backslash in front. -/
def escape (t : Text) : Text := t.flatMap fun c => if c = '"' ∨ c = '\\' then ['\\', c] else [c]

def quote (t : Text) : Text := '"' :: (escape t ++ ['"'])

def IsToken (t : Text) : Prop := t ≠ [] ∧ ∀ c ∈ t, isTokenChar c = true

instance (t : Text) : Decidable (IsToken t) :=
  decidable_of_iff (t ≠ [] ∧ t.all isTokenChar = true) (and_congr_right fun _ => List.all_eq_true)

inductive WrittenValue where
  | token (t : Text) (isToken : IsToken t)
  | quoted (content : Text)

def WrittenValue.text : WrittenValue → Text
  | .token t _ => t
  | .quoted content => quote content

/-- What stands within the quotes of a value. -/
def WrittenValue.content? : WrittenValue → Option Text
  | .token _ _ => none
  | .quoted content => some content

structure WrittenParam where
  name : Text
  value : WrittenValue
  name_isToken : IsToken name

def WrittenParam.piece (p : WrittenParam) : Text := p.name ++ '=' :: p.value.text

def WrittenParam.text (p : WrittenParam) : Text := ';' :: p.piece

/-- A display name and the blanks behind it. -/
structure DisplayName where
  name : Text
  gap : Text
  gap_blank : ∀ c ∈ gap, isBlank c = true

structure Written where
  display : Option DisplayName
  uri : Text
  params : List WrittenParam
  noOpening : '<' ∉ uri
  noClosing : '>' ∉ uri
  noQuote : '"' ∉ uri
  trimmed : trim uri = uri

namespace Written

variable (w : Written)

/-- What stands in front of the brackets. -/
def displayText : Text := (w.display.map fun d => quote d.name ++ d.gap).getD []

def bracketed : Text := '<' :: (w.uri ++ ['>'])

def text : Text := w.displayText ++ w.bracketed ++ w.params.flatMap WrittenParam.text

theorem text_eq :
    w.text = w.displayText ++ '<' :: (w.uri ++ '>' :: w.params.flatMap WrittenParam.text) := by
  simp [text, bracketed]

/-- All that stands within quotes, without the backslashes. -/
def quotedTexts : List Text :=
  (w.display.map (·.name)).toList ++ w.params.filterMap (·.value.content?)

/-- The value of the first parameter with a name, in any case. -/
def param? (name : Text) : Option Text :=
  (w.params.find? fun p => sameLetters p.name name).map (·.value.text)

end Written

/-- The parameters up to the first one with a name. -/
def upTo (name : Text) : List WrittenParam → List WrittenParam
  | [] => []
  | p :: ps => if sameLetters p.name name then [p] else p :: upTo name ps

/-! Tokens and quotes. -/

theorem IsToken.not_mem {t : Text} (h : IsToken t) {c : Char} (hc : isTokenChar c = false) : c ∉ t :=
  fun hmem => by
    rw [h.2 c hmem] at hc
    cases hc

theorem not_blank_of_isAlphanum {c : Char} (h : c.isAlphanum = true) : isBlank c = false := by
  have hclass : (c.isUpper || c.isLower || c.isDigit) = true := h
  rw [Bool.or_eq_true, Bool.or_eq_true] at hclass
  obtain (hupper | hlower) | hdigit := hclass
  · have hcode : 65 ≤ c.toNat ∧ c.toNat ≤ 90 := of_decide_eq_true hupper
    exact not_blank_of_visible (by omega) (by omega)
  · obtain ⟨hlow, hhigh⟩ := Bool.and_eq_true_iff.mp hlower
    have hcode : 97 ≤ c.toNat ∧ c.toNat ≤ 122 := ⟨of_decide_eq_true hlow, of_decide_eq_true hhigh⟩
    exact not_blank_of_visible (by omega) (by omega)
  · obtain ⟨hlow, hhigh⟩ := Bool.and_eq_true_iff.mp hdigit
    have hcode : 48 ≤ c.toNat ∧ c.toNat ≤ 57 := ⟨of_decide_eq_true hlow, of_decide_eq_true hhigh⟩
    exact not_blank_of_visible (by omega) (by omega)

theorem not_blank_of_isTokenChar {c : Char} (h : isTokenChar c = true) : isBlank c = false := by
  rw [isTokenChar, Bool.or_eq_true] at h
  rcases h with h | h
  · exact not_blank_of_isAlphanum h
  · have hmarks : ("-.!%*_+`'~".toList).all (isBlank · = false) = true := by decide
    exact of_decide_eq_true (List.all_eq_true.mp hmarks c (List.contains_iff_mem.mp h))

theorem IsToken.isWord {t : Text} (h : IsToken t) : IsWord t :=
  ⟨h.1, fun c hc => not_blank_of_isTokenChar (h.2 c hc)⟩

theorem IsToken.passes {t : Text} (h : IsToken t) (p : Position) : p.Passes t := by
  refine .of_plain p fun c hc hmark => ?_
  have hmarks : Position.marks.all (isTokenChar · = false) = true := by decide
  exact h.not_mem (of_decide_eq_true (List.all_eq_true.mp hmarks c hmark)) hc

theorem quote_not_mem_escape {t : Text} (h : '"' ∉ t) : '"' ∉ escape t := by
  intro hmem
  obtain ⟨c, hc, hmem⟩ := List.mem_flatMap.mp hmem
  have hne : c ≠ '"' := fun heq => h (heq ▸ hc)
  split at hmem
  · rcases List.mem_cons.mp hmem with heq | hmem
    · exact absurd heq (by decide)
    · exact hne (List.mem_singleton.mp hmem).symm
  · exact hne (List.mem_singleton.mp hmem).symm

/-- Quotes around a text without quotes close behind it. -/
theorem passes_quote {t : Text} (h : '"' ∉ t) : Position.Passes {} (quote t) :=
  .enclosed rfl (by decide) (.of_quoted rfl (quote_not_mem_escape h)) rfl (by decide)

theorem WrittenValue.passes {v : WrittenValue} (h : ∀ t ∈ v.content?, '"' ∉ t) :
    Position.Passes {} v.text := by
  cases v with
  | token t isToken => exact isToken.passes {}
  | quoted content => exact passes_quote (h content rfl)

theorem WrittenParam.passes {p : WrittenParam} (h : ∀ t ∈ p.value.content?, '"' ∉ t) :
    Position.Passes {} p.text := by
  have hsemicolon : Position.Passes {} [';'] := .of_plain {} (List.forall_mem_singleton.mpr (by decide))
  have hequals : Position.Passes {} ['='] := .of_plain {} (List.forall_mem_singleton.mpr (by decide))
  exact hsemicolon.append ((p.name_isToken.passes {}).append (hequals.append (WrittenValue.passes h)))

/-! Values in lists. -/

namespace Written

variable {w : Written}

theorem isWhole_text (h : ∀ t ∈ w.quotedTexts, '"' ∉ t) : IsWhole w.text := by
  have hdisplay : Position.Passes {} w.displayText := by
    unfold displayText
    cases hw : w.display with
    | none => exact .nil {}
    | some d =>
        have hname : d.name ∈ w.quotedTexts :=
          List.mem_append_left _ (by rw [hw]; exact List.mem_singleton_self d.name)
        exact (passes_quote (h d.name hname)).append (.of_blanks {} d.gap_blank)
  have huri : Position.Passes {} w.bracketed :=
    .enclosed rfl (by decide) (.of_bracketed rfl w.noQuote w.noOpening w.noClosing) rfl (by decide)
  have hparams : ∀ ps : List WrittenParam, (∀ p ∈ ps, ∀ t ∈ p.value.content?, '"' ∉ t) →
      Position.Passes {} (ps.flatMap WrittenParam.text) := by
    intro ps
    induction ps with
    | nil => exact fun _ => .nil {}
    | cons p ps ih =>
        intro hps
        exact (WrittenParam.passes (hps p List.mem_cons_self)).append
          (ih fun q hq => hps q (List.mem_cons_of_mem _ hq))
  have hquoted : ∀ p ∈ w.params, ∀ t ∈ p.value.content?, '"' ∉ t := fun p hp t ht =>
    h t (List.mem_append_right _ (List.mem_filterMap.mpr ⟨p, hp, ht⟩))
  exact (hdisplay.append huri).append (hparams w.params hquoted)

theorem beginsItem_text (w : Written) : BeginsItem w.text := by
  unfold text displayText bracketed
  cases w.display with
  | none => exact ⟨'<', _, rfl, by decide, by decide⟩
  | some d => exact ⟨'"', _, rfl, by decide, by decide⟩

/-- A text that ends with a character that is no blank. -/
def EndsVisibly (t : Text) : Prop := ∃ inner last, t = inner ++ [last] ∧ isBlank last = false

theorem EndsVisibly.append (front : Text) {t : Text} (h : EndsVisibly t) : EndsVisibly (front ++ t) := by
  obtain ⟨inner, last, rfl, hlast⟩ := h
  exact ⟨front ++ inner, last, (List.append_assoc _ _ _).symm, hlast⟩

theorem endsVisibly_value (v : WrittenValue) : EndsVisibly v.text := by
  cases v with
  | token t isToken =>
      obtain ⟨inner, last, ht⟩ := (List.eq_nil_or_concat t).resolve_left isToken.1
      rw [List.concat_eq_append] at ht
      have hlast : last ∈ t := ht ▸ List.mem_append_right _ (List.mem_singleton_self last)
      exact ⟨inner, last, ht, not_blank_of_isTokenChar (isToken.2 last hlast)⟩
  | quoted content => exact ⟨'"' :: escape content, '"', rfl, by decide⟩

theorem endsVisibly_param (p : WrittenParam) : EndsVisibly p.text := by
  have htext : p.text = ';' :: (p.name ++ ['=']) ++ p.value.text := by
    rw [List.cons_append, List.append_assoc]
    rfl
  rw [htext]
  exact (endsVisibly_value p.value).append _

theorem trim_text (w : Written) : trim w.text = w.text := by
  have hends : ∀ (ps : List WrittenParam) (front : Text), EndsVisibly front →
      EndsVisibly (front ++ ps.flatMap WrittenParam.text) := by
    intro ps
    induction ps with
    | nil =>
        intro front hfront
        rwa [List.flatMap_nil, List.append_nil]
    | cons p ps ih =>
        intro front _
        rw [List.flatMap_cons, ← List.append_assoc]
        exact ih _ ((endsVisibly_param p).append front)
  have hclosing : EndsVisibly w.bracketed := ⟨'<' :: w.uri, '>', rfl, by decide⟩
  obtain ⟨inner, last, hlast, hvisible⟩ := hends w.params _ (hclosing.append w.displayText)
  obtain ⟨c, cs, hfirst, hc, -⟩ := w.beginsItem_text
  exact trim_of_ends hc hvisible (by rw [hfirst]; rfl) hlast

/-! The URI. -/

/-- The URI is found unless the display name holds an opening bracket, and then only where the display name
itself reads as that URI in brackets. -/
theorem uriText?_text_iff (w : Written) : uriText? w.text = some w.uri ↔
    ('<' ∈ w.displayText → uriText? w.displayText = some w.uri) := by
  rw [text_eq]
  by_cases hopening : '<' ∈ w.displayText
  · obtain ⟨front, back, hdisplay, hfront⟩ := List.eq_append_cons_of_mem hopening
    rw [hdisplay, List.append_assoc, List.cons_append]
    by_cases hclosing : '>' ∈ back
    · obtain ⟨inner, behind, rfl, hinner⟩ := List.eq_append_cons_of_mem hclosing
      rw [List.append_assoc, List.cons_append, uriText?_of_brackets hfront hinner,
        uriText?_of_brackets hfront hinner]
      simp
    · -- What is read reaches to the bracket behind the URI, and so holds the one in front of it.
      have hinner : '>' ∉ back ++ '<' :: w.uri := by
        rw [List.mem_append, List.mem_cons, not_or, not_or]
        exact ⟨hclosing, by decide, w.noClosing⟩
      have hread := uriText?_of_brackets hfront hinner (w.params.flatMap WrittenParam.text)
      rw [List.append_assoc, List.cons_append] at hread
      rw [hread, uriText?_of_open hfront hclosing]
      constructor
      · intro h
        have hmem : '<' ∈ trim (back ++ '<' :: w.uri) :=
          mem_trim_of_mem (List.mem_append_right _ List.mem_cons_self) (by decide)
        rw [Option.some.inj h] at hmem
        exact absurd hmem w.noOpening
      · intro h
        cases h (List.mem_append_right _ List.mem_cons_self)
  · rw [uriText?_of_brackets hopening w.noClosing, w.trimmed]
    exact ⟨fun _ h => absurd h hopening, fun _ => rfl⟩

/-! The parameters. -/

theorem readParam_piece (p : WrittenParam) : readParam p.piece = (p.name, p.value.text) := by
  have hvalue : trim p.value.text = p.value.text := by
    cases p.value with
    | token t isToken => exact trim_of_isWord isToken.isWord
    | quoted content =>
        have hends : quote content = ('"' :: escape content) ++ ['"'] := rfl
        exact trim_of_ends (by decide) (by decide) rfl hends
  rw [WrittenParam.piece, readParam_written p.name_isToken.isWord (p.name_isToken.not_mem (by decide)), hvalue]

theorem splitOn_semicolon (t : Text) : splitOn ';' (';' :: t) = [] :: splitOn ';' t :=
  splitOn_append List.not_mem_nil t

/-- Each parameter begins with a semicolon, so parameters are split into nothing and their pieces. -/
theorem exists_splitOn_params (ps : List WrittenParam) :
    ∃ pieces, splitOn ';' (ps.flatMap WrittenParam.text) = [] :: pieces := by
  cases ps with
  | nil => exact ⟨[], rfl⟩
  | cons p ps =>
      exact ⟨_, splitOn_semicolon (p.piece ++ ps.flatMap WrittenParam.text)⟩

/-- A parameter is found among the pieces if neither its value nor one in front of it is split. -/
theorem paramAmong?_params {name : Text} (hname : name ≠ []) {ps : List WrittenParam}
    (h : ∀ p ∈ upTo name ps, ';' ∉ p.value.text) :
    paramAmong? name (splitOn ';' (ps.flatMap WrittenParam.text)) =
      (ps.find? fun p => sameLetters p.name name).map (·.value.text) := by
  have hnone : ∀ c ∈ ([] : Text), isBlank c = true := by simp
  induction ps with
  | nil => exact paramAmong?_blanks hname hnone []
  | cons p ps ih =>
      have hp : ';' ∉ p.value.text := by
        refine h p ?_
        rw [upTo]
        split <;> exact List.mem_cons_self
      have hpiece : ';' ∉ p.piece := by
        rw [WrittenParam.piece, List.mem_append, List.mem_cons, not_or, not_or]
        exact ⟨p.name_isToken.not_mem (by decide), by decide, hp⟩
      obtain ⟨pieces, hpieces⟩ := exists_splitOn_params ps
      have hjoined := splitOn_append_of_not_mem hpiece hpieces
      rw [List.append_nil] at hjoined
      rw [List.flatMap_cons, WrittenParam.text, List.cons_append, splitOn_semicolon, hjoined,
        paramAmong?_blanks hname hnone, paramAmong?_cons, readParam_piece, List.find?_cons]
      by_cases hfound : sameLetters p.name name = true
      · rw [if_pos hfound, hfound]
        rfl
      · rw [upTo, if_neg hfound] at h
        rw [hpieces, paramAmong?_blanks hname hnone] at ih
        rw [if_neg hfound, Bool.eq_false_iff.mpr hfound]
        exact ih fun q hq => h q (List.mem_cons_of_mem _ hq)

theorem param?_text {w : Written} {name : Text} (hname : name ≠ [])
    (hclosing : ∀ p ∈ w.params, '>' ∉ p.value.text) (hsplit : ∀ p ∈ upTo name w.params, ';' ∉ p.value.text) :
    NameAddr.param? w.text name = w.param? name := by
  have hbehind : '>' ∉ w.params.flatMap WrittenParam.text := by
    intro hmem
    obtain ⟨p, hp, hmem⟩ := List.mem_flatMap.mp hmem
    rw [WrittenParam.text, WrittenParam.piece, List.mem_cons, List.mem_append, List.mem_cons] at hmem
    rcases hmem with heq | hmem | heq | hmem
    · exact absurd heq (by decide)
    · exact p.name_isToken.not_mem (by decide) hmem
    · exact absurd heq (by decide)
    · exact hclosing p hp hmem
  have hpieces := paramPieces_append (w.displayText ++ '<' :: w.uri) (w.params.flatMap WrittenParam.text)
  rw [if_neg hbehind, List.append_assoc, List.cons_append, ← text_eq] at hpieces
  rw [NameAddr.param?, hpieces]
  exact paramAmong?_params hname hsplit

end Written

/-- A list of values is taken apart into the values where none of them has a quote within its quotes, and in general
exactly if, quotes within quotes counted like others, no comma of a value stands outside quotes and brackets and
every value but the last one ends outside of them. Of each value, the URI is found unless the display name holds
an opening bracket and does not itself read as that URI in brackets. The value of the first parameter with a name
is found if no value of a parameter holds a closing bracket, and none up to that one a semicolon, and it is never
found if it holds one of the two itself. -/
theorem values_taken_apart (ws : List Written) :
    let texts := ws.map Written.text
    let found := items (join ", ".toList texts)
    ((∀ w ∈ ws, ∀ t ∈ w.quotedTexts, '"' ∉ t) → found = texts) ∧
      (found = texts ↔
        (∀ t ∈ texts, Position.unbroken {} t = true) ∧ ∀ t ∈ texts.dropLast, Position.behind {} t = {}) ∧
      ∀ w ∈ ws,
        (uriText? w.text = some w.uri ↔ ('<' ∈ w.displayText → uriText? w.displayText = some w.uri)) ∧
          ∀ name, name ≠ [] →
            ((∀ p ∈ w.params, '>' ∉ p.value.text) → (∀ p ∈ upTo name w.params, ';' ∉ p.value.text) →
              NameAddr.param? w.text name = w.param? name) ∧
            ∀ value, w.param? name = some value → ';' ∈ value ∨ '>' ∈ value →
              NameAddr.param? w.text name ≠ some value := by
  intro texts found
  have hwritten : ∀ t ∈ texts, BeginsItem t ∧ trim t = t := by
    intro t ht
    obtain ⟨w, -, rfl⟩ := List.mem_map.mp ht
    exact ⟨w.beginsItem_text, w.trim_text⟩
  refine ⟨fun hquoted => ?_, items_join_iff hwritten, fun w _ => ⟨w.uriText?_text_iff, fun name hname =>
    ⟨Written.param?_text hname, fun value _ hmark hfound => ?_⟩⟩⟩
  · have hwhole : ∀ t ∈ texts, IsWhole t := by
      intro t ht
      obtain ⟨w, hw, rfl⟩ := List.mem_map.mp ht
      exact Written.isWhole_text (hquoted w hw)
    exact (items_join_iff hwritten).mpr
      ⟨fun t ht => (hwhole t ht).unbroken, fun t ht => (hwhole t (List.dropLast_subset texts ht)).behind⟩
  · obtain ⟨hsemicolon, hclosing⟩ := not_mem_of_param? hfound
    exact hmark.elim hsemicolon hclosing

namespace Written

/-- A display name with a space behind it. -/
def nameAndSpace (name : Text) : DisplayName := ⟨name, [' '], List.all_eq_true.mp (by decide)⟩

/-- A value with a URI that has a parameter of its own. -/
def toLooseUri (display : Option DisplayName) (params : List WrittenParam) : Written where
  display := display
  uri := "sip:b@b.example;lr".toList
  params := params
  noOpening := by decide
  noClosing := by decide
  noQuote := by decide
  trimmed := by decide +kernel

def withCommas : Written :=
  toLooseUri (some (nameAndSpace "B, b".toList))
    [⟨"tag".toList, .token "1".toList (by decide), by decide⟩, ⟨"text".toList, .quoted "a,b".toList, by decide⟩]

end Written

open Written in
/-- A list of a value with commas in its quotes and one without quotes and parameters. -/
theorem taken_apart_withCommas :
    items "\"B, b\" <sip:b@b.example;lr>;tag=1;text=\"a,b\", <sip:b@b.example;lr>".toList =
        [withCommas, toLooseUri none []].map text ∧
      uriText? withCommas.text = some "sip:b@b.example;lr".toList ∧
        NameAddr.param? withCommas.text "TAG".toList = some "1".toList ∧
          NameAddr.param? withCommas.text "lr".toList = none := by
  have hlist : "\"B, b\" <sip:b@b.example;lr>;tag=1;text=\"a,b\", <sip:b@b.example;lr>".toList =
      join ", ".toList ([withCommas, toLooseUri none []].map text) := by
    decide +kernel
  have hquotes : ∀ w ∈ [withCommas, toLooseUri none []], ∀ t ∈ w.quotedTexts, '"' ∉ t := by decide +kernel
  have hname : ¬ '<' ∈ withCommas.displayText := by decide +kernel
  obtain ⟨hitems, -, hvalues⟩ := values_taken_apart [withCommas, toLooseUri none []]
  obtain ⟨huri, hparams⟩ := hvalues withCommas List.mem_cons_self
  have htag := (hparams "TAG".toList (by decide)).1 (by decide +kernel) (by decide +kernel)
  have hlr := (hparams "lr".toList (by decide)).1 (by decide +kernel) (by decide +kernel)
  refine ⟨hlist ▸ hitems hquotes, huri.mpr fun h => absurd h hname, htag.trans ?_, hlr.trans ?_⟩
  · decide +kernel
  · decide +kernel

namespace Written

/-- The display name holds a quote and then a comma. -/
def quoteInName : Written := toLooseUri (some (nameAndSpace "a\",b".toList)) []

/-- The display name stands in brackets. -/
def bracketsInName : Written := toLooseUri (some (nameAndSpace "<home>".toList)) []

/-- The quotes of a parameter hold what looks like another parameter. -/
def paramInQuotes : Written := toLooseUri none [⟨"x".toList, .quoted "1;y=2".toList, by decide⟩]

end Written

open Written in
/-- A quote within quotes breaks the list at the comma behind it, brackets within quotes are taken for those of the
URI, and a semicolon within quotes ends the value and begins another parameter. -/
theorem quoted_marks_misread :
    items (join ", ".toList [quoteInName.text]) =
        ["\"a\\\"".toList, "b\" <sip:b@b.example;lr>".toList] ∧
      uriText? bracketsInName.text = some "home".toList ∧
        (paramInQuotes.param? "x".toList = some "\"1;y=2\"".toList ∧
          NameAddr.param? paramInQuotes.text "x".toList = some "\"1".toList) ∧
          paramInQuotes.param? "y".toList = none ∧
            NameAddr.param? paramInQuotes.text "y".toList = some "2\"".toList := by
  decide +kernel

end BorderProxy.NameAddr
