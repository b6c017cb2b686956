import BorderProxy.Proofs.Field.NameAddr

/-! Another URI in a value. Whether the URI of a value stands in brackets or not, the one that is put in its place
does, and what stands around it stays. So the value then reads as the new URI, its parameters are those it had,
and of two URIs that are put there the second one counts. -/

namespace BorderProxy.NameAddr

open Text

/-- A text in the place of the URI; where there were no brackets it comes with brackets of its own. -/
def Parts.bracket (parts : Parts) (text : Text) : Text := if parts.bracketed then text else '<' :: (text ++ ['>'])

/-- The two forms of a value with their parts: the URI in brackets, or the URI with blanks in front and with
blanks or parameters behind. -/
inductive PartsOf : Text → Parts → Prop
  | bracketed {front inner : Text} (hfront : '<' ∉ front) (hinner : '>' ∉ inner) (back : Text) :
      PartsOf (front ++ '<' :: (inner ++ '>' :: back)) ⟨front ++ ['<'], inner, '>' :: back, true⟩
  | bare {front inner back : Text} (hopening : '<' ∉ front ++ inner ++ back)
      (hsemicolon : ';' ∉ front ++ inner)
      (hback : (∀ c ∈ back, isBlank c = true) ∨ ∃ rest, back = ';' :: rest) :
      PartsOf (front ++ inner ++ back) ⟨front, inner, back, false⟩

theorem partsOf_bare {value : Text} (hopening : '<' ∉ value) {parts : Parts}
    (h : parts? value = some parts) : PartsOf value parts := by
  have hvalue : value.takeWhile isBlank ++ trimStart value = value := List.takeWhile_append_dropWhile
  have hblanks : ';' ∉ value.takeWhile isBlank := fun hmem => by
    have hblank := List.all_eq_true.mp List.all_takeWhile ';' hmem
    cases hblank
  rw [parts?, cut?_eq_none_iff.mpr hopening] at h
  dsimp only at h
  cases hcut : cut? ';' (trimStart value) with
  | some pieces =>
      obtain ⟨inner, params⟩ := pieces
      obtain ⟨hrest, hinner⟩ := cut?_eq_some hcut
      rw [hcut] at h
      dsimp only at h
      rw [hrest, List.drop_left] at h
      rw [hrest, ← List.append_assoc] at hvalue
      split at h
      · cases h
      · obtain rfl := Option.some.inj h
        rw [← hvalue] at hopening
        have hsemicolon : ';' ∉ value.takeWhile isBlank ++ inner := by
          rw [List.mem_append, not_or]
          exact ⟨hblanks, hinner⟩
        have hbare := PartsOf.bare hopening hsemicolon (.inr ⟨params, rfl⟩)
        rwa [hvalue] at hbare
  | none =>
      -- Without parameters the URI reaches to the blanks at the end.
      have hnone := cut?_eq_none_iff.mp hcut
      obtain ⟨blanks, hback, hrest⟩ := exists_trimEnd_append (trimStart value)
      rw [hcut] at h
      dsimp only at h
      have hdrop : (trimStart value).drop (trimEnd (trimStart value)).length = blanks :=
        (congrArg (List.drop (trimEnd (trimStart value)).length) hrest).trans List.drop_left
      rw [hdrop] at h
      rw [hrest, ← List.append_assoc] at hvalue
      split at h
      · cases h
      · obtain rfl := Option.some.inj h
        rw [← hvalue] at hopening
        have hsemicolon : ';' ∉ value.takeWhile isBlank ++ trimEnd (trimStart value) := by
          rw [List.mem_append, not_or]
          refine ⟨hblanks, fun hmem => hnone ?_⟩
          rw [hrest]
          exact List.mem_append_left _ hmem
        have hbare := PartsOf.bare hopening hsemicolon (.inl hback)
        rwa [hvalue] at hbare

theorem partsOf_of_parts? {value : Text} {parts : Parts} (h : parts? value = some parts) :
    PartsOf value parts := by
  cases hcut : cut? '<' value with
  | none => exact partsOf_bare (cut?_eq_none_iff.mp hcut) h
  | some pieces =>
      obtain ⟨front, rest⟩ := pieces
      obtain ⟨rfl, hfront⟩ := cut?_eq_some hcut
      rw [parts?, hcut] at h
      obtain ⟨⟨inner, back⟩, hclose, rfl⟩ := Option.map_eq_some_iff.mp h
      obtain ⟨rfl, hinner⟩ := cut?_eq_some hclose
      exact .bracketed hfront hinner back

theorem replaceUri_of_parts? {value : Text} {parts : Parts} (h : parts? value = some parts) (uri : Uri) :
    replaceUri value uri = parts.before ++ parts.bracket uri.text ++ parts.after := by
  obtain ⟨before, inner, after, bracketed⟩ := parts
  rw [replaceUri, h]
  cases bracketed
  · simp [Parts.bracket]
  · rfl

namespace PartsOf

variable {value : Text} {parts : Parts}

theorem value_eq (h : PartsOf value parts) : value = parts.before ++ parts.uri ++ parts.after := by
  cases h with
  | bracketed => simp
  | bare => rfl

/-- With a text in the place of its URI a value is in brackets, in the first ones. -/
theorem exists_brackets (h : PartsOf value parts) : ∃ front back, '<' ∉ front ∧
    ∀ text, parts.before ++ parts.bracket text ++ parts.after = front ++ '<' :: (text ++ '>' :: back) := by
  cases h with
  | @bracketed front inner hfront hinner back => exact ⟨front, back, hfront, fun text => by simp [Parts.bracket]⟩
  | @bare front inner back hopening hsemicolon hback =>
      refine ⟨front, back, fun hmem => hopening ?_, fun text => by simp [Parts.bracket]⟩
      exact List.mem_append_left _ (List.mem_append_left _ hmem)

/-- Behind the URI of a value without brackets stands no name up to the first semicolon. -/
theorem paramAmong?_back {back name : Text}
    (hback : (∀ c ∈ back, isBlank c = true) ∨ ∃ rest, back = ';' :: rest) (hname : name ≠ []) :
    paramAmong? name (splitOn ';' back) = paramAmong? name ((splitOn ';' back).drop 1) := by
  rcases hback with hblank | ⟨rest, rfl⟩
  · have hsemicolon : ';' ∉ back := fun hmem => by
      have hmark := hblank ';' hmem
      cases hmark
    rw [splitOn_of_not_mem hsemicolon]
    exact paramAmong?_blanks hname hblank []
  · have hsplit : splitOn ';' ([] ++ ';' :: rest) = [] :: splitOn ';' rest :=
      splitOn_append List.not_mem_nil rest
    rw [List.nil_append] at hsplit
    rw [hsplit]
    exact paramAmong?_blanks hname (fun c hc => absurd hc List.not_mem_nil) _

theorem param?_bracket (h : PartsOf value parts) (hbrackets : '<' ∈ value ∨ '>' ∉ value) (text : Text)
    {name : Text} (hname : name ≠ []) :
    param? (parts.before ++ parts.bracket text ++ parts.after) name = param? value name := by
  cases h with
  | @bracketed front inner hfront hinner back =>
      have hmoved := param?_append (front ++ '<' :: text) (front ++ '<' :: inner) back name
      simpa [Parts.bracket] using hmoved
  | @bare front inner back hopening hsemicolon hback =>
      have hclosing := hbrackets.resolve_left hopening
      have hbehind : '>' ∉ back := fun hmem => hclosing (List.mem_append_right _ hmem)
      obtain ⟨piece, pieces, hpieces⟩ := List.exists_cons_of_ne_nil (splitWhere_ne_nil (· == ';') back)
      have hsplit : splitOn ';' back = piece :: pieces := hpieces
      have hbefore : paramPieces (front ++ inner ++ back) = pieces := by
        rw [paramPieces, cutLast?_of_not_mem hclosing]
        dsimp only
        rw [splitOn_append_of_not_mem hsemicolon hsplit, List.drop_one, List.tail_cons]
      have hafter : paramPieces ((front ++ '<' :: text) ++ '>' :: back) = splitOn ';' back := by
        rw [paramPieces_append, if_neg hbehind]
      have hnamed := paramAmong?_back hback hname
      rw [hsplit, List.drop_one, List.tail_cons, ← hsplit, ← hafter, ← hbefore] at hnamed
      simpa [Parts.bracket, param?] using hnamed

end PartsOf

/-- Another URI is put into a value whose URI stands in brackets, or that has no bracket at all. The value then
reads as this URI, in its brackets or in new ones with all that stood around the old URI kept, and each parameter
with a name has the value that it had. A URI that is put there next takes the place of this one, as if this one
had never been there. A value with an opening bracket has a URI only if the bracket is closed. -/
theorem replaced_reads_anew {value : Text} {parts : Parts} (hparts : parts? value = some parts)
    (hbrackets : '<' ∈ value ∨ '>' ∉ value) (uri : Uri) (hclosing : '>' ∉ uri.text)
    (htrim : trim uri.text = uri.text) :
    uriText? (replaceUri value uri) = some uri.text ∧
      (value = parts.before ++ parts.uri ++ parts.after ∧
        replaceUri value uri = parts.before ++ parts.bracket uri.text ++ parts.after) ∧
        (∀ name, name ≠ [] → param? (replaceUri value uri) name = param? value name) ∧
          ∀ next, replaceUri (replaceUri value uri) next = replaceUri value next := by
  have hform := partsOf_of_parts? hparts
  have hreplaced := replaceUri_of_parts? hparts
  obtain ⟨front, back, hfront, hwritten⟩ := hform.exists_brackets
  have hanew : parts? (replaceUri value uri) = some ⟨front ++ ['<'], uri.text, '>' :: back, true⟩ := by
    rw [hreplaced, hwritten, parts?_of_brackets hfront hclosing]
  refine ⟨?_, ⟨hform.value_eq, hreplaced uri⟩, fun name hname => ?_, fun next => ?_⟩
  · rw [uriText?, hanew, Option.map_some, htrim]
  · rw [hreplaced, hform.param?_bracket hbrackets uri.text hname]
  · rw [replaceUri_of_parts? hanew, hreplaced, hwritten]
    simp [Parts.bracket]

/-- A URI of an address that faces away. -/
def awayUri (last : UInt8) (port : Option UInt16) : Uri := ⟨some .sip, none, ⟨.ip (.v4 192 0 2 last), port⟩, []⟩

/-- A value without brackets, and one with a display name and with parameters of its own and of its URI, where two
URIs are put one after the other. -/
theorem replaced_contacts :
    (replaceUri " sip:alice@10.0.0.5 ;tag=1".toList (awayUri 1 (some 5060)) =
        " <sip:192.0.2.1:5060>;tag=1".toList ∧
      uriText? (replaceUri " sip:alice@10.0.0.5 ;tag=1".toList (awayUri 1 (some 5060))) =
        some "sip:192.0.2.1:5060".toList ∧
      param? (replaceUri " sip:alice@10.0.0.5 ;tag=1".toList (awayUri 1 (some 5060))) "TAG".toList =
        some "1".toList) ∧
      replaceUri (replaceUri "\"Alice\" <sip:alice@10.0.0.5;lr>;expires=60".toList (awayUri 1 (some 5060)))
          (awayUri 2 none) =
        "\"Alice\" <sip:192.0.2.2>;expires=60".toList := by
  have hbare : parts? " sip:alice@10.0.0.5 ;tag=1".toList =
      some ⟨[' '], "sip:alice@10.0.0.5 ".toList, ";tag=1".toList, false⟩ := by
    decide +kernel
  have hbracketed : parts? "\"Alice\" <sip:alice@10.0.0.5;lr>;expires=60".toList =
      some ⟨"\"Alice\" <".toList, "sip:alice@10.0.0.5;lr".toList, ">;expires=60".toList, true⟩ := by
    decide +kernel
  have huri : (awayUri 1 (some 5060)).text = "sip:192.0.2.1:5060".toList := by decide +kernel
  have hclosing : '>' ∉ (awayUri 1 (some 5060)).text := by decide +kernel
  have htrim : trim (awayUri 1 (some 5060)).text = (awayUri 1 (some 5060)).text := by decide +kernel
  obtain ⟨hread, ⟨-, hwritten⟩, hparam, -⟩ :=
    replaced_reads_anew hbare (.inr (by decide)) (awayUri 1 (some 5060)) hclosing htrim
  obtain ⟨-, -, -, htwice⟩ :=
    replaced_reads_anew hbracketed (.inl (by decide)) (awayUri 1 (some 5060)) hclosing htrim
  refine ⟨⟨hwritten.trans ?_, hread.trans (congrArg some huri), (hparam _ (by decide)).trans ?_⟩,
    (htwice (awayUri 2 none)).trans ?_⟩
  all_goals decide +kernel

end BorderProxy.NameAddr
