import BorderProxy.Proofs.Address.Letters
import BorderProxy.Proofs.Field.Written
import BorderProxy.Proofs.Uri.Reading

/-! The mark of loose routing. It is looked for among the pieces between the semicolons of the whole text of a URI.
The parameters of a URI that is read to its end are the last pieces, so the mark is found where it is a parameter. What
looks like it may also stand in front of them, in a user part with a semicolon. -/

namespace BorderProxy

open Text

/-- Whether a URI carries the mark of loose routing: a parameter "lr", in any case and with a value or without. -/
def Uri.isLooseRouter (u : Uri) : Bool := u.params.any fun p => sameLetters p.name "lr".toList

/-- Whether a piece of a text is the mark of loose routing. -/
def isLooseMark (piece : Text) : Bool := sameLetters (readParam piece).1 "lr".toList

/-- Whether the mark of loose routing stands behind a semicolon of a text. -/
def hasLooseMark (t : Text) : Bool := ((splitOn ';' t).drop 1).any isLooseMark

theorem hasLooseMark_of_not_mem {t : Text} (h : ';' ∉ t) : hasLooseMark t = false := by
  rw [hasLooseMark, splitOn_of_not_mem h]
  rfl

/-- The last piece of a text is the mark or is not. -/
theorem hasLooseMark_append_piece {piece : Text} (h : ';' ∉ piece) (front : Text) :
    hasLooseMark (front ++ ';' :: piece) = (hasLooseMark front || isLooseMark piece) := by
  obtain ⟨first, rest, hfront⟩ := List.exists_cons_of_ne_nil (splitWhere_ne_nil (· == ';') front)
  unfold hasLooseMark
  rw [splitOn_append_cons, splitOn_of_not_mem h, splitOn, hfront, List.cons_append, List.drop_one, List.drop_one,
    List.tail_cons, List.tail_cons, List.any_append, List.any_cons, List.any_nil, Bool.or_false]

/-! Parameters. -/

theorem sameLetters_lower (t name : Text) : sameLetters (lower t) name = sameLetters t name := by
  have htwice : lower (lower t) = lower t := by
    unfold lower
    rw [List.map_map]
    exact List.map_congr_left fun c _ => toLower_invariant Char.toLower (by decide) c
  rw [sameLetters, htwice, sameLetters]

namespace UriParam

theorem sameLetters_withValue {name value : Text} {p : UriParam} (h : withValue name value = some p)
    (other : Text) : sameLetters p.name other = sameLetters name other := by
  unfold withValue at h
  dsimp only at h
  split at h
  · split at h
    · cases h
      exact sameLetters_lower name other
    · cases h
  · split at h
    · obtain ⟨m, -, rfl⟩ := Option.map_eq_some_iff.mp h
      exact sameLetters_lower name other
    · split at h
      · cases h
        exact sameLetters_lower name other
      · cases h
        rfl

theorem sameLetters_withoutValue (name other : Text) :
    sameLetters (withoutValue name).name other = sameLetters name other := by
  unfold withoutValue
  split
  · exact sameLetters_lower name other
  · rfl

/-- A name of token characters is read off a piece as it is written. -/
theorem readParam_token {name : Text} (hname : ∀ c ∈ name, isTokenChar c = true) :
    (readParam name).1 = name ∧ ∀ value, (readParam (name ++ '=' :: value)).1 = name := by
  have hmark : '=' ∉ name := fun hmem => by
    have htoken := hname '=' hmem
    cases htoken
  have htrim : trim name = name := by
    by_cases hnil : name = []
    · rw [hnil]
      rfl
    · exact trim_of_isWord ⟨hnil, fun c hc => NameAddr.not_blank_of_isTokenChar (hname c hc)⟩
  refine ⟨?_, fun value => ?_⟩
  · rw [readParam, cut?_eq_none_iff.mpr hmark]
    exact htrim
  · rw [readParam, cut?_append hmark]
    exact htrim

theorem not_mem_of_token {piece : Text} (h : ∀ c ∈ piece, isTokenChar c = true) : ';' ∉ piece := fun hmem => by
  have htoken := h ';' hmem
  cases htoken

/-- Parameters that are read to the end of a text are its pieces, whatever stands in front of them. -/
theorem hasLooseMark_of_readAll {steps : Nat} {t : Text} {ps : List UriParam} (h : readAll steps t = some (ps, []))
    (front : Text) :
    hasLooseMark (front ++ t) = (hasLooseMark front || ps.any fun p => sameLetters p.name "lr".toList) := by
  induction steps, t using readAll.induct generalizing ps front with
  | case1 steps t after hmark ih =>
      rw [readAll] at h
      simp only [hmark] at h
      obtain ⟨param, hparam, h⟩ := Option.bind_eq_some_iff.mp h
      obtain ⟨⟨more, behind⟩, hmore, h⟩ := Option.bind_eq_some_iff.mp h
      cases h
      have hname := tokenChars t
      have hvalue := tokenChars after
      have hsplit : t = t.takeWhile isTokenChar ++ '=' :: after.takeWhile isTokenChar ++
          after.dropWhile isTokenChar := by
        rw [List.append_assoc, List.cons_append, List.takeWhile_append_dropWhile, ← hmark,
          List.takeWhile_append_dropWhile]
      have hnot : ';' ∉ t.takeWhile isTokenChar ++ '=' :: after.takeWhile isTokenChar := by
        rw [List.mem_append, List.mem_cons, not_or, not_or]
        exact ⟨not_mem_of_token hname, by decide, not_mem_of_token hvalue⟩
      have hbehind := ih hmore (front ++ ';' :: (t.takeWhile isTokenChar ++ '=' :: after.takeWhile isTokenChar))
      rw [hasLooseMark_append_piece hnot, isLooseMark, (readParam_token hname).2, List.append_assoc,
        List.cons_append, ← hsplit] at hbehind
      rw [hbehind, List.any_cons, sameLetters_withValue hparam, Bool.or_assoc]
  | case2 steps t hmark ih =>
      rw [readAll] at h
      split at h
      · rename_i after heq
        exact absurd heq (hmark after)
      · obtain ⟨⟨more, behind⟩, hmore, h⟩ := Option.bind_eq_some_iff.mp h
        cases h
        have hname := tokenChars t
        have hbehind := ih hmore (front ++ ';' :: t.takeWhile isTokenChar)
        rw [hasLooseMark_append_piece (not_mem_of_token hname), isLooseMark, (readParam_token hname).1,
          List.append_assoc, List.cons_append, List.takeWhile_append_dropWhile] at hbehind
        rw [hbehind, List.any_cons, sameLetters_withoutValue, Bool.or_assoc]
  | case3 steps t hend =>
      rw [readAll] at h
      · cases h
        rw [List.append_nil, List.any_nil, Bool.or_false]
      · exact hend

end UriParam

/-! URIs. -/

/-- A scheme, or none, is read off the front of a text. -/
theorem Scheme.append_of_readFront {t rest : Text} {scheme : Option Scheme} (h : readFront t = (scheme, rest)) :
    ∃ front, t = front ++ rest ∧ (';' ∉ (scheme.map Scheme.text).getD [] → ';' ∉ front) := by
  have hanyCase : ∀ {word : Text}, ';' ∉ lower word → afterPrefixAnyCase? word t = some rest →
      ∃ front, t = front ++ rest ∧ ';' ∉ front := by
    intro word hword hafter
    unfold afterPrefixAnyCase? at hafter
    split at hafter
    · rename_i hsame
      refine ⟨t.take word.length, ?_, fun hmem => hword ?_⟩
      · rw [← Option.some.inj hafter, List.take_append_drop]
      · rw [beq_iff_eq.mp hsame]
        exact List.mem_map_of_mem (f := Char.toLower) hmem
    · cases hafter
  unfold readFront at h
  split at h
  · rename_i after hsip
    obtain ⟨rfl, rfl⟩ := Prod.mk.inj h
    obtain ⟨front, ht, hnot⟩ := hanyCase (by decide) hsip
    exact ⟨front, ht, fun _ => hnot⟩
  · split at h
    · rename_i after hsips
      obtain ⟨rfl, rfl⟩ := Prod.mk.inj h
      obtain ⟨front, ht, hnot⟩ := hanyCase (by decide) hsips
      exact ⟨front, ht, fun _ => hnot⟩
    · split at h
      · rename_i name after hcut
        obtain ⟨rfl, rfl⟩ := Prod.mk.inj h
        exact ⟨name ++ "://".toList, (cutAt?_replaced (by decide) hcut []).1, id⟩
      · obtain ⟨rfl, rfl⟩ := Prod.mk.inj h
        exact ⟨[], rfl, id⟩

theorem UserInfo.append_of_readFront {t rest : Text} {info : Option UserInfo} (h : readFront t = (info, rest)) :
    t = (info.map UserInfo.text).getD [] ++ rest := by
  cases info with
  | none => exact (readFront_eq_none_iff.mp h).1.symm
  | some info => exact (readFront_text h).1

/-- A text of which a front is followed by nothing but the parameters of a URI. -/
def Uri.EndsBehind (u : Uri) (front text : Text) : Prop :=
  ∃ steps params, text = front ++ params ∧ UriParam.readAll steps params = some (u.params, [])

theorem Uri.EndsBehind.hasLooseMark {u : Uri} {front text : Text} (h : u.EndsBehind front text) :
    BorderProxy.hasLooseMark text = (BorderProxy.hasLooseMark front || u.isLooseRouter) := by
  obtain ⟨steps, params, rfl, hparams⟩ := h
  exact UriParam.hasLooseMark_of_readAll hparams front

/-- A URI that is read to the end of its text ends in its parameters. In front of them a semicolon stands only in the
scheme or in the user part. -/
theorem Uri.exists_endsBehind {u : Uri} {text : Text} (h : readFront text = some (u, [])) :
    ∃ front, u.EndsBehind front text ∧
      (';' ∉ (u.scheme.map Scheme.text).getD [] → ';' ∉ (u.userInfo.map UserInfo.text).getD [] → ';' ∉ front) := by
  unfold readFront at h
  rcases hscheme : Scheme.readFront text with ⟨scheme, t₁⟩
  rcases huser : UserInfo.readFront t₁ with ⟨info, t₂⟩
  simp only [hscheme, huser] at h
  obtain ⟨⟨hostPort, t₃⟩, hhost, h⟩ := Option.bind_eq_some_iff.mp h
  obtain ⟨⟨params, t₄⟩, hparams, h⟩ := Option.bind_eq_some_iff.mp h
  obtain ⟨rfl, rfl⟩ := Prod.mk.inj (Option.some.inj h)
  obtain ⟨front, htext, hfront⟩ := Scheme.append_of_readFront hscheme
  have ht₁ := UserInfo.append_of_readFront huser
  obtain ⟨host, ht₂, -, hhostMarks, -⟩ := HostPort.of_readFront hhost
  refine ⟨front ++ (info.map UserInfo.text).getD [] ++ host, ⟨_, t₃, ?_, hparams⟩, fun hnotScheme hnotUser => ?_⟩
  · rw [htext, ht₁, ht₂]
    simp only [List.append_assoc]
  · rw [List.mem_append, List.mem_append, not_or, not_or]
    exact ⟨⟨hfront hnotScheme, hnotUser⟩, fun hmem => (hhostMarks ';' hmem).1 rfl⟩

namespace NameAddr

theorem isLoose_of_uriText {value text : Text} (h : uriText? value = some text) :
    isLoose value = hasLooseMark text := by
  rw [isLoose, h]
  rfl

/-- A URI in brackets is read as its text is. -/
theorem uri?_bracketed {text : Text} (hclosing : '>' ∉ text) (htrimmed : trim text = text) :
    uri? ('<' :: text ++ ['>']) = Uri.read text := by
  have hopening : '<' ∉ ([] : Text) := List.not_mem_nil
  have htext : uriText? ('<' :: text ++ ['>']) = some (trim text) :=
    uriText?_of_brackets hopening hclosing []
  rw [uri?, htext, htrimmed]
  rfl

end NameAddr

end BorderProxy
