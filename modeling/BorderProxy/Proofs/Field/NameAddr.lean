import BorderProxy.Proofs.Field.Via
import BorderProxy.Proofs.Text.Trimming

/-! Values that hold a URI, as they are read. The URI stands between the first opening bracket and the next
closing one; the parameters stand behind the last closing bracket, so that nothing in front of a closing
bracket has a part in them, and no value of a parameter holds a semicolon or a closing bracket. -/

namespace BorderProxy

open Text

/-- Blanks are no parameter with a name. -/
theorem paramAmong?_blanks {name blanks : Text} (hname : name ≠ []) (h : ∀ c ∈ blanks, isBlank c = true)
    (pieces : List Text) : paramAmong? name (blanks :: pieces) = paramAmong? name pieces := by
  have hmark : '=' ∉ blanks := fun hmem => by
    have hblank := h '=' hmem
    cases hblank
  have hother : sameLetters [] name = false := by
    rw [sameLetters, beq_eq_false_iff_ne]
    exact fun heq => hname (List.map_eq_nil_iff.mp heq.symm)
  rw [paramAmong?_cons, readParam, cut?_eq_none_iff.mpr hmark]
  dsimp only
  rw [trim_of_blanks h, hother, if_neg Bool.false_ne_true]

theorem readParam_subset (piece : Text) : (readParam piece).2 ⊆ piece := by
  rw [readParam]
  split
  · rename_i name value hcut
    rw [(cut?_eq_some hcut).1]
    exact List.Subset.trans (trim_subset value)
      (List.Subset.trans (List.subset_cons_self _ _) (List.subset_append_right _ _))
  · exact List.nil_subset _

namespace NameAddr

/-! The URI. -/

theorem parts?_of_brackets {front inner : Text} (hfront : '<' ∉ front) (hinner : '>' ∉ inner) (back : Text) :
    parts? (front ++ '<' :: (inner ++ '>' :: back)) = some ⟨front ++ ['<'], inner, '>' :: back, true⟩ := by
  rw [parts?, cut?_append hfront]
  dsimp only
  rw [cut?_append hinner]
  rfl

theorem uriText?_of_brackets {front inner : Text} (hfront : '<' ∉ front) (hinner : '>' ∉ inner)
    (back : Text) : uriText? (front ++ '<' :: (inner ++ '>' :: back)) = some (trim inner) := by
  rw [uriText?, parts?_of_brackets hfront hinner]
  rfl

/-- An opening bracket that is not closed leaves no URI to read. -/
theorem uriText?_of_open {front inner : Text} (hfront : '<' ∉ front) (hinner : '>' ∉ inner) :
    uriText? (front ++ '<' :: inner) = none := by
  rw [uriText?, parts?, cut?_append hfront]
  dsimp only
  rw [cut?_eq_none_iff.mpr hinner]
  rfl

/-! The parameters. -/

theorem paramPieces_append (front back : Text) : paramPieces (front ++ '>' :: back) =
    if '>' ∈ back then paramPieces back else splitOn ';' back := by
  obtain ⟨-, hnot⟩ | ⟨before, behind, hback, rfl, hnot⟩ := cutLast?_cases '>' back
  · rw [if_neg hnot, paramPieces, cutLast?_append front hnot]
  · have hwhole := cutLast?_append (front ++ '>' :: before) hnot
    rw [List.append_assoc, List.cons_append] at hwhole
    rw [if_pos (List.mem_append_right _ List.mem_cons_self), paramPieces, hwhole, paramPieces, hback]

/-- What stands in front of a closing bracket has no part in the parameters. -/
theorem param?_append (front front' back name : Text) :
    param? (front ++ '>' :: back) name = param? (front' ++ '>' :: back) name := by
  rw [param?, param?, paramPieces_append, paramPieces_append]

/-- A parameter that is written behind a value is one more, whatever the value is. -/
theorem paramPieces_addParam (value : Text) {param : Text} (hsemicolon : ';' ∉ param) (hclosing : '>' ∉ param) :
    paramPieces (value ++ ';' :: param) = paramPieces value ++ [param] := by
  have hclosing' : '>' ∉ ';' :: param := List.not_mem_cons_of_ne_of_not_mem (by decide) hclosing
  obtain ⟨hnone, hnot⟩ | ⟨front, behind, hlast, rfl, hnot⟩ := cutLast?_cases '>' value
  · have hnot' : '>' ∉ value ++ ';' :: param := fun h => (List.mem_append.mp h).elim hnot hclosing'
    have hpositive : 1 ≤ (splitOn ';' value).length :=
      List.length_pos_of_ne_nil (splitWhere_ne_nil (· == ';') value)
    rw [paramPieces, paramPieces, hnone, cutLast?_of_not_mem hnot']
    dsimp only
    rw [splitOn_append_cons, splitOn_of_not_mem hsemicolon, List.drop_append_of_le_length hpositive]
  · have hnot' : '>' ∉ behind ++ ';' :: param := fun h => (List.mem_append.mp h).elim hnot hclosing'
    rw [List.append_assoc, List.cons_append, paramPieces_append, if_neg hnot', paramPieces_append, if_neg hnot,
      splitOn_append_cons, splitOn_of_not_mem hsemicolon]

theorem not_mem_of_mem_paramPieces {value piece : Text} (h : piece ∈ paramPieces value) :
    ';' ∉ piece ∧ '>' ∉ piece := by
  obtain ⟨hvalue, hnot⟩ | ⟨front, back, hvalue, -, hnot⟩ := cutLast?_cases '>' value
  · rw [paramPieces, hvalue] at h
    have hmem := List.mem_of_mem_drop h
    exact ⟨not_mem_of_mem_splitOn hmem, fun hc => hnot (subset_of_mem_splitWhere hmem hc)⟩
  · rw [paramPieces, hvalue] at h
    exact ⟨not_mem_of_mem_splitOn h, fun hc => hnot (subset_of_mem_splitWhere h hc)⟩

theorem not_mem_of_param? {value name found : Text} (h : param? value name = some found) :
    ';' ∉ found ∧ '>' ∉ found := by
  obtain ⟨⟨key, _⟩, hfind, rfl⟩ := Option.map_eq_some_iff.mp h
  obtain ⟨piece, hpiece, heq⟩ := List.mem_map.mp (List.mem_of_find?_eq_some hfind)
  obtain ⟨hsemicolon, hclosing⟩ := not_mem_of_mem_paramPieces hpiece
  have hsubset := readParam_subset piece
  rw [heq] at hsubset
  exact ⟨fun hc => hsemicolon (hsubset hc), fun hc => hclosing (hsubset hc)⟩

end NameAddr

end BorderProxy
