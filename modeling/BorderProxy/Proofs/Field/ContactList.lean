import BorderProxy.Proofs.Field.NameAddr

/-! Several values with commas between them that are read as a single one. The URI is looked for from the
front and the parameters from the end, so that they may be those of different values: the URI is that of the
first value with an opening bracket, and the parameters are those behind the last closing bracket. -/

namespace BorderProxy

open Text

/-- A piece among others, with all that stands around it. -/
theorem Text.join_append_cons_append (mark : Char) (front back : List Text) (piece : Text) :
    join [mark] (front ++ piece :: back) =
      front.flatMap (· ++ [mark]) ++ piece ++ back.flatMap (mark :: ·) := by
  induction front with
  | nil =>
      induction back generalizing piece with
      | nil => simp [join]
      | cons next rest ih => simpa [join_cons_cons] using ih next
  | cons first rest ih =>
      obtain ⟨next, more, hmore⟩ := List.exists_cons_of_ne_nil
        (List.append_ne_nil_of_right_ne_nil rest (List.cons_ne_nil piece back))
      rw [List.cons_append, hmore, join_cons_cons, ← hmore, ih]
      simp

namespace NameAddr

/-- The values as one, with commas between them. -/
def listed (values : List Text) : Text := join [','] values

theorem listed_singleton (value : Text) : listed [value] = value := rfl

theorem listed_cons {rest : List Text} (hne : rest ≠ []) (value : Text) :
    listed (value :: rest) = value ++ ',' :: listed rest := by
  obtain ⟨next, more, rfl⟩ := List.exists_cons_of_ne_nil hne
  rw [listed, join_cons_cons, List.append_assoc]
  rfl

/-! The URI. -/

/-- The values up to the first one with a semicolon, where the URI of a list without brackets ends. -/
def unparted : List Text → List Text
  | [] => []
  | value :: rest => if ';' ∈ value then [value] else value :: unparted rest

theorem unparted_ne_nil {values : List Text} (hne : values ≠ []) : unparted values ≠ [] := by
  cases values with
  | nil => exact absurd rfl hne
  | cons value rest =>
      rw [unparted]
      split <;> exact List.cons_ne_nil _ _

theorem listed_unparted (values : List Text) : listed values = listed (unparted values) ∨
    ∃ back, listed values = listed (unparted values) ++ back ∧ ';' ∈ listed (unparted values) := by
  induction values with
  | nil => exact .inl rfl
  | cons value rest ih =>
      rw [unparted]
      by_cases hrest : rest = []
      · subst hrest
        exact .inl (by split <;> rfl)
      · rw [listed_cons hrest]
        split
        · rename_i hsemicolon
          exact .inr ⟨',' :: listed rest, rfl, hsemicolon⟩
        · rw [listed_cons (unparted_ne_nil hrest)]
          obtain heq | ⟨back, heq, hmem⟩ := ih
          · exact .inl (by rw [← heq])
          · refine .inr ⟨back, ?_, List.mem_append_right _ (List.mem_cons_of_mem _ hmem)⟩
            rw [heq, List.append_assoc, List.cons_append]

/-- What the URI of a list is read from: the first value with an opening bracket or, where none has one, the
values up to the first one with a semicolon. -/
def uriHolder (values : List Text) : Text :=
  (values.find? (·.contains '<')).getD (listed (unparted values))

theorem uriHolder_singleton (value : Text) : uriHolder [value] = value := by
  have hunparted : unparted [value] = [value] := ite_self _
  by_cases h : '<' ∈ value <;> simp [uriHolder, hunparted, listed_singleton, h]

theorem uriText?_of_semicolon {front back : Text} (hsemicolon : ';' ∉ front)
    (hopening : '<' ∉ front ++ ';' :: back) : uriText? (front ++ ';' :: back) =
      if trimStart front = [] then none else some (trim (trimStart front)) := by
  have hstart : trimStart (front ++ ';' :: back) = trimStart front ++ ';' :: back := by
    have hblank : isBlank ';' = false := rfl
    rw [trimStart, List.dropWhile_append, List.dropWhile_cons_of_neg (by simp [hblank])]
    cases h : front.dropWhile isBlank <;> simp [trimStart, h]
  have hcut := cut?_append (fun h => hsemicolon ((List.dropWhile_suffix isBlank).subset h)) back
  rw [uriText?, parts?, cut?_eq_none_iff.mpr hopening]
  dsimp only
  rw [hstart, trimStart, hcut]
  dsimp only
  split <;> rfl

/-- Behind the first semicolon nothing is read for a URI without brackets. -/
theorem uriText?_append_of_semicolon {value back : Text} (hsemicolon : ';' ∈ value)
    (hopening : '<' ∉ value ++ back) : uriText? (value ++ back) = uriText? value := by
  obtain ⟨front, rest, rfl, hfront⟩ := List.eq_append_cons_of_mem hsemicolon
  rw [uriText?_of_semicolon hfront fun h => hopening (List.mem_append_left back h)]
  rw [List.append_assoc, List.cons_append] at hopening ⊢
  exact uriText?_of_semicolon hfront hopening

/-- The URI of a closed bracket is the same whatever is around the value, if no bracket opens before. -/
theorem uriText?_around {front value : Text} (hfront : '<' ∉ front) (hopening : '<' ∈ value)
    (hclosed : (uriText? value).isSome) (back : Text) :
    uriText? (front ++ value ++ back) = uriText? value := by
  obtain ⟨before, rest, rfl, hbefore⟩ := List.eq_append_cons_of_mem hopening
  by_cases hclosing : '>' ∈ rest
  · obtain ⟨inner, after, rfl, hinner⟩ := List.eq_append_cons_of_mem hclosing
    have hboth : '<' ∉ front ++ before := fun h => (List.mem_append.mp h).elim hfront hbefore
    have hwhole := uriText?_of_brackets hboth hinner (after ++ back)
    rw [uriText?_of_brackets hbefore hinner]
    simpa using hwhole
  · rw [uriText?_of_open hbefore hclosing] at hclosed
    cases hclosed

/-- The URI of a list is that of the first value with an opening bracket, if there is one. -/
theorem uriText?_listed {values : List Text}
    (hclosed : ∀ value ∈ values, '<' ∈ value → (uriText? value).isSome) :
    uriText? (listed values) = uriText? (uriHolder values) := by
  have hcontains : ∀ value : Text, value.contains '<' = true ↔ '<' ∈ value := fun _ => List.contains_iff_mem
  rw [uriHolder]
  cases hfind : values.find? (·.contains '<') with
  | some value =>
      obtain ⟨hopening, front, back, rfl, hnone⟩ := List.find?_eq_some_iff_append.mp hfind
      have hfront : '<' ∉ front.flatMap (· ++ [',']) := by
        intro hmem
        obtain ⟨piece, hpiece, hin⟩ := List.mem_flatMap.mp hmem
        have hnot := hnone piece hpiece
        rcases List.mem_append.mp hin with hin | hin
        · rw [(hcontains piece).mpr hin] at hnot
          cases hnot
        · exact absurd hin (by decide)
      rw [Option.getD_some, listed, join_append_cons_append]
      exact uriText?_around hfront ((hcontains value).mp hopening)
        (hclosed value (List.mem_append_right _ List.mem_cons_self) ((hcontains value).mp hopening)) _
  | none =>
      have hopening : '<' ∉ listed values := by
        intro hmem
        rcases mem_join hmem with hcomma | ⟨piece, hpiece, hin⟩
        · exact absurd hcomma (by decide)
        · exact List.find?_eq_none.mp hfind piece hpiece ((hcontains piece).mpr hin)
      rw [Option.getD_none]
      obtain heq | ⟨back, heq, hsemicolon⟩ := listed_unparted values
      · rw [← heq]
      · rw [heq] at hopening ⊢
        exact uriText?_append_of_semicolon hsemicolon hopening

/-! The parameters. -/

/-- The values that the parameters of a list are read from: those from the last one with a closing bracket
on, or all of them. -/
def paramHolders : List Text → List Text
  | [] => []
  | value :: rest => if rest.any (·.contains '>') then paramHolders rest else value :: rest

theorem paramHolders_append_singleton (front : List Text) {last : Text} (hclosing : '>' ∈ last) :
    paramHolders (front ++ [last]) = [last] := by
  induction front with
  | nil => rfl
  | cons value rest ih =>
      have hany : (rest ++ [last]).any (·.contains '>') = true :=
        List.any_eq_true.mpr ⟨last, by simp, List.contains_iff_mem.mpr hclosing⟩
      rw [List.cons_append, paramHolders, if_pos hany, ih]

/-- In front of a value with a closing bracket nothing is read for the parameters. -/
theorem param?_append_of_closing (front : Text) {value : Text} (hclosing : '>' ∈ value) (name : Text) :
    param? (front ++ value) name = param? value name := by
  obtain ⟨-, hnot⟩ | ⟨before, behind, -, rfl, -⟩ := cutLast?_cases '>' value
  · exact absurd hclosing hnot
  · rw [← List.append_assoc]
    exact param?_append _ _ behind name

/-- The parameters of a list are those of its values from the last closing bracket on. -/
theorem param?_listed (values : List Text) (name : Text) :
    param? (listed values) name = param? (listed (paramHolders values)) name := by
  induction values with
  | nil => rfl
  | cons value rest ih =>
      rw [paramHolders]
      split
      · rename_i hany
        obtain ⟨closing, hmem, hcontains⟩ := List.any_eq_true.mp hany
        obtain ⟨front, back, rfl⟩ := List.append_of_mem hmem
        have hclosing : '>' ∈ listed (front ++ closing :: back) := by
          rw [listed, join_append_cons_append]
          exact List.mem_append_left _ (List.mem_append_right _ (List.contains_iff_mem.mp hcontains))
        rw [← ih, listed_cons (List.ne_nil_of_mem hmem), List.append_cons,
          param?_append_of_closing _ hclosing]
      · rfl

end NameAddr

end BorderProxy
