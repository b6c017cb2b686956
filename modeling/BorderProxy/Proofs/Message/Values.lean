import BorderProxy.Message.Fields

/-! Header fields under edits. An edit that concerns one name leaves all fields of other names as they are,
in their order, and with them the values of those names. -/

namespace BorderProxy.Headers

theorem isNamed_of (n name : StandardName) (value : Text) :
    (Header.of name value).isNamed n = decide (name = n) := by
  unfold Header.isNamed
  by_cases h : name = n
  · simp [h]
  · simp [h]

theorem isNamed_of_self (name : StandardName) (value : Text) : (Header.of name value).isNamed name = true := by
  rw [isNamed_of, decide_eq_true_iff]

theorem isNamed_of_ne {h : Header} {n name : StandardName} (hne : n ≠ name) (hn : h.isNamed n = true) :
    h.isNamed name = false := by
  unfold Header.isNamed at hn ⊢
  rw [beq_iff_eq] at hn
  rw [hn, beq_eq_false_iff_ne]
  exact fun heq => hne (by injection heq)

theorem value?_eq_head? (name : StandardName) (hs : Headers) : hs.value? name = (hs.values name).head? := by
  rw [value?, values, List.head?_map, ← List.head?_filter]

theorem values_append (n : StandardName) (front back : Headers) :
    values n (front ++ back) = values n front ++ values n back := by
  simp [values]

theorem values_cons_of (n : StandardName) {h : Header} (hs : Headers) (hn : h.isNamed n = true) :
    values n (h :: hs) = h.value :: values n hs := by
  simp [values, hn]

theorem values_cons_of_not (n : StandardName) {h : Header} (hs : Headers) (hn : h.isNamed n = false) :
    values n (h :: hs) = values n hs := by
  simp [values, hn]

theorem before_append_fromFirst (name : StandardName) (hs : Headers) :
    hs.before name ++ hs.fromFirst name = hs :=
  List.takeWhile_append_dropWhile

/-! What an edit of one name leaves. -/

/-- The fields that have none of some names. -/
def apartFrom (names : List StandardName) (hs : Headers) : Headers :=
  hs.filter fun h => names.all fun n => !h.isNamed n

/-- Fields that agree but for those of a name agree but for those of more names. -/
theorem apartFrom_of_without {name : StandardName} {names : List StandardName} {hs hs' : Headers}
    (hmem : name ∈ names) (h : hs.without name = hs'.without name) :
    hs.apartFrom names = hs'.apartFrom names := by
  have hfilter : ∀ l : Headers, l.apartFrom names = (l.without name).apartFrom names := by
    intro l
    unfold apartFrom without
    rw [List.filter_filter]
    refine List.filter_congr fun f _ => ?_
    cases hall : names.all fun n => !f.isNamed n with
    | false => rw [Bool.false_and]
    | true => rw [List.all_eq_true.mp hall name hmem, Bool.and_self]
  rw [hfilter hs, hfilter hs', h]

theorem values_of_apartFrom {n : StandardName} {names : List StandardName} {hs hs' : Headers}
    (h : hs.apartFrom names = hs'.apartFrom names) (hn : n ∉ names) : hs.values n = hs'.values n := by
  have hvalues : ∀ l : Headers, values n (l.apartFrom names) = values n l := by
    intro l
    unfold values apartFrom
    rw [List.filter_filter]
    refine congrArg (List.map _) (List.filter_congr fun f _ => ?_)
    cases hf : f.isNamed n with
    | false => rw [Bool.false_and]
    | true =>
        rw [Bool.true_and, List.all_eq_true]
        intro name hname
        have hne : n ≠ name := fun heq => hn (heq ▸ hname)
        rw [isNamed_of_ne hne hf, Bool.not_false]
  rw [← hvalues hs, h, hvalues]

theorem values_of_without {n name : StandardName} (hne : n ≠ name) {hs hs' : Headers}
    (h : hs.without name = hs'.without name) : hs.values n = hs'.values n := by
  have hsame : hs.apartFrom [name] = hs'.apartFrom [name] :=
    apartFrom_of_without List.mem_cons_self h
  exact values_of_apartFrom hsame (List.not_mem_cons_of_ne_of_not_mem hne List.not_mem_nil)

section Edits

variable (name : StandardName)

theorem without_append (front back : Headers) :
    (front ++ back).without name = front.without name ++ back.without name :=
  List.filter_append front back

theorem without_cons_of (hs : Headers) {h : Header} (hname : h.isNamed name = true) :
    without name (h :: hs) = hs.without name :=
  List.filter_cons_of_neg (by simp [hname])

theorem without_cons_of_not (hs : Headers) {h : Header} (hname : h.isNamed name = false) :
    without name (h :: hs) = h :: hs.without name :=
  List.filter_cons_of_pos (by simp [hname])

theorem without_of (value : Text) (hs : Headers) :
    without name (.of name value :: hs) = hs.without name :=
  without_cons_of name hs (isNamed_of_self name value)

theorem without_map_of (values' : List Text) (hs : Headers) :
    without name (values'.map (.of name) ++ hs) = hs.without name := by
  induction values' with
  | nil => rfl
  | cons v rest ih => rw [List.map_cons, List.cons_append, without_of, ih]

theorem without_without (hs : Headers) : (hs.without name).without name = hs.without name := by
  unfold without
  rw [List.filter_filter]
  simp only [Bool.and_self]

theorem without_eraseFirst (hs : Headers) : (hs.eraseFirst name).without name = hs.without name := by
  induction hs with
  | nil => rfl
  | cons h hs ih =>
      unfold eraseFirst at ih ⊢
      cases hname : h.isNamed name with
      | true => rw [List.eraseP_cons_of_pos hname, without_cons_of name hs hname]
      | false =>
          rw [List.eraseP_cons_of_neg (by simp [hname]), without_cons_of_not name _ hname,
            without_cons_of_not name _ hname, ih]

theorem without_replaceFirst (value : Text) (hs : Headers) :
    (hs.replaceFirst name value).without name = hs.without name := by
  induction hs with
  | nil => rfl
  | cons h hs ih =>
      rw [replaceFirst]
      cases hname : h.isNamed name with
      | true => rw [if_pos rfl, without_of, without_cons_of name hs hname]
      | false =>
          rw [if_neg (by simp), without_cons_of_not name _ hname, without_cons_of_not name _ hname, ih]

theorem without_pushAbove (value : Text) (hs : Headers) :
    (hs.pushAbove name value).without name = hs.without name := by
  unfold pushAbove
  split
  · rw [without_append, without_of, ← without_append, before_append_fromFirst]
  · exact without_of name value hs

theorem without_replaceAll (values' : List Text) (hs : Headers) :
    (hs.replaceAll name values').without name = hs.without name := by
  unfold replaceAll
  rw [List.append_assoc, without_append, without_map_of, without_without, ← without_append,
    before_append_fromFirst]

theorem without_replaceAllInFront (values' : List Text) (hs : Headers) :
    (hs.replaceAllInFront name values').without name = hs.without name := by
  unfold replaceAllInFront
  split
  · exact without_replaceAll name values' hs
  · exact without_map_of name values' hs

theorem without_setLast (value : Text) (hs : Headers) :
    (hs.setLast name value).without name = hs.without name := by
  rw [setLast, without_append, without_without, without_of]
  exact List.append_nil _

end Edits

section Others

variable {n name : StandardName} (hne : n ≠ name)

include hne

theorem values_eraseFirst_other (hs : Headers) : values n (hs.eraseFirst name) = values n hs :=
  values_of_without hne (without_eraseFirst name hs)

theorem values_pushAbove_other (value : Text) (hs : Headers) :
    values n (hs.pushAbove name value) = values n hs :=
  values_of_without hne (without_pushAbove name value hs)

theorem values_replaceAll_other (values' : List Text) (hs : Headers) :
    values n (hs.replaceAll name values') = values n hs :=
  values_of_without hne (without_replaceAll name values' hs)

theorem values_replaceAllInFront_other (values' : List Text) (hs : Headers) :
    values n (hs.replaceAllInFront name values') = values n hs :=
  values_of_without hne (without_replaceAllInFront name values' hs)

theorem values_setLast_other (value : Text) (hs : Headers) :
    values n (hs.setLast name value) = values n hs :=
  values_of_without hne (without_setLast name value hs)

end Others

theorem values_without (name : StandardName) (hs : Headers) : values name (hs.without name) = [] := by
  unfold values without
  rw [List.map_eq_nil_iff, List.filter_eq_nil_iff]
  intro h hh
  simpa using (List.mem_filter.mp hh).2

theorem values_map_of (name : StandardName) (values' : List Text) :
    values name (values'.map (.of name)) = values' := by
  induction values' with
  | nil => rfl
  | cons v rest ih => rw [List.map_cons, values_cons_of name _ (isNamed_of_self name v), ih]

theorem values_setLast (name : StandardName) (value : Text) (hs : Headers) :
    values name (hs.setLast name value) = [value] := by
  rw [setLast, values_append, values_without, List.nil_append]
  exact values_map_of name [value]

theorem values_before (name : StandardName) (hs : Headers) : values name (hs.before name) = [] := by
  unfold values before
  rw [List.map_eq_nil_iff, List.filter_eq_nil_iff]
  intro h hh
  simpa using List.all_eq_true.mp List.all_takeWhile h hh

theorem values_replaceAll (name : StandardName) (values' : List Text) (hs : Headers) :
    values name (hs.replaceAll name values') = values' := by
  rw [replaceAll, values_append, values_append, values_before, values_map_of, values_without,
    List.nil_append, List.append_nil]

theorem values_replaceAllInFront (name : StandardName) (values' : List Text) (hs : Headers) :
    values name (hs.replaceAllInFront name values') = values' := by
  unfold replaceAllInFront
  split
  · exact values_replaceAll name values' hs
  · rename_i hnone
    have hvalues : values name hs = [] := by
      unfold values
      rw [List.map_eq_nil_iff, List.filter_eq_nil_iff]
      intro h hh hnamed
      exact hnone (List.any_eq_true.mpr ⟨h, hh, hnamed⟩)
    rw [values_append, values_map_of, hvalues, List.append_nil]

theorem values_replaceFirst (name : StandardName) (value : Text) (hs : Headers) :
    values name (hs.replaceFirst name value) =
      match values name hs with
      | [] => []
      | _ :: below => value :: below := by
  have hnamed := isNamed_of_self name value
  induction hs with
  | nil => rfl
  | cons h hs ih =>
      rw [replaceFirst]
      cases hname : h.isNamed name with
      | true => rw [if_pos rfl, values_cons_of name hs hname, values_cons_of name hs hnamed]
      | false => rw [if_neg (by simp), values_cons_of_not name _ hname, values_cons_of_not name _ hname, ih]

theorem values_pushAbove (name : StandardName) (value : Text) (hs : Headers) :
    values name (hs.pushAbove name value) = value :: values name hs := by
  have hnamed := isNamed_of_self name value
  unfold pushAbove
  split
  · have hsplit := values_append name (hs.before name) (hs.fromFirst name)
    rw [before_append_fromFirst, values_before, List.nil_append] at hsplit
    rw [values_append, values_before, List.nil_append, values_cons_of name _ hnamed, hsplit]
  · exact values_cons_of name hs hnamed

theorem values_eraseFirst (name : StandardName) (hs : Headers) :
    values name (hs.eraseFirst name) = (values name hs).tail := by
  induction hs with
  | nil => rfl
  | cons h hs ih =>
      unfold eraseFirst at ih ⊢
      cases hname : h.isNamed name with
      | true => rw [List.eraseP_cons_of_pos hname, values_cons_of name hs hname, List.tail_cons]
      | false =>
          rw [List.eraseP_cons_of_neg (by simp [hname]), values_cons_of_not name _ hname,
            values_cons_of_not name _ hname, ih]

/-! What the proxy reads is read from the values. -/

theorem checkComplete_eq_ok_iff (hs : Headers) :
    hs.checkComplete = .ok () ↔
      hs.topVia?.isSome ∧ (hs.value? .from).isSome ∧ (hs.value? .to).isSome ∧ hs.callId?.isSome ∧
        hs.sequence?.isSome := by
  unfold checkComplete
  cases hs.topVia? <;> cases hs.value? .from <;> cases hs.value? .to <;> cases hs.callId? <;>
    cases hs.sequence? <;> simp

theorem callId?_congr {hs hs' : Headers} (h : hs.values .callId = hs'.values .callId) :
    hs.callId? = hs'.callId? := by
  rw [callId?, callId?, value?_eq_head?, value?_eq_head?, h]

theorem topVia?_eq_head? (hs : Headers) : hs.topVia? = hs.vias.head? := value?_eq_head? .via hs

theorem topVia?_congr {hs hs' : Headers} (h : hs.vias = hs'.vias) : hs.topVia? = hs'.topVia? := by
  rw [topVia?_eq_head?, topVia?_eq_head?, h]

theorem carriesSdp_congr {hs hs' : Headers} (h : hs.values .contentType = hs'.values .contentType) :
    hs.carriesSdp = hs'.carriesSdp := by
  rw [carriesSdp, carriesSdp, h]

theorem without_stamp (source : Endpoint) (hs : Headers) :
    (hs.stamp source).without .via = hs.without .via := by
  rw [stamp]
  cases hstamped : hs.stamp? source with
  | none => rfl
  | some stamped =>
      unfold stamp? at hstamped
      obtain ⟨via, -, hvia⟩ := Option.bind_eq_some_iff.mp hstamped
      obtain ⟨value, -, hvalue⟩ := Option.bind_eq_some_iff.mp hvia
      rw [Option.getD_some, ← Option.some.inj hvalue]
      exact without_replaceFirst .via value hs

theorem values_stamp {n : StandardName} (hne : n ≠ .via) (source : Endpoint) (hs : Headers) :
    values n (hs.stamp source) = values n hs :=
  values_of_without hne (without_stamp source hs)

/-- The topmost Via has its source noted, and the others stay. -/
theorem vias_stamp (source : Endpoint) (hs : Headers) :
    (hs.stamp source).vias =
      match hs.vias with
      | [] => []
      | top :: below => (Via.stamp? source top).getD top :: below := by
  rw [stamp]
  unfold stamp?
  rw [topVia?_eq_head?]
  cases hvias : hs.vias with
  | nil => exact hvias
  | cons top below =>
      rw [List.head?_cons]
      cases hstamped : Via.stamp? source top with
      | none => simp [hstamped, hvias]
      | some stamped =>
          have hreplaced := values_replaceFirst .via stamped hs
          rw [vias] at hvias
          rw [hvias] at hreplaced
          simpa [hstamped, vias] using hreplaced

theorem without_withContactUri (uri : Uri) (hs : Headers) :
    (hs.withContactUri uri).without .contact = hs.without .contact := by
  unfold withContactUri
  split
  · exact without_replaceFirst .contact _ hs
  · rfl

end BorderProxy.Headers
