import BorderProxy.Proofs.Message.Values

/-! The places of header fields. An edit of one name can be carried out by index: the place of the first field is
looked up while all fields are there, and what is taken out and put in afterwards goes by that index. All these
indices are places of the list that they are used on, and the fields come out as the edit has them: those of the
name where the first one stood, and all others as they were. -/

namespace BorderProxy.Headers

/-- There is no field of a name. -/
def Lacks (name : StandardName) (hs : Headers) : Prop := ∀ h ∈ hs, h.isNamed name = false

/-- The index of the first field of a name. -/
def place? (name : StandardName) (hs : Headers) : Option Nat := hs.findIdx? (Header.isNamed name)

/-- The fields with one put in at an index; behind the end there is no place for it. -/
def putAt? (i : Nat) (h : Header) (hs : Headers) : Option Headers :=
  if i ≤ hs.length then some (hs.insertIdx i h) else none

/-- The fields with others put in one behind the other, the first one at an index. -/
def putAllAt? (i : Nat) : List Header → Headers → Option Headers
  | [], hs => some hs
  | h :: rest, hs => (putAt? i h hs).bind (putAllAt? (i + 1) rest)

/-- The field at an index and the fields without it; behind the end there is none. -/
def takeAt? (i : Nat) (hs : Headers) : Option (Header × Headers) := hs[i]?.map fun h => (h, hs.eraseIdx i)

/-- One more field of a name is put in at the place of the first one, or in front. -/
def pushByPlace? (name : StandardName) (value : Text) (hs : Headers) : Option Headers :=
  hs.putAt? ((hs.place? name).getD 0) (.of name value)

/-- The first field of a name is taken out at its place; with the fields that are left stands its value. -/
def takeByPlace? (name : StandardName) (hs : Headers) : Option (Option Text × Headers) :=
  match hs.place? name with
  | none => some (none, hs)
  | some i => (hs.takeAt? i).map fun (h, rest) => (if h.isNamed name then some h.value else none, rest)

/-- All fields of a name are taken out, and then others are put in from the place on where the first one stood
before; where there was none, from a place on that the length of the list tells. -/
def replaceByPlace? (name : StandardName) (values : List Text) (absent : Nat → Nat) (hs : Headers) :
    Option Headers :=
  let rest := hs.without name
  putAllAt? (min ((hs.place? name).getD (absent rest.length)) rest.length) (values.map (.of name)) rest

/-- The fields of a name have the given values and stand one behind the other, the first one at an index. -/
def StandFrom (i : Nat) (name : StandardName) (values : List Text) (hs : Headers) : Prop :=
  ∃ front back : Headers, hs = front ++ values.map (.of name) ++ back ∧ front.length = i ∧
    front.Lacks name ∧ back.Lacks name

/-! Putting in and taking out between a front and a back. -/

theorem insertIdx_length_append {α : Type} (front back : List α) (x : α) :
    (front ++ back).insertIdx front.length x = front ++ x :: back := by
  induction front with
  | nil => exact List.insertIdx_zero
  | cons f front ih => rw [List.cons_append, List.length_cons, List.insertIdx_succ_cons, ih, List.cons_append]

theorem putAt?_length (front back : Headers) (h : Header) :
    putAt? front.length h (front ++ back) = some (front ++ h :: back) := by
  rw [putAt?, if_pos (by simp), insertIdx_length_append]

theorem putAllAt?_length (front back : Headers) (new : List Header) :
    putAllAt? front.length new (front ++ back) = some (front ++ new ++ back) := by
  induction new generalizing front with
  | nil => rw [putAllAt?, List.append_nil]
  | cons h new ih =>
      -- What was put in belongs to the front of the fields that follow.
      have hnext := ih (front ++ [h])
      rw [List.length_append, List.length_singleton, List.append_assoc, List.append_assoc,
        List.append_assoc] at hnext
      rw [putAllAt?, putAt?_length, Option.bind_some, List.append_assoc front]
      exact hnext

theorem takeAt?_length (front back : Headers) (h : Header) :
    takeAt? front.length (front ++ h :: back) = some (h, front ++ back) := by
  rw [takeAt?, List.getElem?_append_right (Nat.le_refl _), Nat.sub_self, List.getElem?_cons_zero, Option.map_some,
    List.eraseIdx_append_of_length_le (Nat.le_refl _), Nat.sub_self, List.eraseIdx_cons_zero]

/-! Where there is no field of a name. -/

theorem lacks_nil (name : StandardName) : Lacks name [] := fun _ hmem => by cases hmem

/-- There is no field of a name, or there is a first one. -/
theorem lacks_or_first (name : StandardName) (hs : Headers) :
    hs.Lacks name ∨
      ∃ (front : Headers) (h : Header) (back : Headers),
        hs = front ++ h :: back ∧ front.Lacks name ∧ h.isNamed name = true := by
  induction hs with
  | nil => exact .inl (lacks_nil name)
  | cons h hs ih =>
      cases hname : h.isNamed name with
      | true => exact .inr ⟨[], h, hs, rfl, lacks_nil name, hname⟩
      | false =>
          rcases ih with hnone | ⟨front, first, back, rfl, hfront, hfirst⟩
          · exact .inl (List.forall_mem_cons.mpr ⟨hname, hnone⟩)
          · exact .inr ⟨h :: front, first, back, rfl, List.forall_mem_cons.mpr ⟨hname, hfront⟩, hfirst⟩

theorem lacks_without (name : StandardName) (hs : Headers) : (hs.without name).Lacks name := by
  intro h hmem
  simpa using (List.mem_filter.mp hmem).2

namespace Lacks

variable {name : StandardName} {hs : Headers} (hnone : hs.Lacks name)

include hnone

theorem passed : ∀ h ∈ hs, (!h.isNamed name) = true := fun h hmem => by rw [hnone h hmem]; rfl

theorem not_isNamed : ∀ h ∈ hs, ¬ h.isNamed name = true := fun h hmem => by rw [hnone h hmem]; decide

theorem any_eq : hs.any (Header.isNamed name) = false := List.any_eq_false.mpr hnone.not_isNamed

theorem place?_eq : hs.place? name = none := List.findIdx?_eq_none_iff.mpr hnone

theorem without_eq : hs.without name = hs := List.filter_eq_self.mpr hnone.passed

theorem before_eq : hs.before name = hs := by
  rw [before, ← List.append_nil hs, List.takeWhile_append_of_pos hnone.passed, List.takeWhile_nil]

theorem fromFirst_eq : hs.fromFirst name = [] := by
  have hwhole := before_append_fromFirst name hs
  rwa [hnone.before_eq, List.append_right_eq_self] at hwhole

theorem eraseFirst_eq : hs.eraseFirst name = hs := List.eraseP_of_forall_not hnone.not_isNamed

theorem find?_eq : hs.find? (Header.isNamed name) = none := List.find?_eq_none.mpr hnone.not_isNamed

theorem value?_eq : hs.value? name = none := by
  rw [value?, hnone.find?_eq, Option.map_none]

theorem pushAbove_eq (value : Text) : hs.pushAbove name value = .of name value :: hs := by
  rw [pushAbove, hnone.any_eq, if_neg Bool.false_ne_true]

theorem replaceAll_eq (values : List Text) : hs.replaceAll name values = hs ++ values.map (.of name) := by
  rw [replaceAll, hnone.before_eq, hnone.fromFirst_eq]
  exact List.append_nil _

theorem replaceAllInFront_eq (values : List Text) :
    hs.replaceAllInFront name values = values.map (.of name) ++ hs := by
  rw [replaceAllInFront, hnone.any_eq, if_neg Bool.false_ne_true]

end Lacks

/-! Where a first field of a name stands between a front and a back. -/

theorem any_first {name : StandardName} (front : Headers) {h : Header} (hname : h.isNamed name = true)
    (back : Headers) : (front ++ h :: back).any (Header.isNamed name) = true :=
  List.any_eq_true.mpr ⟨h, by simp, hname⟩

section First

variable {name : StandardName} {front : Headers} (hfront : front.Lacks name) {h : Header}
  (hname : h.isNamed name = true) (back : Headers)

include hfront hname

theorem place?_first : (front ++ h :: back).place? name = some front.length := by
  have hnone : front.findIdx? (Header.isNamed name) = none := hfront.place?_eq
  rw [place?, List.findIdx?_append, hnone, List.findIdx?_cons, if_pos hname, Option.none_or, Option.map_some,
    Nat.zero_add]

theorem before_first : (front ++ h :: back).before name = front := by
  rw [before, List.takeWhile_append_of_pos hfront.passed, List.takeWhile_cons_of_neg (by rw [hname]; decide),
    List.append_nil]

theorem fromFirst_first : (front ++ h :: back).fromFirst name = h :: back := by
  rw [fromFirst, List.dropWhile_append_of_pos hfront.passed, List.dropWhile_cons_of_neg (by rw [hname]; decide)]

theorem without_first : (front ++ h :: back).without name = front ++ back.without name := by
  rw [without_append, hfront.without_eq, without_cons_of name back hname]

theorem eraseFirst_first : (front ++ h :: back).eraseFirst name = front ++ back := by
  rw [eraseFirst, List.eraseP_append_right _ hfront.not_isNamed, List.eraseP_cons_of_pos hname]

theorem replaceFirst_first (value : Text) :
    (front ++ h :: back).replaceFirst name value = front ++ .of name value :: back := by
  induction front with
  | nil => exact if_pos hname
  | cons f front ih =>
      obtain ⟨hf, hfront⟩ := List.forall_mem_cons.mp hfront
      rw [List.cons_append, replaceFirst, hf, if_neg Bool.false_ne_true, ih hfront]
      rfl

theorem value?_first : (front ++ h :: back).value? name = some h.value := by
  rw [value?, List.find?_append, hfront.find?_eq, List.find?_cons_of_pos hname]
  rfl

theorem pushAbove_first (value : Text) :
    (front ++ h :: back).pushAbove name value = front ++ .of name value :: h :: back := by
  rw [pushAbove, any_first front hname, if_pos rfl, before_first hfront hname, fromFirst_first hfront hname]

theorem replaceAll_first (values : List Text) :
    (front ++ h :: back).replaceAll name values = front ++ values.map (.of name) ++ back.without name := by
  rw [replaceAll, before_first hfront hname, fromFirst_first hfront hname, without_cons_of name back hname]

theorem replaceAllInFront_first (values : List Text) :
    (front ++ h :: back).replaceAllInFront name values =
      front ++ values.map (.of name) ++ back.without name := by
  rw [replaceAllInFront, any_first front hname, if_pos rfl, replaceAll_first hfront hname]

end First

/-! Edits by place. -/

section ByPlace

variable (name : StandardName) (hs : Headers)

theorem pushByPlace?_eq (value : Text) : hs.pushByPlace? name value = some (hs.pushAbove name value) := by
  rcases lacks_or_first name hs with hnone | ⟨front, h, back, rfl, hfront, hname⟩
  · rw [pushByPlace?, hnone.place?_eq, hnone.pushAbove_eq]
    exact putAt?_length [] hs _
  · rw [pushByPlace?, place?_first hfront hname, pushAbove_first hfront hname]
    exact putAt?_length front (h :: back) _

theorem takeByPlace?_eq : hs.takeByPlace? name = some (hs.value? name, hs.eraseFirst name) := by
  rcases lacks_or_first name hs with hnone | ⟨front, h, back, rfl, hfront, hname⟩
  · rw [takeByPlace?, hnone.place?_eq, hnone.value?_eq, hnone.eraseFirst_eq]
  · rw [takeByPlace?, place?_first hfront hname, value?_first hfront hname, eraseFirst_first hfront hname]
    dsimp only
    rw [takeAt?_length, Option.map_some]
    dsimp only
    rw [hname, if_pos rfl]

/-- Whatever is said for lists without a field of the name, those that have one are edited in its place. -/
theorem replaceByPlace?_first {front : Headers} (hfront : front.Lacks name) {h : Header}
    (hname : h.isNamed name = true) (back : Headers) (values : List Text) (absent : Nat → Nat) :
    (front ++ h :: back).replaceByPlace? name values absent =
      some (front ++ values.map (.of name) ++ back.without name) := by
  have hplace : min front.length (front ++ back.without name).length = front.length := by simp
  rw [replaceByPlace?, place?_first hfront hname, without_first hfront hname, Option.getD_some, hplace, putAllAt?_length]

theorem replaceByPlace?_length (values : List Text) :
    hs.replaceByPlace? name values id = some (hs.replaceAll name values) := by
  rcases lacks_or_first name hs with hnone | ⟨front, h, back, rfl, hfront, hname⟩
  · have hput := putAllAt?_length hs [] (values.map (.of name))
    rw [List.append_nil, List.append_nil] at hput
    rw [replaceByPlace?, hnone.place?_eq, hnone.without_eq, hnone.replaceAll_eq,
      Option.getD_none, id, Nat.min_self, hput]
  · rw [replaceByPlace?_first name hfront hname, replaceAll_first hfront hname]

theorem replaceByPlace?_zero (values : List Text) :
    hs.replaceByPlace? name values (fun _ => 0) = some (hs.replaceAllInFront name values) := by
  rcases lacks_or_first name hs with hnone | ⟨front, h, back, rfl, hfront, hname⟩
  · rw [replaceByPlace?, hnone.place?_eq, hnone.without_eq, hnone.replaceAllInFront_eq,
      Option.getD_none, Nat.zero_min]
    exact putAllAt?_length [] hs _
  · rw [replaceByPlace?_first name hfront hname, replaceAllInFront_first hfront hname]

end ByPlace

theorem eraseFirst_pushAbove (name : StandardName) (value : Text) (hs : Headers) :
    (hs.pushAbove name value).eraseFirst name = hs := by
  have hnew := isNamed_of_self name value
  rcases lacks_or_first name hs with hnone | ⟨front, h, back, rfl, hfront, hname⟩
  · rw [hnone.pushAbove_eq, eraseFirst, List.eraseP_cons_of_pos hnew]
  · rw [pushAbove_first hfront hname, eraseFirst_first hfront hnew]

theorem standFrom_replaceAll (name : StandardName) (values : List Text) (hs : Headers) :
    (hs.replaceAll name values).StandFrom ((hs.place? name).getD hs.length) name values := by
  rcases lacks_or_first name hs with hnone | ⟨front, h, back, rfl, hfront, hname⟩
  · rw [hnone.place?_eq, hnone.replaceAll_eq]
    exact ⟨hs, [], by rw [List.append_nil], rfl, hnone, lacks_nil name⟩
  · rw [place?_first hfront hname, replaceAll_first hfront hname]
    exact ⟨front, back.without name, rfl, rfl, hfront, lacks_without name back⟩

theorem standFrom_replaceAllInFront (name : StandardName) (values : List Text) (hs : Headers) :
    (hs.replaceAllInFront name values).StandFrom ((hs.place? name).getD 0) name values := by
  rcases lacks_or_first name hs with hnone | ⟨front, h, back, rfl, hfront, hname⟩
  · rw [hnone.place?_eq, hnone.replaceAllInFront_eq]
    exact ⟨[], hs, rfl, rfl, lacks_nil name, hnone⟩
  · rw [place?_first hfront hname, replaceAllInFront_first hfront hname]
    exact ⟨front, back.without name, rfl, rfl, hfront, lacks_without name back⟩

/-- What the edits of Via, Route, Record-Route and Contact fields do to the fields of a message, and what they
leave. -/
structure EditedInPlace (hs : Headers) : Prop where
  /-- A Via that was pushed is the one that is taken off again, and then the fields are as before. -/
  taken_pushed (via : Text) :
    (hs.pushAbove .via via).topVia? = some via ∧ (hs.pushAbove .via via).eraseFirst .via = hs
  /-- The Routes are those that were set, and stand together where the first one stood, or at the end. -/
  routes_set (routes : List Text) : (hs.withRoutes routes).routes = routes ∧
    (hs.withRoutes routes).StandFrom ((hs.place? .route).getD hs.length) .route routes
  /-- The Record-Routes are those that were set, and stand together where the first one stood, or in front. -/
  recordRoutes_set (routes : List Text) : (hs.withRecordRoutes routes).recordRoutes = routes ∧
    (hs.withRecordRoutes routes).StandFrom ((hs.place? .recordRoute).getD 0) .recordRoute routes
  /-- Edits of Vias leave all other fields, in their order. -/
  besides_vias (via : Text) : (hs.pushAbove .via via).without .via = hs.without .via ∧
    (hs.eraseFirst .via).without .via = hs.without .via ∧
      (hs.replaceFirst .via via).without .via = hs.without .via
  /-- Setting Routes leaves all other fields, in their order. -/
  besides_routes (routes : List Text) : (hs.withRoutes routes).without .route = hs.without .route
  /-- Setting Record-Routes leaves all other fields, in their order. -/
  besides_recordRoutes (routes : List Text) :
    (hs.withRecordRoutes routes).without .recordRoute = hs.without .recordRoute
  /-- Another URI in the Contact leaves all other fields, in their order. -/
  besides_contact (uri : Uri) : (hs.withContactUri uri).without .contact = hs.without .contact
  /-- Carried out by index, the edits find a place for every field, and the fields come out the same. -/
  by_place (via : Text) (routes : List Text) :
    hs.pushByPlace? .via via = some (hs.pushAbove .via via) ∧
      hs.takeByPlace? .via = some (hs.topVia?, hs.eraseFirst .via) ∧
        hs.replaceByPlace? .route routes id = some (hs.withRoutes routes) ∧
          hs.replaceByPlace? .recordRoute routes (fun _ => 0) = some (hs.withRecordRoutes routes)

theorem edited_in_place (hs : Headers) : hs.EditedInPlace where
  taken_pushed via := by
    have hvias := values_pushAbove .via via hs
    refine ⟨?_, eraseFirst_pushAbove .via via hs⟩
    rw [topVia?_eq_head?, vias, hvias, List.head?_cons]
  routes_set routes := ⟨values_replaceAll .route routes hs, standFrom_replaceAll .route routes hs⟩
  recordRoutes_set routes :=
    ⟨values_replaceAllInFront .recordRoute routes hs, standFrom_replaceAllInFront .recordRoute routes hs⟩
  besides_vias via :=
    ⟨without_pushAbove .via via hs, without_eraseFirst .via hs, without_replaceFirst .via via hs⟩
  besides_routes routes := without_replaceAll .route routes hs
  besides_recordRoutes routes := without_replaceAllInFront .recordRoute routes hs
  besides_contact uri := without_withContactUri uri hs
  by_place via routes :=
    ⟨pushByPlace?_eq .via hs via, takeByPlace?_eq .via hs, replaceByPlace?_length .route hs routes,
      replaceByPlace?_zero .recordRoute hs routes⟩

/-- Scattered Routes come together where the first one stood. -/
example :
    withRoutes ["<sip:c>".toList] [.of .via "a".toList, .of .route "<sip:a>".toList, .of .to "b".toList,
        .of .route "<sip:b>".toList] =
      [.of .via "a".toList, .of .route "<sip:c>".toList, .of .to "b".toList] := by
  decide

end BorderProxy.Headers
