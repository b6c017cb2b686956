import BorderProxy.Message.Normal
import BorderProxy.Proofs.Field.CommaList

/-! The normal form of header fields. Bringing fields into it once more changes nothing, the values that are taken
apart come out as single items, and fields that are written in another way, with values of a name together in a
list or each in a field of its own and with names in their compact form or not, have the same normal form. -/

namespace BorderProxy

/-! Fields as they are written. -/

/-- The letter that stands for a name in its compact form. -/
def StandardName.letter? : StandardName → Option Char
  | .from => some 'f'
  | .to => some 't'
  | .callId => some 'i'
  | .contact => some 'm'
  | .via => some 'v'
  | .contentLength => some 'l'
  | .contentType => some 'c'
  | .contentEncoding => some 'e'
  | .supported => some 'k'
  | .subject => some 's'
  | _ => none

/-- A field spells another one: it is the same, or it has the letter of its name in either case. -/
inductive Header.Spells : Header → Header → Prop
  | same (h : Header) : Spells h h
  | compact {name : StandardName} {letter : Char} {spelling value : Text}
      (hletter : name.letter? = some letter) (hcase : Text.sameLetters spelling [letter] = true) :
      Spells ⟨.other spelling, value⟩ (.of name value)

namespace Headers

/-- Fields that write others: each of them spells one field, or a field that lists the values of several fields
of a name whose values are taken apart. -/
inductive Writes : Headers → Headers → Prop
  | nil : Writes [] []
  | field {h h' : Header} {fields written : Headers} (hspells : h'.Spells h)
      (hrest : Writes fields written) : Writes (h :: fields) (h' :: written)
  | list {name : StandardName} {value : Text} {values : List Text} {h' : Header} {fields written : Headers}
      (hsplit : (HeaderName.standard name).isSplit = true) (hlists : CommaList.Lists value values)
      (hspells : h'.Spells (.of name value)) (hrest : Writes fields written) :
      Writes (values.map (.of name) ++ fields) (h' :: written)

/-- Two ways of writing the same fields. -/
def WriteSame (hs hs' : Headers) : Prop := ∃ fields : Headers, fields.Writes hs ∧ fields.Writes hs'

end Headers

/-! Names. -/

theorem StandardName.ofCompact_of_letter {name : StandardName} {letter : Char} {spelling : Text}
    (hletter : name.letter? = some letter) (hcase : Text.sameLetters spelling [letter] = true) :
    ofCompact spelling = some name := by
  rw [Text.sameLetters, beq_iff_eq] at hcase
  rw [ofCompact, hcase]
  cases name <;> cases hletter <;> rfl

/-- A name that is no compact one. -/
def HeaderName.IsLong : HeaderName → Prop
  | .standard _ => True
  | .other spelling => StandardName.ofCompact spelling = none

theorem Header.expand_of_isLong {h : Header} (hlong : h.name.IsLong) : h.expand = h := by
  obtain ⟨name, value⟩ := h
  cases name with
  | standard name => rfl
  | other spelling =>
      have hnone : StandardName.ofCompact spelling = none := hlong
      simp only [expand, hnone]

theorem Header.isLong_expand (h : Header) : h.expand.name.IsLong := by
  obtain ⟨name, value⟩ := h
  cases name with
  | standard name => exact trivial
  | other spelling =>
      cases hcompact : StandardName.ofCompact spelling with
      | some name =>
          simp only [expand, hcompact]
          exact trivial
      | none =>
          simp only [expand, hcompact]
          exact hcompact

theorem Header.Spells.expand_eq {h h' : Header} (hspells : h'.Spells h) : h'.expand = h.expand := by
  cases hspells with
  | same => rfl
  | compact hletter hcase => simp only [expand, StandardName.ofCompact_of_letter hletter hcase]

theorem Header.name_of_mem_splitItems {h item : Header} (hitem : item ∈ h.splitItems) :
    item.name = h.name := by
  rw [splitItems] at hitem
  split at hitem
  · obtain ⟨value, -, rfl⟩ := List.mem_map.mp hitem
    rfl
  · rw [List.mem_singleton.mp hitem]

/-! Values. -/

/-- What a field is split into is split no further. -/
theorem Header.splitItems_of_mem_splitItems {h item : Header} (hitem : item ∈ h.splitItems) :
    item.splitItems = [item] := by
  have hname := name_of_mem_splitItems hitem
  rw [splitItems] at hitem ⊢
  by_cases hsplit : h.name.isSplit = true
  · rw [if_pos hsplit] at hitem
    obtain ⟨value, hvalue, rfl⟩ := List.mem_map.mp hitem
    rw [if_pos hsplit, (CommaList.items_of_mem_items hvalue).2.2]
    rfl
  · rw [hname, if_neg hsplit]

namespace Headers

open CommaList

theorem normal_cons (h : Header) (hs : Headers) : normal (h :: hs) = h.expand.splitItems ++ hs.normal :=
  List.flatMap_cons

theorem normal_append (hs hs' : Headers) : normal (hs ++ hs') = hs.normal ++ hs'.normal :=
  List.flatMap_append

theorem normal_normal (hs : Headers) : hs.normal.normal = hs.normal := by
  have hitem : ∀ item ∈ hs.normal, item.expand.splitItems = [item] := by
    intro item hmem
    obtain ⟨h, -, hitem⟩ := List.mem_flatMap.mp hmem
    have hlong : item.name.IsLong := Header.name_of_mem_splitItems hitem ▸ h.isLong_expand
    rw [Header.expand_of_isLong hlong, Header.splitItems_of_mem_splitItems hitem]
  calc hs.normal.normal = hs.normal.flatMap fun item => [item] := List.flatMap_congr hitem
    _ = hs.normal := List.flatMap_singleton' hs.normal

theorem value_of_mem_normal {hs : Headers} {item : Header} (hmem : item ∈ hs.normal)
    (hsplit : item.name.isSplit = true) :
    item.value ≠ [] ∧ Text.trim item.value = item.value ∧ items item.value = [item.value] := by
  obtain ⟨h, -, hitem⟩ := List.mem_flatMap.mp hmem
  rw [Header.name_of_mem_splitItems hitem] at hsplit
  rw [Header.splitItems, if_pos hsplit] at hitem
  obtain ⟨value, hvalue, rfl⟩ := List.mem_map.mp hitem
  exact items_of_mem_items hvalue

/-- A field with a list has the normal form of the fields with its values. -/
theorem normal_map_of {name : StandardName} (hsplit : (HeaderName.standard name).isSplit = true)
    {value : Text} {values : List Text} (hlists : Lists value values) :
    normal (values.map (.of name)) = (Header.of name value).expand.splitItems := by
  have hfield : ∀ value, (Header.of name value).expand.splitItems = (items value).map (.of name) :=
    fun value => if_pos hsplit
  rw [hfield, hlists.items_eq, List.map_flatMap, normal, List.flatMap_map]
  exact List.flatMap_congr fun value _ => hfield value

/-- Fields have the normal form of the fields that they write. -/
theorem Writes.normal_eq {fields written : Headers} (h : fields.Writes written) :
    written.normal = fields.normal := by
  induction h with
  | nil => rfl
  | field hspells _ ih => rw [normal_cons, normal_cons, hspells.expand_eq, ih]
  | list hsplit hlists hspells _ ih =>
      rw [normal_cons, normal_append, hspells.expand_eq, normal_map_of hsplit hlists, ih]

/-- Fields in their normal form stay as they are; each value of a name whose values are taken apart is a single item
there, which is not empty and has no blanks around it; and all ways of writing the same fields have the same
normal form. -/
theorem normal_canonical (hs : Headers) :
    hs.normal.normal = hs.normal ∧
      (∀ item ∈ hs.normal, item.name.isSplit = true →
        item.value ≠ [] ∧ Text.trim item.value = item.value ∧ items item.value = [item.value]) ∧
      ∀ hs', hs.WriteSame hs' → hs.normal = hs'.normal := by
  refine ⟨normal_normal hs, fun _ => value_of_mem_normal, ?_⟩
  rintro hs' ⟨fields, hwrites, hwrites'⟩
  exact hwrites.normal_eq.trans hwrites'.normal_eq.symm

/-- Two Vias and a sender, each in a field with its full name. -/
def apart : Headers :=
  [.of .via "SIP/2.0/UDP a.example;x=\"1,2\"".toList, .of .via "SIP/2.0/UDP b.example".toList,
    .of .from "<sip:a@a.example>".toList]

/-- The same fields with the Vias in a list and with the letters of the names. -/
def together : Headers :=
  [⟨.other "V".toList, "SIP/2.0/UDP a.example;x=\"1,2\" ,  SIP/2.0/UDP b.example".toList⟩,
    ⟨.other "f".toList, "<sip:a@a.example>".toList⟩]

theorem apart_canonical : apart.WriteSame together ∧ apart.normal = together.normal ∧ together.normal = apart := by
  have hfirst : IsWhole "SIP/2.0/UDP a.example;x=\"1,2\"".toList := ⟨by decide +kernel, by decide +kernel⟩
  have hsecond : IsWhole "SIP/2.0/UDP b.example".toList := ⟨by decide +kernel, by decide +kernel⟩
  have hblank : ∀ c ∈ [' '], Text.isBlank c = true := List.all_eq_true.mp (by decide)
  have hblanks : ∀ c ∈ [' ', ' '], Text.isBlank c = true := List.all_eq_true.mp (by decide)
  have hsame : apart.WriteSame together := by
    refine ⟨apart, ?_, ?_⟩
    · exact .field (.same _) (.field (.same _) (.field (.same _) .nil))
    · have hfrom : Writes [.of .from "<sip:a@a.example>".toList] _ :=
        .field (.compact rfl (by decide : Text.sameLetters "f".toList ['f'] = true)) .nil
      exact .list rfl (.more hfirst hblank hblanks (.last hsecond)) (.compact rfl (by decide)) hfrom
  obtain ⟨-, -, hnormal⟩ := normal_canonical apart
  exact ⟨hsame, hnormal together hsame, by decide +kernel⟩

end Headers

end BorderProxy
