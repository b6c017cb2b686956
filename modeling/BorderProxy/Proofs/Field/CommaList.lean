import BorderProxy.Field.CommaList
import BorderProxy.Proofs.Text.Trimming

/-! Lists with commas. A text none of whose commas stands outside quotes and brackets, and which ends outside of
them, is one item wherever it stands in a list. A list gives back the values that it was written with exactly if
all of them are such texts, but that the last one may end anywhere; and an item that a list gives back is taken
apart no further. -/

namespace BorderProxy.CommaList

open Text

/-! Where a reader stands. -/

namespace Position

/-- Where a reader stands behind a text. -/
def behind (p : Position) (t : Text) : Position := t.foldl after p

/-- Whether no comma of a text separates items when it is read from a position. -/
def unbroken (p : Position) : Text → Bool
  | [] => true
  | c :: cs => !(c = ',' && p.isOpen) && (p.after c).unbroken cs

/-- A text that a reader passes: none of its commas separates items, and he stands behind it as before it. -/
structure Passes (p : Position) (t : Text) : Prop where
  unbroken : p.unbroken t = true
  behind : p.behind t = p

variable {p : Position} {t s : Text}

theorem eq_of_isOpen (h : p.isOpen = true) : p = {} := by
  obtain ⟨quoted, bracketed⟩ := p
  cases quoted <;> cases bracketed <;> first | rfl | cases h

theorem behind_append (p : Position) (t s : Text) : p.behind (t ++ s) = (p.behind t).behind s :=
  List.foldl_append

theorem unbroken_cons {c : Char} (h : c = ',' → p.isOpen = false) :
    p.unbroken (c :: t) = (p.after c).unbroken t := by
  rw [unbroken]
  by_cases hc : c = ','
  · rw [h hc, Bool.and_false]
    rfl
  · rw [decide_eq_false hc]
    rfl

theorem unbroken_append (p : Position) (t s : Text) :
    p.unbroken (t ++ s) = (p.unbroken t && (p.behind t).unbroken s) := by
  induction t generalizing p with
  | nil => rfl
  | cons c cs ih =>
      rw [List.cons_append, unbroken, unbroken, ih, Bool.and_assoc]
      rfl

theorem Passes.nil (p : Position) : p.Passes [] := ⟨rfl, rfl⟩

theorem Passes.append (ht : p.Passes t) (hs : p.Passes s) : p.Passes (t ++ s) where
  unbroken := by rw [unbroken_append, ht.unbroken, ht.behind, hs.unbroken]; rfl
  behind := by rw [behind_append, ht.behind, hs.behind]

/-- A text of characters that change nothing for a reader where he stands. -/
theorem Passes.of_inert (h : ∀ c ∈ t, p.after c = p ∧ (c = ',' → p.isOpen = false)) : p.Passes t := by
  induction t with
  | nil => exact .nil p
  | cons c cs ih =>
      obtain ⟨hc, hcomma⟩ := h c List.mem_cons_self
      have hcs := ih fun d hd => h d (List.mem_cons_of_mem _ hd)
      have hbehind : p.behind (c :: cs) = (p.after c).behind cs := rfl
      exact ⟨by rw [unbroken_cons hcomma, hc, hcs.unbroken], by rw [hbehind, hc, hcs.behind]⟩

/-- Text between two characters that the reader passes as a whole, the first of which takes him to another
position and the last of which takes him back. -/
theorem Passes.enclosed {first last : Char} {inside : Position} (hfirst : p.after first = inside)
    (hcomma : first ≠ ',') (ht : inside.Passes t) (hlast : inside.after last = p)
    (hcomma' : last ≠ ',') : p.Passes (first :: (t ++ [last])) where
  unbroken := by
    rw [unbroken_cons fun h => absurd h hcomma, hfirst, unbroken_append, ht.unbroken, ht.behind,
      unbroken_cons fun h => absurd h hcomma']
    rfl
  behind := by
    have hbehind : p.behind (first :: (t ++ [last])) = (p.after first).behind (t ++ [last]) := rfl
    rw [hbehind, hfirst, behind_append, ht.behind]
    exact hlast

theorem after_of_plain {c : Char} (hquote : c ≠ '"') (hopening : c ≠ '<') (hclosing : c ≠ '>')
    (p : Position) : p.after c = p := by
  rw [after, if_neg hquote, if_neg hopening, if_neg hclosing, ite_self]

/-- The characters that mean something to a reader of lists. -/
def marks : List Char := ['"', '<', '>', ',']

theorem Passes.of_plain (p : Position) (h : ∀ c ∈ t, c ∉ marks) : p.Passes t := by
  refine .of_inert fun c hc => ?_
  have hplain := h c hc
  simp only [marks, List.mem_cons, List.not_mem_nil, or_false, not_or] at hplain
  obtain ⟨hquote, hopening, hclosing, hcomma⟩ := hplain
  exact ⟨after_of_plain hquote hopening hclosing p, fun h => absurd h hcomma⟩

theorem Passes.of_blanks (p : Position) (h : ∀ c ∈ t, isBlank c = true) : p.Passes t := by
  refine .of_plain p fun c hc hmark => ?_
  have hvisible : marks.all (isBlank · = false) = true := by decide
  have hnot := of_decide_eq_true (List.all_eq_true.mp hvisible c hmark)
  rw [h c hc] at hnot
  cases hnot

/-- Within quotes, nothing but a quote means anything to a reader. -/
theorem Passes.of_quoted (hp : p.quoted = true) (h : '"' ∉ t) : p.Passes t := by
  refine .of_inert fun c hc => ⟨?_, fun _ => ?_⟩
  · have hquote : c ≠ '"' := fun heq => h (heq ▸ hc)
    rw [after, if_neg hquote, if_pos hp]
  · rw [isOpen, hp]
    rfl

/-- Within brackets, a comma means nothing to a reader. -/
theorem Passes.of_bracketed (hp : p.bracketed = true) (hquote : '"' ∉ t) (hopening : '<' ∉ t)
    (hclosing : '>' ∉ t) : p.Passes t := by
  refine .of_inert fun c hc => ⟨?_, fun _ => ?_⟩
  · exact after_of_plain (fun heq => hquote (heq ▸ hc)) (fun heq => hopening (heq ▸ hc))
      (fun heq => hclosing (heq ▸ hc)) p
  · rw [isOpen, hp, Bool.not_true, Bool.and_false]

end Position

/-! Items. -/

/-- A text that is one item wherever it stands in a list: none of its commas stands outside quotes and brackets,
and it ends outside of them. -/
def IsWhole (t : Text) : Prop := Position.Passes {} t

theorem pieces_of_unbroken {p : Position} {t : Text} (h : p.unbroken t = true) : pieces p t = [t] := by
  induction t generalizing p with
  | nil => rfl
  | cons c cs ih =>
      rw [Position.unbroken, Bool.and_eq_true, Bool.not_eq_true'] at h
      rw [pieces, h.1, if_neg Bool.false_ne_true, ih h.2]

/-- A comma where the reader stands outside quotes and brackets ends a piece. -/
theorem pieces_append_comma {p : Position} {t : Text} (h : p.unbroken t = true)
    (hopen : (p.behind t).isOpen = true) (s : Text) : pieces p (t ++ ',' :: s) = t :: pieces {} s := by
  induction t generalizing p with
  | nil =>
      obtain rfl := Position.eq_of_isOpen hopen
      rfl
  | cons c cs ih =>
      rw [Position.unbroken, Bool.and_eq_true, Bool.not_eq_true'] at h
      rw [List.cons_append, pieces, h.1, if_neg Bool.false_ne_true, ih h.2 hopen]

theorem unbroken_or_comma (p : Position) (t : Text) : p.unbroken t = true ∨
    ∃ front back, t = front ++ ',' :: back ∧ p.unbroken front = true ∧ (p.behind front).isOpen = true := by
  induction t generalizing p with
  | nil => exact .inl rfl
  | cons c cs ih =>
      by_cases hsplit : (c = ',' && p.isOpen) = true
      · obtain ⟨hcomma, hopen⟩ := Bool.and_eq_true_iff.mp hsplit
        exact .inr ⟨[], cs, by rw [of_decide_eq_true hcomma]; rfl, rfl, hopen⟩
      · have hnot := Bool.eq_false_iff.mpr hsplit
        obtain hrest | ⟨front, back, rfl, hfront, hopen⟩ := ih (p.after c)
        · exact .inl (by rw [Position.unbroken, hnot, hrest]; rfl)
        · exact .inr ⟨c :: front, back, rfl, by rw [Position.unbroken, hnot, hfront]; rfl, hopen⟩

theorem items_of_unbroken {t : Text} (h : Position.unbroken {} t = true) :
    items t = [trim t].filter (· != []) := by
  rw [items, pieces_of_unbroken h]
  rfl

theorem items_append_comma {t : Text} (h : IsWhole t) (s : Text) :
    items (t ++ ',' :: s) = items t ++ items s := by
  have hopen : (Position.behind {} t).isOpen = true := by rw [h.behind]; rfl
  rw [items_of_unbroken h.unbroken, items, pieces_append_comma h.unbroken hopen, List.map_cons,
    ← List.singleton_append, List.filter_append]
  rfl

/-- A text is a last item, or an item in front of a comma and a shorter text. -/
theorem items_induction {motive : Text → Prop}
    (single : ∀ t, Position.unbroken {} t = true → motive t)
    (more : ∀ front back, IsWhole front → motive back → motive (front ++ ',' :: back)) (t : Text) :
    motive t := by
  obtain hsingle | ⟨front, back, ht, hfront, hopen⟩ := unbroken_or_comma {} t
  · exact single t hsingle
  · have hshorter : back.length < t.length := by
      rw [ht, List.length_append, List.length_cons]
      omega
    rw [ht]
    exact more front back ⟨hfront, Position.eq_of_isOpen hopen⟩ (items_induction single more back)
termination_by t.length

theorem items_eq_singleton {t : Text} (hne : t ≠ []) (htrim : trim t = t)
    (h : Position.unbroken {} t = true) : items t = [t] := by
  rw [items_of_unbroken h, htrim]
  exact List.filter_cons_of_pos (by simpa using hne)

/-- Blanks around a text belong to its first and to its last item, and are taken off there. -/
theorem items_blanks_append {blanks : Text} (h : ∀ c ∈ blanks, isBlank c = true) (t : Text) :
    items (blanks ++ t) = items t := by
  have hblanks := Position.Passes.of_blanks {} h
  induction t using items_induction with
  | single t ht =>
      have hwhole : Position.unbroken {} (blanks ++ t) = true := by
        rw [Position.unbroken_append, hblanks.unbroken, hblanks.behind, ht]
        rfl
      rw [items_of_unbroken hwhole, items_of_unbroken ht, trim_blanks_append h]
  | more front back hfront ih =>
      rw [← List.append_assoc, items_append_comma (hblanks.append hfront), items_append_comma hfront,
        items_of_unbroken (hblanks.append hfront).unbroken, items_of_unbroken hfront.unbroken,
        trim_blanks_append h]

theorem items_append_blanks {t blanks : Text} (ht : IsWhole t) (h : ∀ c ∈ blanks, isBlank c = true) :
    items (t ++ blanks) = items t := by
  have hwhole := ht.append (Position.Passes.of_blanks {} h)
  rw [items_of_unbroken hwhole.unbroken, items_of_unbroken ht.unbroken, trim_append_blanks h]

theorem unbroken_trim {t : Text} (h : Position.unbroken {} t = true) :
    Position.unbroken {} (trim t) = true := by
  obtain ⟨front, back, hfront, -, ht⟩ := exists_trim_append t
  have hblanks := Position.Passes.of_blanks {} hfront
  rw [ht, List.append_assoc, Position.unbroken_append, hblanks.behind, Position.unbroken_append,
    Bool.and_eq_true, Bool.and_eq_true] at h
  exact h.2.1

/-- What a list gives back is not empty, trimmed, and taken apart no further. -/
theorem items_of_mem_items {t item : Text} (h : item ∈ items t) :
    item ≠ [] ∧ trim item = item ∧ items item = [item] := by
  have hitem : ∀ t, Position.unbroken {} t = true → item ∈ items t →
      item ≠ [] ∧ trim item = item ∧ items item = [item] := by
    intro t ht hmem
    rw [items_of_unbroken ht, List.mem_filter, List.mem_singleton] at hmem
    obtain ⟨rfl, hne⟩ := hmem
    have hne' : trim t ≠ [] := by simpa using hne
    exact ⟨hne', trim_trim t, items_eq_singleton hne' (trim_trim t) (unbroken_trim ht)⟩
  induction t using items_induction with
  | single t ht => exact hitem t ht h
  | more front back hfront ih =>
      rw [items_append_comma hfront] at h
      exact (List.mem_append.mp h).elim (hitem front hfront.unbroken) ih

/-! Lists as they are written. -/

/-- A text that a list begins with: neither a blank nor a comma stands in front of it. -/
def BeginsItem (t : Text) : Prop := ∃ c cs, t = c :: cs ∧ isBlank c = false ∧ c ≠ ','

/-- Where a list is broken first, the text in front of the comma is its first item. -/
theorem exists_items_eq_cons {t : Text} (hbegins : BeginsItem t) (h : Position.unbroken {} t = false) :
    ∃ front back, t = front ++ ',' :: back ∧ IsWhole front ∧ BeginsItem front ∧
      items t = trim front :: items back := by
  obtain hwhole | ⟨front, back, rfl, hfront, hopen⟩ := unbroken_or_comma {} t
  · rw [hwhole] at h
    cases h
  · have hIsWhole : IsWhole front := ⟨hfront, Position.eq_of_isOpen hopen⟩
    obtain ⟨c, cs, hc, hblank, hcomma⟩ := hbegins
    cases front with
    | nil => exact absurd (List.cons.inj hc).1.symm hcomma
    | cons d rest =>
        obtain ⟨rfl, -⟩ := List.cons.inj hc
        have hfirst : items (d :: rest) = [trim (d :: rest)] := by
          rw [items_of_unbroken hfront]
          exact List.filter_cons_of_pos (by simpa using trim_ne_nil hblank rest)
        refine ⟨d :: rest, back, rfl, hIsWhole, ⟨d, rest, rfl, hblank, hcomma⟩, ?_⟩
        rw [items_append_comma hIsWhole, hfirst]
        rfl

theorem items_eq_singleton_iff {t : Text} (hbegins : BeginsItem t) (htrim : trim t = t) :
    items t = [t] ↔ Position.unbroken {} t = true := by
  constructor
  · intro hitems
    by_contra hbroken
    obtain ⟨front, back, ht, -, ⟨c, cs, rfl, hblank, -⟩, heq⟩ :=
      exists_items_eq_cons hbegins (Bool.eq_false_iff.mpr hbroken)
    -- The first item would be shorter than the text.
    have hfirst : trim (c :: cs) = t := by
      rw [hitems] at heq
      exact (List.cons.inj heq).1.symm
    obtain ⟨blanks, -, hfront⟩ := exists_append_of_trim hblank cs
    rw [hfirst] at hfront
    have hlength := congrArg List.length ht
    rw [hfront, List.length_append, List.length_append, List.length_cons] at hlength
    omega
  · obtain ⟨c, cs, rfl, -⟩ := hbegins
    exact items_eq_singleton (List.cons_ne_nil c cs) htrim

theorem items_append_comma_eq_iff {t s next : Text} {more : List Text} (hbegins : BeginsItem t)
    (htrim : trim t = t) : items (t ++ ',' :: s) = t :: next :: more ↔ IsWhole t ∧ items s = next :: more := by
  constructor
  · intro hitems
    obtain ⟨d, ds, rfl, hd, hdcomma⟩ := hbegins
    by_cases hbroken : Position.unbroken {} (d :: ds ++ ',' :: s) = true
    · -- A text without a separating comma is a single item.
      have hlength := congrArg List.length hitems
      have hle := List.length_filter_le (· != []) [trim (d :: ds ++ ',' :: s)]
      rw [items_of_unbroken hbroken, List.length_cons, List.length_cons] at hlength
      rw [List.length_singleton] at hle
      omega
    · obtain ⟨front, back, ht, hfront, ⟨c, cs, rfl, hblank, -⟩, heq⟩ :=
        exists_items_eq_cons ⟨d, ds ++ ',' :: s, rfl, hd, hdcomma⟩ (Bool.eq_false_iff.mpr hbroken)
      obtain ⟨hfirst, hrest⟩ := List.cons.inj (hitems.symm.trans heq)
      obtain ⟨blanks, hblanks, hparts⟩ := exists_append_of_trim hblank cs
      rw [← hfirst] at hparts
      -- Nothing stands between the first item and the comma behind it.
      rw [← List.cons_append, hparts, List.append_assoc, List.append_cancel_left_eq] at ht
      cases blanks with
      | nil =>
          obtain ⟨-, rfl⟩ := List.cons.inj ht
          rw [List.append_nil] at hparts
          rw [hparts] at hfront
          exact ⟨hfront, hrest.symm⟩
      | cons b bs =>
          obtain ⟨rfl, -⟩ := List.cons.inj ht
          exact absurd (hblanks ',' List.mem_cons_self) (by decide)
  · rintro ⟨hwhole, hrest⟩
    rw [items_append_comma hwhole, hrest, (items_eq_singleton_iff hbegins htrim).mpr hwhole.unbroken]
    rfl

/-- A list gives back the values that it was written with exactly if no comma of a value separates items and
every value but the last one ends outside quotes and brackets. -/
theorem items_join_iff {values : List Text} (h : ∀ v ∈ values, BeginsItem v ∧ trim v = v) :
    items (join ", ".toList values) = values ↔
      (∀ v ∈ values, Position.unbroken {} v = true) ∧ ∀ v ∈ values.dropLast, Position.behind {} v = {} := by
  induction values with
  | nil => exact ⟨fun _ => ⟨by simp, by simp⟩, fun _ => rfl⟩
  | cons value rest ih =>
      obtain ⟨hbegins, htrim⟩ := h value List.mem_cons_self
      cases rest with
      | nil =>
          rw [join, items_eq_singleton_iff hbegins htrim]
          simp
      | cons next rest =>
          have hseparator : value ++ ", ".toList ++ join ", ".toList (next :: rest) =
              value ++ ',' :: ([' '] ++ join ", ".toList (next :: rest)) := by
            rw [List.append_assoc]
            rfl
          rw [join_cons_cons, hseparator, items_append_comma_eq_iff hbegins htrim,
            items_blanks_append (List.all_eq_true.mp (by decide)), ih fun v hv => h v (List.mem_cons_of_mem _ hv)]
          constructor
          · rintro ⟨hwhole, hunbroken, hbehind⟩
            exact ⟨List.forall_mem_cons.mpr ⟨hwhole.unbroken, hunbroken⟩,
              List.forall_mem_cons.mpr ⟨hwhole.behind, hbehind⟩⟩
          · rintro ⟨hunbroken, hbehind⟩
            obtain ⟨hfirst, hunbroken⟩ := List.forall_mem_cons.mp hunbroken
            obtain ⟨hend, hbehind⟩ := List.forall_mem_cons.mp hbehind
            exact ⟨⟨hfirst, hend⟩, hunbroken, hbehind⟩

/-- A text that lists values: all of them are whole, and commas with blanks around them stand between them. -/
inductive Lists : Text → List Text → Prop
  | last {value : Text} (hvalue : IsWhole value) : Lists value [value]
  | more {value gap gap' rest : Text} {values : List Text} (hvalue : IsWhole value)
      (hgap : ∀ c ∈ gap, isBlank c = true) (hgap' : ∀ c ∈ gap', isBlank c = true)
      (hrest : Lists rest values) : Lists (value ++ gap ++ ',' :: (gap' ++ rest)) (value :: values)

/-- A list has the items of its values. -/
theorem Lists.items_eq {t : Text} {values : List Text} (h : Lists t values) :
    items t = values.flatMap items := by
  induction h with
  | last _ => exact (List.flatMap_singleton items _).symm
  | more hvalue hgap hgap' _ ih =>
      have hpassed : IsWhole _ := hvalue.append (Position.Passes.of_blanks {} hgap)
      rw [items_append_comma hpassed, items_append_blanks hvalue hgap, items_blanks_append hgap', ih,
        List.flatMap_cons]

end BorderProxy.CommaList
