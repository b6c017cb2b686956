import BorderProxy.Text
import Mathlib.Data.List.DropRight

/-! Pieces of text. Joined pieces are found again by splitting where none of them holds the separator, and
words joined by single blanks are the words of the joined text. A pattern is cut at where it stands first. -/

namespace BorderProxy.Text

theorem splitWhere_of_none {p : Char → Bool} {piece : Text} (h : ∀ c ∈ piece, p c = false) :
    splitWhere p piece = [piece] := by
  induction piece with
  | nil => rfl
  | cons c cs ih =>
      rw [splitWhere, h c List.mem_cons_self, ih fun d hd => h d (List.mem_cons_of_mem _ hd)]
      rfl

theorem splitWhere_append {p : Char → Bool} {piece rest : Text} {mark : Char} (hmark : p mark = true)
    (h : ∀ c ∈ piece, p c = false) :
    splitWhere p (piece ++ mark :: rest) = piece :: splitWhere p rest := by
  induction piece with
  | nil => rw [List.nil_append, splitWhere, hmark]; rfl
  | cons c cs ih =>
      rw [List.cons_append, splitWhere, h c List.mem_cons_self,
        ih fun d hd => h d (List.mem_cons_of_mem _ hd)]
      rfl

theorem splitWhere_join {p : Char → Bool} {mark : Char} (hmark : p mark = true) {pieces : List Text}
    (hne : pieces ≠ []) (h : ∀ piece ∈ pieces, ∀ c ∈ piece, p c = false) :
    splitWhere p (join [mark] pieces) = pieces := by
  induction pieces with
  | nil => exact absurd rfl hne
  | cons piece rest ih =>
      have hpiece := h piece List.mem_cons_self
      cases rest with
      | nil => exact splitWhere_of_none hpiece
      | cons next rest =>
          rw [join_cons_cons, List.append_assoc, List.singleton_append, splitWhere_append hmark hpiece,
            ih (by simp) fun q hq => h q (List.mem_cons_of_mem _ hq)]

theorem splitOn_join {mark : Char} {pieces : List Text} (hne : pieces ≠ [])
    (h : ∀ piece ∈ pieces, mark ∉ piece) : splitOn mark (join [mark] pieces) = pieces := by
  apply splitWhere_join (by simp) hne
  intro piece hp c hc
  have hcne : c ≠ mark := fun heq => h piece hp (heq ▸ hc)
  simp [hcne]

theorem splitOn_of_not_mem {mark : Char} {piece : Text} (h : mark ∉ piece) :
    splitOn mark piece = [piece] := by
  apply splitWhere_of_none
  intro c hc
  have hcne : c ≠ mark := fun heq => h (heq ▸ hc)
  simp [hcne]

theorem splitOn_append {mark : Char} {piece : Text} (h : mark ∉ piece) (rest : Text) :
    splitOn mark (piece ++ mark :: rest) = piece :: splitOn mark rest := by
  apply splitWhere_append (by simp)
  intro c hc
  have hcne : c ≠ mark := fun heq => h (heq ▸ hc)
  simp [hcne]

/-- A text is split at a mark wherever the mark stands. -/
theorem splitOn_append_cons (mark : Char) (front back : Text) :
    splitOn mark (front ++ mark :: back) = splitOn mark front ++ splitOn mark back := by
  induction front with
  | nil => exact splitOn_append List.not_mem_nil back
  | cons c cs ih =>
      unfold splitOn at ih ⊢
      rw [List.cons_append, splitWhere, splitWhere, ih]
      split
      · rfl
      · obtain ⟨piece, pieces, hpieces⟩ := List.exists_cons_of_ne_nil (splitWhere_ne_nil (· == mark) cs)
        rw [hpieces]
        rfl

theorem join_append_cons (separator start piece : Text) (pieces : List Text) :
    join separator ((start ++ piece) :: pieces) = start ++ join separator (piece :: pieces) := by
  cases pieces with
  | nil => rfl
  | cons next rest => simp [join_cons_cons]

theorem mem_join {separator : Text} {pieces : List Text} {c : Char} (h : c ∈ join separator pieces) :
    c ∈ separator ∨ ∃ piece ∈ pieces, c ∈ piece := by
  induction pieces with
  | nil => cases h
  | cons piece rest ih =>
      cases rest with
      | nil => exact .inr ⟨piece, List.mem_cons_self, h⟩
      | cons next rest =>
          rw [join_cons_cons, List.append_assoc] at h
          rcases List.mem_append.mp h with h | h
          · exact .inr ⟨piece, List.mem_cons_self, h⟩
          · rcases List.mem_append.mp h with h | h
            · exact .inl h
            · obtain h | ⟨p, hp, hc⟩ := ih h
              · exact .inl h
              · exact .inr ⟨p, List.mem_cons_of_mem _ hp, hc⟩

/-- A word: a text without blanks that is not empty. -/
def IsWord (t : Text) : Prop := t ≠ [] ∧ ∀ c ∈ t, isBlank c = false

instance (t : Text) : Decidable (IsWord t) :=
  decidable_of_iff (t ≠ [] ∧ (t.all fun c => !isBlank c) = true) (by simp [IsWord])

theorem not_blank_of_visible {c : Char} (hlow : 33 ≤ c.toNat) (hhigh : c.toNat ≤ 126) :
    isBlank c = false := by
  unfold isBlank
  dsimp only
  generalize c.toNat = n at hlow hhigh
  simp only [Bool.or_eq_false_iff, Bool.and_eq_false_iff, decide_eq_false_iff_not, beq_eq_false_iff_ne]
  omega

theorem words_join {pieces : List Text} (h : ∀ piece ∈ pieces, IsWord piece) :
    words (join [' '] pieces) = pieces := by
  cases pieces with
  | nil => rfl
  | cons piece rest =>
      rw [words, splitWhere_join (by decide) (by simp) fun q hq => (h q hq).2, List.filter_eq_self]
      intro q hq
      simpa using (h q hq).1

theorem not_blank_of_mem_splitWhere {p : Char → Bool} {t piece : Text} (h : piece ∈ splitWhere p t) :
    ∀ c ∈ piece, p c = false := by
  induction t generalizing piece with
  | nil =>
      rw [splitWhere, List.mem_singleton] at h
      simp [h]
  | cons c cs ih =>
      rw [splitWhere] at h
      split at h
      · rcases List.mem_cons.mp h with rfl | h
        · simp
        · exact ih h
      · rename_i hc
        have hne := splitWhere_ne_nil p cs
        cases hs : splitWhere p cs with
        | nil => exact absurd hs hne
        | cons first rest =>
            rw [hs] at h ih
            rcases List.mem_cons.mp h with rfl | h
            · intro d hd
              rcases List.mem_cons.mp hd with rfl | hd
              · simpa using hc
              · exact ih List.mem_cons_self d hd
            · exact ih (List.mem_cons_of_mem _ h)

theorem not_mem_of_mem_splitOn {mark : Char} {t piece : Text} (h : piece ∈ splitOn mark t) :
    mark ∉ piece := fun hmem => by
  have hno := not_blank_of_mem_splitWhere h mark hmem
  simp at hno

theorem subset_of_mem_splitWhere {p : Char → Bool} {t piece : Text} (h : piece ∈ splitWhere p t) :
    piece ⊆ t := by
  induction t generalizing piece with
  | nil =>
      rw [splitWhere, List.mem_singleton] at h
      exact h ▸ List.Subset.refl _
  | cons c cs ih =>
      obtain ⟨first, rest, hcs⟩ := List.exists_cons_of_ne_nil (splitWhere_ne_nil p cs)
      rw [splitWhere, hcs] at h
      rw [hcs] at ih
      split at h
      · rcases List.mem_cons.mp h with rfl | h
        · exact List.nil_subset _
        · exact List.subset_cons_of_subset c (ih h)
      · rcases List.mem_cons.mp h with rfl | h
        · exact List.cons_subset_cons c (ih List.mem_cons_self)
        · exact List.subset_cons_of_subset c (ih (List.mem_cons_of_mem _ h))

theorem isWord_of_mem_words {t piece : Text} (h : piece ∈ words t) : IsWord piece := by
  obtain ⟨hmem, hne⟩ := List.mem_filter.mp h
  exact ⟨by simpa using hne, not_blank_of_mem_splitWhere hmem⟩

/-- Blanks at the end of a text make no words. -/
theorem words_append_blanks {t blanks : Text} (h : ∀ c ∈ blanks, isBlank c = true) :
    words (t ++ blanks) = words t := by
  have hblanks : ∀ blanks : Text, (∀ c ∈ blanks, isBlank c = true) →
      ∃ empties : List Text, splitWhere isBlank blanks = [] :: empties ∧ ∀ e ∈ empties, e = [] := by
    intro blanks
    induction blanks with
    | nil => exact fun _ => ⟨[], rfl, by simp⟩
    | cons c cs ih =>
        intro hc
        obtain ⟨empties, heq, hempty⟩ := ih fun d hd => hc d (List.mem_cons_of_mem _ hd)
        refine ⟨[] :: empties, ?_, ?_⟩
        · rw [splitWhere, hc c List.mem_cons_self, heq]
          rfl
        · intro e he
          rcases List.mem_cons.mp he with rfl | he
          · rfl
          · exact hempty e he
  obtain ⟨empties, heq, hempty⟩ := hblanks blanks h
  have hnone : empties.filter (· != []) = [] := by
    rw [List.filter_eq_nil_iff]
    intro e he
    simp [hempty e he]
  have hsplit : splitWhere isBlank (t ++ blanks) = splitWhere isBlank t ++ empties := by
    induction t with
    | nil => rw [List.nil_append, heq]; rfl
    | cons c cs ih =>
        rw [List.cons_append, splitWhere, ih, splitWhere]
        have hne := splitWhere_ne_nil isBlank cs
        cases hs : splitWhere isBlank cs with
        | nil => exact absurd hs hne
        | cons first rest => split <;> rfl
  rw [words, hsplit, List.filter_append, hnone, List.append_nil]
  rfl

/-! Cutting and trimming. A text is cut at the first mark after a piece without one, and trimming reaches
no further than to a character that is no blank. -/

theorem cutWhere?_append {p : Char → Bool} {piece rest : Text} {mark : Char} (hmark : p mark = true)
    (h : ∀ c ∈ piece, p c = false) : cutWhere? p (piece ++ mark :: rest) = some (piece, rest) := by
  induction piece with
  | nil => rw [List.nil_append, cutWhere?, if_pos hmark]
  | cons c cs ih =>
      rw [List.cons_append, cutWhere?, if_neg (by simp [h c List.mem_cons_self]),
        ih fun d hd => h d (List.mem_cons_of_mem _ hd)]
      rfl

theorem cut?_append {mark : Char} {piece : Text} (h : mark ∉ piece) (rest : Text) :
    cut? mark (piece ++ mark :: rest) = some (piece, rest) := by
  apply cutWhere?_append (by simp)
  intro c hc
  have hcne : c ≠ mark := fun heq => h (heq ▸ hc)
  simp [hcne]

theorem cutLast?_of_not_mem {mark : Char} {t : Text} (h : mark ∉ t) : cutLast? mark t = none := by
  induction t with
  | nil => rfl
  | cons c cs ih =>
      rw [List.mem_cons, not_or] at h
      have hc : c ≠ mark := Ne.symm h.1
      simp [cutLast?, ih h.2, hc]

theorem cutLast?_append {mark : Char} (front : Text) {back : Text} (h : mark ∉ back) :
    cutLast? mark (front ++ mark :: back) = some (front, back) := by
  induction front with
  | nil => simp [cutLast?, cutLast?_of_not_mem h]
  | cons c cs ih => rw [List.cons_append, cutLast?, ih]

/-- A text has no mark, or it is cut behind the last one. -/
theorem cutLast?_cases (mark : Char) (t : Text) : (cutLast? mark t = none ∧ mark ∉ t) ∨
    ∃ front back, cutLast? mark t = some (front, back) ∧ t = front ++ mark :: back ∧ mark ∉ back := by
  induction t with
  | nil => exact .inl ⟨rfl, List.not_mem_nil⟩
  | cons c cs ih =>
      obtain ⟨hcs, hnot⟩ | ⟨front, back, hcs, rfl, hnot⟩ := ih
      · by_cases hc : c = mark
        · exact .inr ⟨[], cs, by simp [cutLast?, hcs, hc], by rw [hc]; rfl, hnot⟩
        · exact .inl ⟨by simp [cutLast?, hcs, hc], List.not_mem_cons_of_ne_of_not_mem (Ne.symm hc) hnot⟩
      · exact .inr ⟨c :: front, back, by rw [cutLast?, hcs], rfl, hnot⟩

theorem dropEndWhile_append_cons {p : Char → Bool} (front : Text) {c : Char} (h : p c = false)
    (back : Text) : dropEndWhile p (front ++ c :: back) = front ++ c :: dropEndWhile p back := by
  have hback : dropEndWhile p (c :: back) = c :: dropEndWhile p back := by
    rw [dropEndWhile]
    cases dropEndWhile p back with
    | nil => rw [h]; rfl
    | cons d rest => rfl
  induction front with
  | nil => exact hback
  | cons d rest ih =>
      rw [List.cons_append, dropEndWhile, ih]
      cases rest <;> rfl

theorem trim_append_cons {word : Text} (hword : IsWord word) {c : Char} (h : isBlank c = false)
    (back : Text) : trim (word ++ c :: back) = word ++ c :: trimEnd back := by
  obtain ⟨first, rest, rfl⟩ := List.exists_cons_of_ne_nil hword.1
  have hfirst := hword.2 first List.mem_cons_self
  rw [trim, trimStart, List.cons_append, List.dropWhile_cons_of_neg (by simp [hfirst]), ← List.cons_append,
    trimEnd, dropEndWhile_append_cons _ h]
  rfl

theorem trim_of_isWord {t : Text} (h : IsWord t) : trim t = t := by
  obtain ⟨first, rest, rfl⟩ := List.exists_cons_of_ne_nil h.1
  have hfirst := h.2 first List.mem_cons_self
  rw [trim, trimStart, List.dropWhile_cons_of_neg (by simp [hfirst]), trimEnd]
  -- The last character is no blank either.
  obtain ⟨front, last, hlast⟩ := List.eq_nil_or_concat (first :: rest) |>.resolve_left h.1
  rw [List.concat_eq_append] at hlast
  rw [hlast] at h ⊢
  rw [dropEndWhile_append_cons front (h.2 last (by simp))]
  rfl

/-- Trimming takes blanks only. -/
theorem mem_trim_of_mem {t : Text} {c : Char} (h : c ∈ t) (hc : isBlank c = false) : c ∈ trim t := by
  have hend : ∀ t : Text, c ∈ t → c ∈ dropEndWhile isBlank t := by
    intro t
    induction t with
    | nil => exact id
    | cons d rest ih =>
        intro hmem
        rw [dropEndWhile]
        cases hrest : dropEndWhile isBlank rest with
        | cons e kept =>
            rw [hrest] at ih
            exact List.mem_cons.mpr ((List.mem_cons.mp hmem).imp id ih)
        | nil =>
            rw [hrest] at ih
            rcases List.mem_cons.mp hmem with rfl | hmem
            · simp [hc]
            · exact absurd (ih hmem) List.not_mem_nil
  apply hend
  rw [← List.takeWhile_append_dropWhile (p := isBlank) (l := t)] at h
  rcases List.mem_append.mp h with h | h
  · rw [List.all_eq_true.mp List.all_takeWhile c h] at hc
    cases hc
  · exact h

/-! Cutting and splitting behind trimming. Trimming takes blanks only, so what it leaves of a text is cut and
split as the text is, as far as no blank is concerned. -/

/-- The first piece reaches to the first mark. -/
theorem headD_splitOn (mark : Char) (t : Text) : (splitOn mark t).headD [] = t.takeWhile (· != mark) := by
  induction t with
  | nil => rfl
  | cons c cs ih =>
      rw [splitOn] at ih ⊢
      rw [splitWhere]
      by_cases hc : c = mark
      · simp [hc]
      · obtain ⟨piece, pieces, hpieces⟩ := List.exists_cons_of_ne_nil (splitWhere_ne_nil (· == mark) cs)
        rw [hpieces, List.headD_cons] at ih
        simp [hc, hpieces, ih]

theorem splitOn_append_of_not_mem {mark : Char} {front : Text} (h : mark ∉ front) {back piece : Text}
    {pieces : List Text} (hback : splitOn mark back = piece :: pieces) :
    splitOn mark (front ++ back) = (front ++ piece) :: pieces := by
  induction front with
  | nil => exact hback
  | cons c cs ih =>
      rw [List.mem_cons, not_or] at h
      have hc : (c == mark) = false := by simpa using Ne.symm h.1
      have hrest := ih h.2
      rw [splitOn] at hrest ⊢
      rw [List.cons_append, splitWhere, hc, hrest]
      rfl

theorem takeWhile_trimStart {p : Char → Bool} (h : ∀ c, isBlank c = true → p c = true) (t : Text) :
    (trimStart t).takeWhile p = trimStart (t.takeWhile p) := by
  induction t with
  | nil => rfl
  | cons c cs ih =>
      unfold trimStart at ih ⊢
      by_cases hc : isBlank c = true
      · rw [List.dropWhile_cons_of_pos hc, ih, List.takeWhile_cons_of_pos (h c hc),
          List.dropWhile_cons_of_pos hc]
      · rw [List.dropWhile_cons_of_neg hc, List.takeWhile_cons]
        split
        · rw [List.dropWhile_cons_of_neg hc]
        · rfl

/-- Blanks in front of a text belong to its first piece. -/
theorem splitOn_trimStart {mark : Char} (hmark : isBlank mark = false) {t first : Text} {rest : List Text}
    (h : splitOn mark t = first :: rest) : splitOn mark (trimStart t) = trimStart first :: rest := by
  obtain ⟨piece, pieces, hpieces⟩ := List.exists_cons_of_ne_nil (splitWhere_ne_nil (· == mark) (trimStart t))
  rw [← splitOn] at hpieces
  have hblanks : mark ∉ t.takeWhile isBlank := fun hmem => by
    rw [List.all_eq_true.mp List.all_takeWhile mark hmem] at hmark
    cases hmark
  have hwhole := splitOn_append_of_not_mem hblanks hpieces
  rw [trimStart, List.takeWhile_append_dropWhile, h] at hwhole
  obtain ⟨-, rfl⟩ := List.cons.inj hwhole
  have hfirst : piece = trimStart first := by
    have hne : ∀ c, isBlank c = true → (c != mark) = true := by
      intro c hc
      simp only [bne_iff_ne, ne_eq]
      rintro rfl
      rw [hc] at hmark
      cases hmark
    have hpiece := headD_splitOn mark (trimStart t)
    have hhead := headD_splitOn mark t
    rw [hpieces, List.headD_cons, takeWhile_trimStart hne] at hpiece
    rw [h, List.headD_cons] at hhead
    rw [hpiece, hhead]
  rw [hpieces, hfirst]

theorem trimEnd_cons (c : Char) (t : Text) :
    trimEnd (c :: t) = c :: trimEnd t ∨ isBlank c = true ∧ trimEnd t = [] ∧ trimEnd (c :: t) = [] := by
  unfold trimEnd
  rw [dropEndWhile]
  split
  · rename_i hnone
    rw [hnone]
    by_cases hc : isBlank c = true
    · exact .inr ⟨hc, rfl, if_pos hc⟩
    · exact .inl (if_neg hc)
  · exact .inl rfl

theorem trimEnd_cons_congr {t s : Text} (h : trimEnd t = trimEnd s) (c : Char) :
    trimEnd (c :: t) = trimEnd (c :: s) := by
  unfold trimEnd at h ⊢
  rw [dropEndWhile, dropEndWhile, h]

theorem trimStart_trimEnd (t : Text) : trimStart (trimEnd t) = trim t := by
  rw [trim]
  induction t with
  | nil => rfl
  | cons c cs ih =>
      unfold trimStart at ih ⊢
      by_cases hc : isBlank c = true
      · rw [List.dropWhile_cons_of_pos hc, ← ih]
        rcases trimEnd_cons c cs with hend | ⟨-, hcs, hend⟩
        · rw [hend, List.dropWhile_cons_of_pos hc]
        · rw [hend, hcs]
      · rcases trimEnd_cons c cs with hend | ⟨hblank, -⟩
        · rw [List.dropWhile_cons_of_neg hc, hend, List.dropWhile_cons_of_neg hc]
        · exact absurd hblank hc

/-- Blanks at the end of a text are blanks at the end of its front, or stand behind the front. -/
theorem trimEnd_takeWhile_trimEnd {p : Char → Bool} (h : ∀ c, isBlank c = true → p c = true) (t : Text) :
    trimEnd ((trimEnd t).takeWhile p) = trimEnd (t.takeWhile p) := by
  induction t with
  | nil => rfl
  | cons c cs ih =>
      rcases trimEnd_cons c cs with hend | ⟨hc, hcs, hend⟩
      · rw [hend, List.takeWhile_cons, List.takeWhile_cons]
        split
        · exact trimEnd_cons_congr ih c
        · rfl
      · rw [hcs] at ih
        rw [hend, List.takeWhile_cons_of_pos (h c hc), ← trimEnd_cons_congr ih, List.takeWhile_nil, trimEnd,
          trimEnd, dropEndWhile, dropEndWhile, if_pos hc]
        rfl

theorem trim_takeWhile_trim {p : Char → Bool} (h : ∀ c, isBlank c = true → p c = true) (t : Text) :
    trim ((trim t).takeWhile p) = trim (t.takeWhile p) := by
  have htwice : trimStart (trimStart ((trimEnd t).takeWhile p)) = trimStart ((trimEnd t).takeWhile p) :=
    List.dropWhile_idempotent isBlank _
  rw [← trimStart_trimEnd t, takeWhile_trimStart h, trim, htwice, ← trim, ← trimStart_trimEnd,
    trimEnd_takeWhile_trimEnd h, trimStart_trimEnd]

theorem cutWhere?_eq_some {p : Char → Bool} {t before after : Text}
    (h : cutWhere? p t = some (before, after)) :
    ∃ c, t = before ++ c :: after ∧ p c = true ∧ ∀ d ∈ before, p d = false := by
  induction t generalizing before with
  | nil => cases h
  | cons c cs ih =>
      rw [cutWhere?] at h
      split at h
      · rename_i hc
        obtain ⟨rfl, rfl⟩ := Prod.mk.inj (Option.some.inj h)
        exact ⟨c, rfl, hc, by simp⟩
      · rename_i hc
        obtain ⟨⟨front, back⟩, hrest, heq⟩ := Option.map_eq_some_iff.mp h
        obtain ⟨rfl, rfl⟩ := Prod.mk.inj heq
        obtain ⟨d, rfl, hd, hfront⟩ := ih hrest
        refine ⟨d, rfl, hd, fun e he => ?_⟩
        rcases List.mem_cons.mp he with rfl | he
        · exact Bool.eq_false_iff.mpr hc
        · exact hfront e he

theorem cutWhere?_eq_none_iff {p : Char → Bool} {t : Text} :
    cutWhere? p t = none ↔ ∀ c ∈ t, p c = false := by
  induction t with
  | nil => simp [cutWhere?]
  | cons c cs ih =>
      rw [cutWhere?]
      by_cases hc : p c = true
      · simp [hc]
      · simp [hc, ih]

theorem exists_trimEnd_append (t : Text) :
    ∃ blanks, (∀ c ∈ blanks, isBlank c = true) ∧ t = trimEnd t ++ blanks := by
  induction t with
  | nil => exact ⟨[], by simp, rfl⟩
  | cons c cs ih =>
      obtain ⟨blanks, hblanks, hcs⟩ := ih
      rcases trimEnd_cons c cs with hend | ⟨hc, hnone, hend⟩
      · exact ⟨blanks, hblanks, by rw [hend, List.cons_append, ← hcs]⟩
      · rw [hnone, List.nil_append] at hcs
        refine ⟨c :: blanks, fun d hd => ?_, by rw [hend, List.nil_append, ← hcs]⟩
        rcases List.mem_cons.mp hd with rfl | hd
        · exact hc
        · exact hblanks d hd

theorem trim_subset (t : Text) : trim t ⊆ t := by
  intro c hc
  obtain ⟨blanks, -, hwhole⟩ := exists_trimEnd_append (trimStart t)
  have hstart : c ∈ trimStart t := by
    rw [hwhole]
    exact List.mem_append_left _ hc
  exact (List.dropWhile_suffix isBlank).subset hstart

theorem trimEnd_append_blanks {blanks : Text} (h : ∀ c ∈ blanks, isBlank c = true) (t : Text) :
    trimEnd (t ++ blanks) = trimEnd t := by
  induction t with
  | nil =>
      induction blanks with
      | nil => rfl
      | cons c cs ih =>
          have hcs := ih fun d hd => h d (List.mem_cons_of_mem _ hd)
          rw [List.nil_append] at hcs ⊢
          rw [trimEnd_cons_congr hcs, trimEnd, dropEndWhile, dropEndWhile]
          exact if_pos (h c List.mem_cons_self)
  | cons c cs ih => exact trimEnd_cons_congr ih c

theorem trim_of_blanks {blanks : Text} (h : ∀ c ∈ blanks, isBlank c = true) : trim blanks = [] := by
  have hstart : trimStart blanks = [] := List.dropWhile_eq_nil_iff.mpr h
  rw [trim, hstart]
  rfl

section

variable {α : Type} [BEq α] [LawfulBEq α]

theorem cutAt?_eq_none_iff {pattern t : List α} (hne : pattern ≠ []) :
    cutAt? pattern t = none ↔ ¬ pattern <:+: t := by
  induction t with
  | nil => simp [cutAt?, hne]
  | cons c cs ih =>
      rw [cutAt?, List.infix_cons_iff, not_or, ← ih]
      cases hcut : afterPrefix? pattern (c :: cs) with
      | some after =>
          have heq := afterPrefix?_eq_some_iff.mp hcut
          simp [heq]
      | none =>
          have hstart : ¬ pattern <+: c :: cs := by
            rintro ⟨after, heq⟩
            rw [afterPrefix?_eq_some_iff.mpr heq.symm] at hcut
            cases hcut
          simp [hstart]

/-- Where a pattern is found does not depend on what follows it. -/
theorem cutAt?_replaced {pattern t front back : List α} (hne : pattern ≠ [])
    (h : cutAt? pattern t = some (front, back)) (back' : List α) :
    t = front ++ pattern ++ back ∧ cutAt? pattern (front ++ pattern ++ back') = some (front, back') := by
  induction t generalizing front with
  | nil => cases h
  | cons c cs ih =>
      rw [cutAt?] at h
      cases hcut : afterPrefix? pattern (c :: cs) with
      | some after =>
          rw [hcut] at h
          cases h
          refine ⟨afterPrefix?_eq_some_iff.mp hcut, ?_⟩
          obtain ⟨p, ps, rfl⟩ := List.exists_cons_of_ne_nil hne
          have hafter : afterPrefix? (p :: ps) (p :: (ps ++ back')) = some back' :=
            afterPrefix?_eq_some_iff.mpr rfl
          simp only [List.nil_append, List.cons_append, cutAt?, hafter]
      | none =>
          rw [hcut] at h
          obtain ⟨⟨rest, back⟩, hrest, hparts⟩ := Option.map_eq_some_iff.mp h
          cases hparts
          obtain ⟨rfl, hcut'⟩ := ih hrest
          refine ⟨rfl, ?_⟩
          have hnone : afterPrefix? pattern (c :: (rest ++ pattern ++ back')) = none := by
            rw [Option.eq_none_iff_forall_ne_some]
            intro after hafter
            -- The pattern would end before what was replaced, and so stand in front of `t` too.
            have hstart : pattern <+: c :: rest ++ pattern := by
              have hlonger : pattern <+: c :: rest ++ pattern ++ back' :=
                ⟨after, (afterPrefix?_eq_some_iff.mp hafter).symm⟩
              exact List.prefix_of_prefix_length_le hlonger (List.prefix_append _ _) (by simp; omega)
            obtain ⟨after', heq⟩ := hstart.trans (List.prefix_append (c :: rest ++ pattern) back)
            have hsome := afterPrefix?_eq_some_iff.mpr heq.symm
            simp only [List.cons_append] at hsome
            rw [hsome] at hcut
            cases hcut
          simp only [List.cons_append, cutAt?, hnone, hcut', Option.map_some]

/-- A pattern is cut at where it stands first. -/
theorem not_infix_of_cutAt? {pattern t front back : List α} (hne : pattern ≠ [])
    (h : cutAt? pattern t = some (front, back)) : ¬ pattern <:+: front := by
  induction t generalizing front with
  | nil => cases h
  | cons c cs ih =>
      rw [cutAt?] at h
      cases hcut : afterPrefix? pattern (c :: cs) with
      | some after =>
          rw [hcut] at h
          cases h
          exact fun hinside => hne (List.infix_nil.mp hinside)
      | none =>
          rw [hcut] at h
          obtain ⟨⟨rest, more⟩, hrest, hparts⟩ := Option.map_eq_some_iff.mp h
          cases hparts
          rw [List.infix_cons_iff, not_or]
          refine ⟨?_, ih hrest⟩
          rintro ⟨after, heq⟩
          have hwhole : c :: cs = pattern ++ (after ++ (pattern ++ more)) := by
            rw [(cutAt?_replaced hne hrest []).1, ← List.append_assoc pattern, heq]
            simp
          rw [afterPrefix?_eq_some_iff.mpr hwhole] at hcut
          cases hcut

end

end BorderProxy.Text
