import BorderProxy.Proofs.Text.Pieces

/-! Trimmed text. Trimming takes blanks off both ends of a text and nothing else, so what is trimmed is the
same with more blanks around it, and is trimmed no further. -/

namespace BorderProxy.Text

theorem exists_trim_append (t : Text) :
    ∃ front back, (∀ c ∈ front, isBlank c = true) ∧ (∀ c ∈ back, isBlank c = true) ∧
      t = front ++ trim t ++ back := by
  obtain ⟨back, hback, hend⟩ := exists_trimEnd_append (trimStart t)
  refine ⟨t.takeWhile isBlank, back, List.all_eq_true.mp List.all_takeWhile, hback, ?_⟩
  calc t = t.takeWhile isBlank ++ trimStart t := List.takeWhile_append_dropWhile.symm
    _ = t.takeWhile isBlank ++ (trim t ++ back) := congrArg (t.takeWhile isBlank ++ ·) hend
    _ = t.takeWhile isBlank ++ trim t ++ back := (List.append_assoc _ _ _).symm

section Blanks

variable {blanks : Text} (h : ∀ c ∈ blanks, isBlank c = true) (t : Text)

include h

theorem trim_blanks_append : trim (blanks ++ t) = trim t := by
  rw [trim, trimStart, List.dropWhile_append_of_pos h]
  rfl

theorem trim_append_blanks : trim (t ++ blanks) = trim t := by
  rw [← trimStart_trimEnd, trimEnd_append_blanks h, trimStart_trimEnd]

end Blanks

theorem trim_trim (t : Text) : trim (trim t) = trim t := by
  obtain ⟨front, back, hfront, hback, ht⟩ := exists_trim_append t
  have hwhole : trim t = trim (front ++ trim t ++ back) := congrArg trim ht
  rw [trim_append_blanks hback, trim_blanks_append hfront] at hwhole
  exact hwhole.symm

/-- Of a text that begins with no blank, blanks at the end are taken off. -/
theorem exists_append_of_trim {c : Char} (hc : isBlank c = false) (t : Text) :
    ∃ back, (∀ d ∈ back, isBlank d = true) ∧ c :: t = trim (c :: t) ++ back := by
  obtain ⟨front, back, hfront, hback, hwhole⟩ := exists_trim_append (c :: t)
  cases front with
  | nil => exact ⟨back, hback, hwhole⟩
  | cons d rest =>
      obtain ⟨rfl, -⟩ := List.cons.inj hwhole
      have hblank := hfront c List.mem_cons_self
      rw [hc] at hblank
      cases hblank

theorem trim_ne_nil {c : Char} (hc : isBlank c = false) (t : Text) : trim (c :: t) ≠ [] :=
  List.ne_nil_of_mem (mem_trim_of_mem List.mem_cons_self hc)

/-- A text is trimmed if it begins and ends with characters that are no blanks. -/
theorem trim_of_ends {first last : Char} (hfirst : isBlank first = false) (hlast : isBlank last = false)
    {t inner : Text} (hstart : t.head? = some first) (hend : t = inner ++ [last]) : trim t = t := by
  obtain ⟨rest, rfl⟩ : ∃ rest, t = first :: rest := by
    cases t with
    | nil => cases hstart
    | cons c rest => exact ⟨rest, congrArg (· :: rest) (Option.some.inj hstart)⟩
  rw [trim, trimStart, List.dropWhile_cons_of_neg (by simp [hfirst]), hend, trimEnd,
    dropEndWhile_append_cons inner hlast]
  rfl

end BorderProxy.Text
