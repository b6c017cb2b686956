import BorderProxy.Proofs.Sdp.Redirected

/-! Where the lines of a body stand: in the session, or in one of the sections. What a line begins with tells
what it says, so the places can be told from the lines as they are written. -/

namespace BorderProxy

namespace Sdp

/-- Each line with the section that it stands in, which is none before the first media line. -/
def placed (place : Option Nat) : List Text → List (Option Nat × Text)
  | [] => []
  | raw :: raws =>
    let next := if Text.startsWith "m=".toList raw then some (place.elim 0 (· + 1)) else place
    (next, raw) :: placed next raws

theorem map_placed (place : Option Nat) (raws : List Text) : (placed place raws).map (·.2) = raws := by
  induction raws generalizing place with
  | nil => rfl
  | cons raw raws ih => exact congrArg _ (ih _)

end Sdp

namespace SdpItem

/-- What a line begins with that says this. -/
def mark : SdpItem → Text
  | .media .. => "m=".toList
  | .connection _ => "c=".toList
  | .title => "i=".toList
  | .rtcp => "a=rtcp:".toList
  | .other => []

end SdpItem

namespace SdpLine

variable {l : SdpLine}

/-! What a line begins with tells what it says. -/

theorem exists_of_readMedia {rest : Text} {item : SdpItem} (h : (readMedia rest).toOption = some item) :
    ∃ kind port, item = .media kind port := by
  unfold readMedia at h
  split at h
  · cases h
  · cases h
  · split at h
    · exact ⟨_, _, (Option.some.inj h).symm⟩
    · cases h

theorem exists_of_map_connection {result : Except Fault Ip} {item : SdpItem}
    (h : (result.map SdpItem.connection).toOption = some item) : ∃ ip, item = .connection ip := by
  cases result with
  | error fault => cases h
  | ok ip => exact ⟨ip, (Option.some.inj h).symm⟩

theorem Legible.startsWith_mark (h : l.Legible) : Text.startsWith l.item.mark l.raw = true := by
  have hreads := h.reads
  rw [readItem_eq] at hreads
  cases hm : Text.afterPrefix? ['m', '='] l.raw with
  | some rest =>
      rw [hm] at hreads
      obtain ⟨kind, port, hitem⟩ := exists_of_readMedia hreads
      rw [hitem]
      exact Option.isSome_of_eq_some hm
  | none =>
      rw [hm] at hreads
      cases hc : Text.afterPrefix? ['c', '='] l.raw with
      | some rest =>
          rw [hc] at hreads
          obtain ⟨ip, hitem⟩ := exists_of_map_connection hreads
          rw [hitem]
          exact Option.isSome_of_eq_some hc
      | none =>
          rw [hc] at hreads
          cases hi : Text.afterPrefix? ['i', '='] l.raw with
          | some rest =>
              rw [hi] at hreads
              rw [← Option.some.inj hreads]
              exact Option.isSome_of_eq_some hi
          | none =>
              rw [hi] at hreads
              rw [← Option.some.inj hreads]
              cases hrtcp : Text.startsWith "a=rtcp:".toList l.raw with
              | true => exact hrtcp
              | false => rfl

theorem Legible.isMedia_eq (h : l.Legible) : l.isMedia = Text.startsWith "m=".toList l.raw := by
  cases hm : Text.afterPrefix? ['m', '='] l.raw with
  | some rest =>
      have hreads := h.reads
      rw [readItem_eq, hm] at hreads
      obtain ⟨kind, port, hitem⟩ := exists_of_readMedia hreads
      rw [isMedia, hitem]
      exact (Option.isSome_of_eq_some hm).symm
  | none =>
      have hnot : Text.startsWith "m=".toList l.raw = false := Option.isSome_eq_false_iff.mpr
        (Option.isNone_iff_eq_none.mpr hm)
      have hmark := h.startsWith_mark
      rw [hnot, isMedia]
      split
      · rename_i kind port hitem
        rw [hitem] at hmark
        cases hnot.symm.trans hmark
      · rfl

/-- A connection line is read from its content as it was read from the whole line. -/
theorem Legible.readConnection_content (h : l.Legible) {rest : Text}
    (hrest : Text.afterPrefix? "c=".toList (content l.raw) = some rest) :
    ∃ ip, readConnection rest = .ok ip ∧ l.item = .connection ip := by
  have hreads := h.reads
  have hcontent : content l.raw = 'c' :: '=' :: rest := Text.afterPrefix?_eq_some_iff.mp hrest
  rw [← toOption_readItem_content, hcontent, readItem] at hreads
  cases hip : readConnection rest with
  | error fault =>
      rw [hip] at hreads
      cases hreads
  | ok ip =>
      rw [hip] at hreads
      exact ⟨ip, rfl, (Option.some.inj hreads).symm⟩

end SdpLine

namespace Sdp

theorem placed_append_of_not_media {lines : List SdpLine} (hlegible : ∀ l ∈ lines, l.Legible)
    (hmedia : ∀ l ∈ lines, l.isMedia = false) (place : Option Nat) (rest : List Text) :
    placed place (lines.map (·.raw) ++ rest) =
      lines.map (fun l => (place, l.raw)) ++ placed place rest := by
  induction lines with
  | nil => rfl
  | cons l lines ih =>
      have hnot : Text.startsWith "m=".toList l.raw = false := by
        rw [← (hlegible l List.mem_cons_self).isMedia_eq]
        exact hmedia l List.mem_cons_self
      rw [List.map_cons, List.cons_append, placed, hnot, if_neg Bool.false_ne_true]
      exact congrArg _ (ih (fun m hm => hlegible m (List.mem_cons_of_mem _ hm))
        fun m hm => hmedia m (List.mem_cons_of_mem _ hm))

theorem placed_sections {parts : List SdpSection} (hlegible : ∀ part ∈ parts, ∀ l ∈ part.allLines, l.Legible)
    (hmedia : ∀ part ∈ parts, ∀ l ∈ part.lines, l.isMedia = false) (place : Option Nat) :
    placed place ((parts.flatMap SdpSection.allLines).map (·.raw)) =
      (parts.zipIdx (place.elim 0 (· + 1))).flatMap fun entry =>
        entry.1.allLines.map fun l => (some entry.2, l.raw) := by
  induction parts generalizing place with
  | nil => rfl
  | cons part parts ih =>
      have hpart := hlegible part List.mem_cons_self
      have hhead : Text.startsWith "m=".toList part.headLine.raw = true := by
        rw [← (hpart part.headLine List.mem_cons_self).isMedia_eq]
        rfl
      have hlines := placed_append_of_not_media (fun l hl => hpart l (List.mem_cons_of_mem _ hl))
        (hmedia part List.mem_cons_self) (some (place.elim 0 (· + 1)))
        ((parts.flatMap SdpSection.allLines).map (·.raw))
      have hrest := ih (fun p hp => hlegible p (List.mem_cons_of_mem _ hp))
        (fun p hp => hmedia p (List.mem_cons_of_mem _ hp)) (some (place.elim 0 (· + 1)))
      rw [hrest] at hlines
      rw [List.flatMap_cons, List.map_append, SdpSection.allLines, List.map_cons, List.cons_append, placed,
        if_pos hhead, hlines,
        List.zipIdx_cons, List.flatMap_cons]
      rfl

variable {s : Sdp}

theorem rawLines_raw (h : s.Legible) : rawLines s.raw = s.allLines.map (·.raw) := by
  rw [raw, List.flatMap_def]
  refine rawLines_flatten (fun raw hraw => ?_) (List.pairwise_map.mpr h.ends)
  obtain ⟨l, hl, rfl⟩ := List.mem_map.mp hraw
  exact (h.lines l hl).shape

/-- The lines of a description are those of the session, and then those of each section. -/
theorem placed_rawLines (h : s.Legible) :
    placed none (rawLines s.raw) = s.session.map (fun l => (none, l.raw)) ++
      s.sections.zipIdx.flatMap fun entry => entry.1.allLines.map fun l => (some entry.2, l.raw) := by
  rw [rawLines_raw h, allLines, List.map_append,
    placed_append_of_not_media (fun l hl => h.lines l (List.mem_append_left _ hl)) h.session,
    placed_sections (fun part hpart => h.mem_section hpart) h.sections]
  rfl

/-- Each line of a body that was read stands in the session or in one of the sections, and a connection line
is read again from its content. -/
theorem reads_again {place : Option Nat} {raw : Text} (h : s.Legible)
    (hmem : (place, raw) ∈ placed none (rawLines s.raw)) :
    (∀ i, place = some i → i < s.sections.length) ∧
      ∀ rest, Text.afterPrefix? "c=".toList (SdpLine.content raw) = some rest →
        ∃ ip, SdpLine.readConnection rest = .ok ip := by
  rw [placed_rawLines h] at hmem
  rcases List.mem_append.mp hmem with hmem | hmem
  · obtain ⟨l, hl, heq⟩ := List.mem_map.mp hmem
    obtain ⟨rfl, rfl⟩ := Prod.mk.inj heq
    refine ⟨fun i hplace => (by cases hplace), fun rest hrest => ?_⟩
    obtain ⟨ip, hip, -⟩ := (h.lines l (List.mem_append_left _ hl)).readConnection_content hrest
    exact ⟨ip, hip⟩
  · obtain ⟨entry, hentry, hmem⟩ := List.mem_flatMap.mp hmem
    obtain ⟨l, hl, heq⟩ := List.mem_map.mp hmem
    obtain ⟨rfl, rfl⟩ := Prod.mk.inj heq
    refine ⟨fun i hplace => ?_, fun rest hrest => ?_⟩
    · obtain rfl := Option.some.inj hplace
      simpa using List.snd_lt_of_mem_zipIdx hentry
    · have hlegible := h.mem_section (List.fst_mem_of_mem_zipIdx hentry) l hl
      obtain ⟨ip, hip, -⟩ := hlegible.readConnection_content hrest
      exact ⟨ip, hip⟩

end Sdp

end BorderProxy
