import Mathlib.Data.List.Forall2
import BorderProxy.Proofs.Sdp.Facing

/-! Pointing a description at a relay, line by line. The text that comes out is that of a description which
differs from the old one only where the relay is named, so it is read as that description. -/

namespace BorderProxy

namespace RelayTarget

/-- What a line says once it is pointed at the relay. -/
def facedItem (t : RelayTarget) : SdpItem → SdpItem
  | .connection ip => .connection (if ip.isUnspecified then ip else t.ip)
  | item => item

def facedConnection (t : RelayTarget) (l : SdpLine) : SdpLine := ⟨t.faceConnection l, t.facedItem l.item⟩

def facedLine (t : RelayTarget) (port : UInt16) (l : SdpLine) : SdpLine :=
  ⟨t.faceLine port l, t.facedItem l.item⟩

def facedSection (t : RelayTarget) (port : UInt16) (part : SdpSection) : SdpSection :=
  { kind := part.kind
    port := port
    head := t.withContent part.head (mediaContent port part.head)
    lines := part.lines.map (t.facedLine port) }

/-- A line with an end. -/
def closed (t : RelayTarget) (l : SdpLine) : SdpLine :=
  ⟨l.raw ++ if l.raw.getLast? = some '\n' then [] else t.newline, l.item⟩

/-- A copy of a line that ends as the relay's lines do. -/
def restoredLine (t : RelayTarget) (l : SdpLine) : SdpLine :=
  ⟨SdpLine.content l.raw ++ t.newline, l.item⟩

def restoredSection (t : RelayTarget) (line : SdpLine) (part : SdpSection) : SdpSection :=
  { part with
    head := (t.closed part.headLine).raw
    lines := (part.lines.takeWhile SdpLine.isTitle).map t.closed ++
      t.restoredLine line :: part.lines.dropWhile SdpLine.isTitle }

end RelayTarget

namespace Sdp

/-- The last connection line of the session that puts nothing on hold. -/
def sharedLine? (s : Sdp) : Option SdpLine :=
  (s.session.filter fun line =>
    match line.item with
    | .connection ip => !ip.isUnspecified
    | _ => false).getLast?

/-- The session's connection line, if some relayed section depends on it. -/
def relayedLine? (s : Sdp) (ports : List (Option UInt16)) : Option SdpLine :=
  if s.sections.zipIdx.any fun (part, index) => part.inherits && (portOf ports index).isSome then
    s.sharedLine?
  else none

def redirectedSection (s : Sdp) (t : RelayTarget) (ports : List (Option UInt16)) (part : SdpSection)
    (index : Nat) : SdpSection :=
  match portOf ports index with
  | some port => t.facedSection port part
  | none =>
    match s.relayedLine? ports with
    | some line => if part.inherits then t.restoredSection line part else part
    | none => part

/-- The description with the sections that have a port pointed at the relay. -/
def redirected (s : Sdp) (t : RelayTarget) (ports : List (Option UInt16)) : Sdp :=
  { session := if (s.relayedLine? ports).isSome then s.session.map t.facedConnection else s.session
    sections := s.sections.zipIdx.map fun (part, index) => s.redirectedSection t ports part index }

theorem relayedConnection?_eq (s : Sdp) (ports : List (Option UInt16)) :
    s.relayedConnection? ports = (s.relayedLine? ports).map fun l => SdpLine.content l.raw := by
  unfold relayedConnection? relayedLine?
  split <;> rfl

theorem mem_session_of_relayedLine? {s : Sdp} {ports : List (Option UInt16)} {line : SdpLine}
    (h : s.relayedLine? ports = some line) :
    line ∈ s.session ∧ ∃ ip, line.item = .connection ip ∧ ip.isUnspecified = false := by
  unfold relayedLine? at h
  split at h
  · have hmem := List.mem_of_getLast? h
    obtain ⟨hsession, hkept⟩ := List.mem_filter.mp hmem
    refine ⟨hsession, ?_⟩
    split at hkept
    · rename_i ip hitem
      exact ⟨ip, hitem, by simpa using hkept⟩
    · cases hkept
  · cases h

end Sdp

namespace RelayTarget

variable {t : RelayTarget}

/-! Single lines. -/

theorem isMedia_of_facedItem {l m : SdpLine} (h : m.item = t.facedItem l.item) :
    m.isMedia = l.isMedia := by
  unfold SdpLine.isMedia
  rw [h]
  cases l.item <;> rfl

theorem legible_facedConnection (ht : t.IsFit) {l : SdpLine} (h : l.Legible) :
    (t.facedConnection l).Legible := by
  obtain ⟨raw, item⟩ := l
  rw [facedConnection, faceConnection]
  cases item with
  | connection ip =>
      simp only [facedItem]
      by_cases hip : ip.isUnspecified = true
      · rw [if_pos hip, if_pos hip]
        exact h
      · rw [if_neg hip, if_neg hip]
        refine legible_withContent ht raw (by simp) ?_ t.readItem_connection
        intro hmem
        rcases List.mem_append.mp hmem with hmem | hmem
        · exact absurd hmem (by decide)
        · exact t.newline_not_mem_place hmem
  | _ => exact h

theorem isEnded_faceConnection (ht : t.IsFit) {l : SdpLine} (h : IsEnded l.raw) :
    IsEnded (t.faceConnection l) := by
  unfold faceConnection
  split
  · split
    · exact h
    · exact isEnded_withContent ht h _
  · exact h

theorem legible_facedLine (ht : t.IsFit) (port : UInt16) {l : SdpLine} (h : l.Legible) :
    (t.facedLine port l).Legible := by
  obtain ⟨raw, item⟩ := l
  cases item with
  | rtcp =>
      obtain ⟨named, heq⟩ := t.rtcpContent_eq (nextPort port) raw
      refine legible_withContent ht raw ?_ (t.newline_not_mem_rtcpContent _ _)
        (t.readItem_rtcpContent _ _)
      rw [heq]
      simp
  | _ => exact legible_facedConnection ht h

theorem isEnded_faceLine (ht : t.IsFit) (port : UInt16) {l : SdpLine} (h : IsEnded l.raw) :
    IsEnded (t.faceLine port l) := by
  unfold faceLine
  split
  · exact isEnded_withContent ht h _
  · exact isEnded_faceConnection ht h

theorem isEnded_closed (ht : t.IsFit) (l : SdpLine) : IsEnded (t.closed l).raw := by
  rw [closed]
  split
  · rename_i h
    rwa [List.append_nil]
  · exact ht.isEnded l.raw

theorem legible_closed (ht : t.IsFit) {l : SdpLine} (h : l.Legible) : (t.closed l).Legible := by
  rw [closed]
  split
  · rw [List.append_nil]
    exact h
  · rename_i hend
    refine ⟨ht.isRawLine fun hmem => ?_, (SdpLine.toOption_readItem_append ht.isEnd).trans h.reads⟩
    -- A line feed in the line would be its last character.
    rw [← List.dropLast_concat_getLast h.shape.1, List.mem_append, List.mem_singleton] at hmem
    rcases hmem with hmem | hmem
    · exact h.shape.2 hmem
    · exact hend (by rw [List.getLast?_eq_some_getLast h.shape.1, ← hmem])

theorem legible_restoredLine (ht : t.IsFit) {l : SdpLine} (h : l.Legible) :
    (t.restoredLine l).Legible := by
  refine ⟨ht.isRawLine (SdpLine.newline_not_mem_content h.shape), ?_⟩
  rw [restoredLine, SdpLine.toOption_readItem_append ht.isEnd, SdpLine.toOption_readItem_content]
  exact h.reads

theorem legible_facedHead (ht : t.IsFit) (port : UInt16) {part : SdpSection}
    (h : part.headLine.Legible) : (t.facedSection port part).headLine.Legible :=
  legible_withContent ht part.head (by simp [mediaContent]) (newline_not_mem_mediaContent port _)
    (readItem_mediaContent port h.reads)

/-! Blocks of lines. -/

/-- Lines that can stand where others stood. -/
structure Refits (old new : List SdpLine) : Prop where
  legible : ∀ l ∈ new, l.Legible
  ends : new.Pairwise fun l _ => IsEnded l.raw
  ended : (∀ l ∈ old, IsEnded l.raw) → ∀ l ∈ new, IsEnded l.raw
  nonempty : new ≠ [] → old ≠ []

theorem Refits.self {old : List SdpLine} (h : ∀ l ∈ old, l.Legible)
    (hends : old.Pairwise fun l _ => IsEnded l.raw) : Refits old old :=
  ⟨h, hends, id, id⟩

theorem Refits.map {old : List SdpLine} {change : SdpLine → SdpLine}
    (hlegible : ∀ l ∈ old, (change l).Legible)
    (hended : ∀ l ∈ old, IsEnded l.raw → IsEnded (change l).raw)
    (hends : old.Pairwise fun l _ => IsEnded l.raw) : Refits old (old.map change) where
  legible l hl := by
    obtain ⟨m, hm, rfl⟩ := List.mem_map.mp hl
    exact hlegible m hm
  ends := List.pairwise_map.mpr (hends.imp_of_mem fun hl _ h => hended _ hl h)
  ended h l hl := by
    obtain ⟨m, hm, rfl⟩ := List.mem_map.mp hl
    exact hended m hm (h m hm)
  nonempty h hold := h (by rw [hold]; rfl)

theorem Refits.flatten {olds news : List (List SdpLine)} (h : List.Forall₂ Refits olds news)
    (hends : olds.flatten.Pairwise fun l _ => IsEnded l.raw) :
    (∀ l ∈ news.flatten, l.Legible) ∧ news.flatten.Pairwise fun l _ => IsEnded l.raw := by
  suffices hall : (∀ l ∈ news.flatten, l.Legible) ∧
      (news.flatten.Pairwise fun l _ => IsEnded l.raw) ∧ (news.flatten ≠ [] → olds.flatten ≠ []) from
    ⟨hall.1, hall.2.1⟩
  induction h with
  | nil => simp
  | @cons old new olds news hblock _ ih =>
      rw [List.flatten_cons, List.pairwise_append] at hends
      obtain ⟨-, hrest, hbetween⟩ := hends
      obtain ⟨hlegible, hpairwise, hnonempty⟩ := ih hrest
      rw [List.flatten_cons, List.flatten_cons]
      refine ⟨fun l hl => ?_, List.pairwise_append.mpr ⟨hblock.ends, hpairwise, ?_⟩, fun hne hold => ?_⟩
      · rcases List.mem_append.mp hl with hl | hl
        · exact hblock.legible l hl
        · exact hlegible l hl
      · -- Where lines follow the new block, lines followed the old one, which was then ended.
        intro l hl m hm
        obtain ⟨k, hk⟩ := List.exists_mem_of_ne_nil _ (hnonempty (List.ne_nil_of_mem hm))
        exact hblock.ended (fun l hl => hbetween l hl k hk) l hl
      · rw [List.append_eq_nil_iff] at hold
        rw [Ne, List.append_eq_nil_iff, not_and_or] at hne
        rcases hne with hne | hne
        · exact hblock.nonempty hne hold.1
        · exact hnonempty hne hold.2

theorem refits_facedSection (ht : t.IsFit) (port : UInt16) {part : SdpSection}
    (h : ∀ l ∈ part.allLines, l.Legible) (hends : part.allLines.Pairwise fun l _ => IsEnded l.raw) :
    Refits part.allLines (t.facedSection port part).allLines := by
  have hlines : Refits part.lines (part.lines.map (t.facedLine port)) :=
    Refits.map (fun l hl => legible_facedLine ht port (h l (List.mem_cons_of_mem _ hl)))
      (fun l _ hl => isEnded_faceLine ht port hl) (List.pairwise_cons.mp hends).2
  have hhead : IsEnded part.head → IsEnded (t.facedSection port part).head :=
    fun hend => isEnded_withContent ht hend _
  refine ⟨fun l hl => ?_, List.pairwise_cons.mpr ⟨fun l hl => ?_, hlines.ends⟩, fun hall l hl => ?_,
    fun _ => by simp [SdpSection.allLines]⟩
  · rcases List.mem_cons.mp hl with rfl | hl
    · exact legible_facedHead ht port (h _ List.mem_cons_self)
    · exact hlines.legible l hl
  · obtain ⟨m, hm, rfl⟩ := List.mem_map.mp hl
    exact hhead ((List.pairwise_cons.mp hends).1 m hm)
  · rcases List.mem_cons.mp hl with rfl | hl
    · exact hhead (hall _ List.mem_cons_self)
    · exact hlines.ended (fun m hm => hall m (List.mem_cons_of_mem _ hm)) l hl

theorem allLines_restoredSection (line : SdpLine) (part : SdpSection) :
    (t.restoredSection line part).allLines =
      (part.headLine :: part.lines.takeWhile SdpLine.isTitle).map t.closed ++
        t.restoredLine line :: part.lines.dropWhile SdpLine.isTitle := rfl

theorem allLines_eq_titles (part : SdpSection) :
    part.allLines = (part.headLine :: part.lines.takeWhile SdpLine.isTitle) ++
      part.lines.dropWhile SdpLine.isTitle := by
  rw [List.cons_append, List.takeWhile_append_dropWhile]
  rfl

theorem refits_restoredSection (ht : t.IsFit) {line : SdpLine} (hline : line.Legible) {part : SdpSection}
    (h : ∀ l ∈ part.allLines, l.Legible) (hends : part.allLines.Pairwise fun l _ => IsEnded l.raw) :
    Refits part.allLines (t.restoredSection line part).allLines := by
  rw [allLines_restoredSection]
  rw [allLines_eq_titles] at h hends ⊢
  have hne : part.headLine :: part.lines.takeWhile SdpLine.isTitle ≠ [] := by simp
  generalize part.headLine :: part.lines.takeWhile SdpLine.isTitle = titles at h hends hne ⊢
  generalize part.lines.dropWhile SdpLine.isTitle = rest at h hends ⊢
  obtain ⟨-, hrest, -⟩ := List.pairwise_append.mp hends
  have htitles : ∀ l ∈ titles.map t.closed, IsEnded l.raw := by
    intro l hl
    obtain ⟨m, -, rfl⟩ := List.mem_map.mp hl
    exact isEnded_closed ht m
  have hcopy : IsEnded (t.restoredLine line).raw := ht.isEnded _
  refine ⟨fun l hl => ?_, ?_, fun hall l hl => ?_, fun _ => ?_⟩
  · rcases List.mem_append.mp hl with hl | hl
    · obtain ⟨m, hm, rfl⟩ := List.mem_map.mp hl
      exact legible_closed ht (h m (List.mem_append_left _ hm))
    · rcases List.mem_cons.mp hl with rfl | hl
      · exact legible_restoredLine ht hline
      · exact h l (List.mem_append_right _ hl)
  · refine List.pairwise_append.mpr ⟨?_, List.pairwise_cons.mpr ⟨fun _ _ => hcopy, hrest⟩,
      fun l hl _ _ => htitles l hl⟩
    exact List.pairwise_of_forall_mem_list fun l hl _ _ => htitles l hl
  · rcases List.mem_append.mp hl with hl | hl
    · exact htitles l hl
    · rcases List.mem_cons.mp hl with rfl | hl
      · exact hcopy
      · exact hall l (List.mem_append_right _ hl)
  · exact List.append_ne_nil_of_left_ne_nil hne _

end RelayTarget

namespace Sdp

variable {s : Sdp} {t : RelayTarget}

theorem allLines_eq_flatten (s : Sdp) :
    s.allLines = (s.session :: s.sections.map SdpSection.allLines).flatten := by
  rw [allLines, List.flatten_cons, List.flatMap_def]

theorem Legible.mem_section (h : s.Legible) {part : SdpSection} (hpart : part ∈ s.sections) :
    ∀ l ∈ part.allLines, l.Legible := fun l hl =>
  h.lines l (List.mem_append_right _ (List.mem_flatMap.mpr ⟨part, hpart, hl⟩))

theorem Legible.ends_section (h : s.Legible) {part : SdpSection} (hpart : part ∈ s.sections) :
    part.allLines.Pairwise fun l _ => IsEnded l.raw := by
  have hends := (List.pairwise_append.mp h.ends).2.1
  exact (List.pairwise_flatMap.mp hends).1 part hpart

theorem legible_relayedLine (h : s.Legible) {ports : List (Option UInt16)} {line : SdpLine}
    (hline : s.relayedLine? ports = some line) : line.Legible :=
  h.lines line (List.mem_append_left _ (mem_session_of_relayedLine? hline).1)

theorem refits_redirectedSection (h : s.Legible) (ht : t.IsFit) (ports : List (Option UInt16))
    {part : SdpSection} (hpart : part ∈ s.sections) (index : Nat) :
    RelayTarget.Refits part.allLines (s.redirectedSection t ports part index).allLines := by
  have hlegible := h.mem_section hpart
  have hends := h.ends_section hpart
  unfold redirectedSection
  split
  · exact RelayTarget.refits_facedSection ht _ hlegible hends
  · split
    · rename_i line hline
      split
      · exact RelayTarget.refits_restoredSection ht (legible_relayedLine h hline) hlegible hends
      · exact RelayTarget.Refits.self hlegible hends
    · exact RelayTarget.Refits.self hlegible hends

theorem isMedia_redirectedSection (h : s.Legible) (ports : List (Option UInt16)) {part : SdpSection}
    (hpart : part ∈ s.sections) (index : Nat) :
    ∀ l ∈ (s.redirectedSection t ports part index).lines, l.isMedia = false := by
  have hold := h.sections part hpart
  intro l hl
  unfold redirectedSection at hl
  split at hl
  · obtain ⟨m, hm, rfl⟩ := List.mem_map.mp hl
    rw [RelayTarget.isMedia_of_facedItem (t := t) rfl, hold m hm]
  · split at hl
    · rename_i line hline
      split at hl
      · rcases List.mem_append.mp hl with hl | hl
        · obtain ⟨m, hm, rfl⟩ := List.mem_map.mp hl
          exact hold m (List.takeWhile_subset _ hm)
        · rcases List.mem_cons.mp hl with rfl | hl
          · exact h.session line (mem_session_of_relayedLine? hline).1
          · exact hold l (List.dropWhile_subset _ hl)
      · exact hold l hl
    · exact hold l hl

theorem refits_session (h : s.Legible) (ht : t.IsFit) (ports : List (Option UInt16)) :
    RelayTarget.Refits s.session (s.redirected t ports).session := by
  have hlegible : ∀ l ∈ s.session, l.Legible := fun l hl => h.lines l (List.mem_append_left _ hl)
  have hends := (List.pairwise_append.mp h.ends).1
  unfold redirected
  dsimp only
  split
  · exact RelayTarget.Refits.map (fun l hl => RelayTarget.legible_facedConnection ht (hlegible l hl))
      (fun l _ hl => RelayTarget.isEnded_faceConnection ht hl) hends
  · exact RelayTarget.Refits.self hlegible hends

theorem refits_sections (h : s.Legible) (ht : t.IsFit) (ports : List (Option UInt16)) :
    List.Forall₂ RelayTarget.Refits (s.sections.map SdpSection.allLines)
      ((s.redirected t ports).sections.map SdpSection.allLines) := by
  have hold : s.sections.map SdpSection.allLines =
      s.sections.zipIdx.map fun p => p.1.allLines := by
    conv_lhs => rw [← List.zipIdx_map_fst 0 s.sections]
    rw [List.map_map]
    rfl
  rw [hold, redirected, List.map_map, List.forall₂_map_left_iff, List.forall₂_map_right_iff,
    List.forall₂_same]
  intro p hp
  exact refits_redirectedSection h ht ports (List.fst_mem_of_mem_zipIdx hp) p.2

/-- A description that is pointed at a relay is one whose lines say what is written in them. -/
theorem legible_redirected (h : s.Legible) (ht : t.IsFit) (ports : List (Option UInt16)) :
    (s.redirected t ports).Legible := by
  have hblocks := List.Forall₂.cons (refits_session h ht ports) (refits_sections h ht ports)
  have hends := h.ends
  rw [allLines_eq_flatten] at hends
  obtain ⟨hlegible, hpairwise⟩ := RelayTarget.Refits.flatten hblocks hends
  rw [← allLines_eq_flatten] at hlegible hpairwise
  refine ⟨hlegible, hpairwise, fun l hl => ?_, fun part hpart => ?_⟩
  · unfold redirected at hl
    dsimp only at hl
    split at hl
    · obtain ⟨m, hm, rfl⟩ := List.mem_map.mp hl
      rw [RelayTarget.isMedia_of_facedItem (t := t) rfl, h.session m hm]
    · exact h.session l hl
  · obtain ⟨p, hp, rfl⟩ := List.mem_map.mp hpart
    exact isMedia_redirectedSection h ports (List.fst_mem_of_mem_zipIdx hp) p.2

/-! The text. -/

theorem raw_allLines (part : SdpSection) : part.allLines.flatMap (·.raw) = part.raw := rfl

theorem raw_closed {t : RelayTarget} {l : SdpLine} {lines : List SdpLine}
    (hlegible : ∀ m ∈ l :: lines, m.Legible) (hends : (l :: lines).Pairwise fun l _ => IsEnded l.raw) :
    ((l :: lines).map t.closed).flatMap (·.raw) = (l :: lines).flatMap (·.raw) ++
      if ((l :: lines).flatMap (·.raw)).getLast? = some '\n' then [] else t.newline := by
  induction lines generalizing l with
  | nil => simp [RelayTarget.closed]
  | cons m lines ih =>
      obtain ⟨hhead, htail⟩ := List.pairwise_cons.mp hends
      have hl : (t.closed l).raw = l.raw := by
        have hend : l.raw.getLast? = some '\n' := hhead m List.mem_cons_self
        rw [RelayTarget.closed, if_pos hend, List.append_nil]
      have hrest := ih (fun k hk => hlegible k (List.mem_cons_of_mem _ hk)) htail
      have hne : (m :: lines).flatMap (·.raw) ≠ [] := by
        rw [List.flatMap_cons]
        exact List.append_ne_nil_of_left_ne_nil (hlegible m (by simp)).shape.1 _
      have hall : (l :: m :: lines).flatMap (·.raw) = l.raw ++ (m :: lines).flatMap (·.raw) := rfl
      rw [hall, List.map_cons, List.flatMap_cons, hrest, hl]
      rw [List.getLast?_append_of_ne_nil _ hne, List.append_assoc]

theorem raw_restoredSection (line : SdpLine) {part : SdpSection}
    (hlegible : ∀ l ∈ part.allLines, l.Legible)
    (hends : part.allLines.Pairwise fun l _ => IsEnded l.raw) :
    (t.restoredSection line part).raw = t.restoreConnection (SdpLine.content line.raw) part := by
  rw [RelayTarget.allLines_eq_titles] at hlegible hends
  have hclosed := raw_closed (t := t) (fun m hm => hlegible m (List.mem_append_left _ hm))
    (List.pairwise_append.mp hends).1
  rw [← raw_allLines, RelayTarget.allLines_restoredSection, List.flatMap_append, hclosed,
    RelayTarget.restoreConnection]
  simp [RelayTarget.restoredLine, SdpSection.headLine]

theorem raw_redirectedSection (h : s.Legible) (ports : List (Option UInt16)) {part : SdpSection}
    (hpart : part ∈ s.sections) (index : Nat) :
    (s.redirectedSection t ports part index).raw =
      match portOf ports index with
      | some port => t.faceSection port part
      | none =>
        match s.relayedConnection? ports with
        | some connection =>
          if part.inherits then t.restoreConnection connection part else part.raw
        | none => part.raw := by
  rw [relayedConnection?_eq, redirectedSection]
  cases portOf ports index with
  | some port =>
      simp [SdpSection.raw, RelayTarget.facedSection, RelayTarget.faceSection, List.flatMap_map,
        RelayTarget.facedLine]
  | none =>
      cases s.relayedLine? ports with
      | none => rfl
      | some line =>
          simp only [Option.map_some]
          split
          · exact raw_restoredSection line (h.mem_section hpart) (h.ends_section hpart)
          · rfl

theorem raw_redirected (h : s.Legible) (ports : List (Option UInt16)) :
    (s.redirected t ports).raw = s.pointAt t ports := by
  have hsession : (s.redirected t ports).session.flatMap (·.raw) =
      s.session.flatMap fun line =>
        if (s.relayedConnection? ports).isSome then t.faceConnection line else line.raw := by
    rw [relayedConnection?_eq, Option.isSome_map, redirected]
    dsimp only
    split
    · rw [List.flatMap_map]
      rfl
    · rfl
  rw [raw, allLines, List.flatMap_append, hsession, List.flatMap_assoc, pointAt, redirected]
  apply congrArg _
  rw [List.flatMap_map]
  apply List.flatMap_congr
  intro p hp
  rw [raw_allLines]
  exact raw_redirectedSection h ports (List.fst_mem_of_mem_zipIdx hp) p.2

theorem isFit_newlineOf (ip : Ip) (body : Text) : RelayTarget.IsFit ⟨ip, newlineOf body⟩ := by
  unfold RelayTarget.IsFit newlineOf
  split
  · exact .inr rfl
  · exact .inl rfl

/-- The text that points a description at a relay is read as the description pointed at it. -/
theorem read_pointAt {body : Text} (h : read body = .ok s) (ht : t.IsFit) (ports : List (Option UInt16)) :
    read (s.pointAt t ports) = .ok (s.redirected t ports) := by
  obtain ⟨hs, -⟩ := read_eq_ok_iff.mp h
  exact read_eq_ok_iff.mpr ⟨legible_redirected hs ht ports, raw_redirected hs ports⟩

end Sdp

end BorderProxy
