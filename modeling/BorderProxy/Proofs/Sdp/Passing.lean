import BorderProxy.Proofs.Sdp.Placing

/-! What pointing sections at a relay leaves as it was written. The lines that come out are the lines of the
body, in their places, and copies of a connection line of the session behind media lines of sections without
a relay port. A line that does not concern a relayed section comes out as it went in, with its end. -/

namespace BorderProxy

namespace Sdp

/-- A line that comes out: the line of the body that it stands for, if any, and how it is written now. -/
structure PassedLine where
  source : Option (Option Nat × Text)
  raw : Text

/-- Lines of the body that pointing its sections at a relay is to leave alone. -/
inductive Spared (ports : List (Option UInt16)) : Option Nat → Text → Prop where
  | plain {place : Option Nat} {raw : Text} :
      Text.startsWith "m=".toList raw = false → Text.startsWith "c=".toList raw = false →
      Text.startsWith "a=rtcp:".toList raw = false → Spared ports place raw
  | unrelayed {i : Nat} {raw : Text} : portOf ports i = none → Spared ports (some i) raw
  | session {raw : Text} : Text.startsWith "c=".toList raw = false → Spared ports none raw
  | held {place : Option Nat} {raw rest : Text} {ip : Ip} :
      Text.afterPrefix? "c=".toList (SdpLine.content raw) = some rest →
      SdpLine.readConnection rest = .ok ip → ip.isUnspecified = true → Spared ports place raw

/-- A line that stands for none of the body: it is put in behind the media line and the titles of a section
without a relay port, and is a copy of a connection line of the session. -/
structure Restored (body newline : Text) (ports : List (Option UInt16)) (front : List PassedLine)
    (line : PassedLine) : Prop where
  copies : ∃ old, (none, old) ∈ placed none (rawLines body) ∧ Text.startsWith "c=".toList old = true ∧
    line.raw = SdpLine.content old ++ newline
  stands : ∃ i before head titles, front = before ++ head :: titles ∧ portOf ports i = none ∧
    (∃ raw, head.source = some (some i, raw) ∧ Text.startsWith "m=".toList raw = true) ∧
    ∀ title ∈ titles, ∃ raw, title.source = some (some i, raw) ∧ Text.startsWith "i=".toList raw = true

/-- A line of the body that comes out as it went in. Only one without an end gets an end, and then one line
that stands for none of the body follows it and no other. -/
def Kept (newline old : Text) (line : PassedLine) (back : List PassedLine) : Prop :=
  line.raw = old ∨
    ¬ IsEnded old ∧ line.raw = old ++ newline ∧ ∃ added, back = [added] ∧ added.source = none

/-- How the lines of a body come out. -/
structure Passage (body newline text : Text) (ports : List (Option UInt16)) (lines : List PassedLine) :
    Prop where
  sources : lines.filterMap (·.source) = placed none (rawLines body)
  results : lines.map (·.raw) = rawLines text
  restored : ∀ front line back, lines = front ++ line :: back → line.source = none →
    Restored body newline ports front line
  kept : ∀ front line back place old, lines = front ++ line :: back → line.source = some (place, old) →
    Spared ports place old → Kept newline old line back

variable {ports : List (Option UInt16)}

/-- What a line says that is to be left alone, and where it stands. -/
theorem Spared.cases_of_legible {place : Option Nat} {l : SdpLine} (h : Spared ports place l.raw)
    (hl : l.Legible) :
    (∃ i, place = some i ∧ portOf ports i = none) ∨ (place = none ∧ ∀ ip, l.item ≠ .connection ip) ∨
      (∃ ip, l.item = .connection ip ∧ ip.isUnspecified = true) ∨ l.item = .title ∨ l.item = .other := by
  have hmark := hl.startsWith_mark
  cases h with
  | plain hm hc hr =>
      cases hitem : l.item with
      | media kind port => rw [hitem] at hmark; cases hm.symm.trans hmark
      | connection ip => rw [hitem] at hmark; cases hc.symm.trans hmark
      | rtcp => rw [hitem] at hmark; cases hr.symm.trans hmark
      | title => simp
      | other => simp
  | unrelayed hport => exact .inl ⟨_, rfl, hport⟩
  | session hc =>
      refine .inr (.inl ⟨rfl, fun ip hitem => ?_⟩)
      rw [hitem] at hmark
      cases hc.symm.trans hmark
  | held hrest hread hip =>
      obtain ⟨ip', hread', hitem⟩ := hl.readConnection_content hrest
      obtain rfl := Except.ok.inj (hread.symm.trans hread')
      exact .inr (.inr (.inl ⟨_, hitem, hip⟩))

/-! Lines that are left alone. -/

theorem Spared.raw_facedConnection {t : RelayTarget} {l : SdpLine} (h : Spared ports none l.raw)
    (hl : l.Legible) : (t.facedConnection l).raw = l.raw := by
  obtain ⟨raw, item⟩ := l
  cases item with
  | connection ip =>
      rcases h.cases_of_legible hl with ⟨i, hplace, -⟩ | ⟨-, hitem⟩ | ⟨held, hitem, hheld⟩ | hitem | hitem
      · cases hplace
      · exact absurd rfl (hitem ip)
      · obtain rfl := SdpItem.connection.inj hitem
        exact if_pos hheld
      · cases hitem
      · cases hitem
  | _ => rfl

theorem Spared.raw_facedLine {t : RelayTarget} {i : Nat} {port : UInt16} {l : SdpLine}
    (h : Spared ports (some i) l.raw) (hport : portOf ports i = some port) (hl : l.Legible) :
    (t.facedLine port l).raw = l.raw := by
  have hcases : (∃ ip, l.item = .connection ip ∧ ip.isUnspecified = true) ∨ l.item = .title ∨
      l.item = .other := by
    rcases h.cases_of_legible hl with ⟨j, hplace, hnone⟩ | ⟨hplace, -⟩ | hrest
    · rw [← Option.some.inj hplace, hport] at hnone
      cases hnone
    · cases hplace
    · exact hrest
  obtain ⟨raw, item⟩ := l
  rcases hcases with ⟨ip, rfl, hheld⟩ | rfl | rfl
  · exact if_pos hheld
  · rfl
  · rfl

/-- The media line of a relayed section is not left alone. -/
theorem not_spared_headLine {i : Nat} {port : UInt16} {part : SdpSection}
    (hport : portOf ports i = some port) (hl : part.headLine.Legible) :
    ¬ Spared ports (some i) part.head := by
  intro h
  rcases Spared.cases_of_legible (l := part.headLine) h hl with
    ⟨j, hplace, hnone⟩ | ⟨hplace, -⟩ | ⟨ip, hitem, -⟩ | hitem | hitem
  · rw [← Option.some.inj hplace, hport] at hnone
    cases hnone
  · cases hplace
  · cases hitem
  · cases hitem
  · cases hitem

/-! Lines as they come out. -/

/-- Lines that stand for those of the body, each changed by itself. -/
def passed (place : Option Nat) (change : SdpLine → SdpLine) (lines : List SdpLine) : List PassedLine :=
  lines.map fun l => ⟨some (place, l.raw), (change l).raw⟩

/-- The lines of a section behind whose titles a line is put in. -/
def passedRestored (t : RelayTarget) (line : SdpLine) (part : SdpSection) (i : Nat) : List PassedLine :=
  passed (some i) t.closed (part.headLine :: part.lines.takeWhile SdpLine.isTitle) ++
    ⟨none, (t.restoredLine line).raw⟩ :: passed (some i) id (part.lines.dropWhile SdpLine.isTitle)

def passedSection (s : Sdp) (t : RelayTarget) (ports : List (Option UInt16)) (part : SdpSection) (i : Nat) :
    List PassedLine :=
  match portOf ports i with
  | some port =>
    passed (some i) (fun _ => (t.facedSection port part).headLine) [part.headLine] ++
      passed (some i) (t.facedLine port) part.lines
  | none =>
    match s.relayedLine? ports with
    | some line =>
      if part.inherits then passedRestored t line part i else passed (some i) id part.allLines
    | none => passed (some i) id part.allLines

def passedSession (s : Sdp) (t : RelayTarget) (ports : List (Option UInt16)) : List PassedLine :=
  passed none (if (s.relayedLine? ports).isSome then t.facedConnection else id) s.session

/-- The lines that come out of a description. -/
def passedLines (s : Sdp) (t : RelayTarget) (ports : List (Option UInt16)) : List PassedLine :=
  s.passedSession t ports ++
    s.sections.zipIdx.flatMap fun entry => s.passedSection t ports entry.1 entry.2

variable {s : Sdp} {t : RelayTarget}

theorem filterMap_passed (place : Option Nat) (change : SdpLine → SdpLine) (lines : List SdpLine) :
    (passed place change lines).filterMap (·.source) = lines.map fun l => (place, l.raw) := by
  rw [passed, List.filterMap_map]
  exact congrFun List.filterMap_eq_map lines

theorem map_passed (place : Option Nat) (change : SdpLine → SdpLine) (lines : List SdpLine) :
    (passed place change lines).map (·.raw) = (lines.map change).map (·.raw) := by
  rw [passed, List.map_map, List.map_map]
  rfl

theorem filterMap_passedSection (part : SdpSection) (i : Nat) :
    (s.passedSection t ports part i).filterMap (·.source) =
      part.allLines.map fun l => (some i, l.raw) := by
  have hrestored (line : SdpLine) : (passedRestored t line part i).filterMap (·.source) =
      part.allLines.map fun l => (some i, l.raw) := by
    rw [passedRestored, List.filterMap_append, List.filterMap_cons_none rfl, filterMap_passed,
      filterMap_passed, ← List.map_append, ← RelayTarget.allLines_eq_titles]
  unfold passedSection
  split
  · rw [List.filterMap_append, filterMap_passed, filterMap_passed, ← List.map_append]
    rfl
  · split
    · split
      · exact hrestored _
      · exact filterMap_passed _ _ _
    · exact filterMap_passed _ _ _

theorem map_passedSection (part : SdpSection) (i : Nat) :
    (s.passedSection t ports part i).map (·.raw) =
      (s.redirectedSection t ports part i).allLines.map (·.raw) := by
  have hrestored (line : SdpLine) : (passedRestored t line part i).map (·.raw) =
      (t.restoredSection line part).allLines.map (·.raw) := by
    rw [passedRestored, RelayTarget.allLines_restoredSection, List.map_append, List.map_cons, map_passed,
      map_passed, List.map_append, List.map_cons, List.map_id]
    rfl
  have hself : (passed (some i) id part.allLines).map (·.raw) = part.allLines.map (·.raw) := by
    rw [map_passed, List.map_id]
  unfold passedSection redirectedSection
  cases portOf ports i with
  | some port =>
      rw [List.map_append, map_passed, map_passed, ← List.map_append]
      rfl
  | none =>
      cases s.relayedLine? ports with
      | none => exact hself
      | some line =>
          dsimp only
          split
          · exact hrestored line
          · exact hself

/-- The lines that stand for lines of the body stand for all of them, in their places. -/
theorem filterMap_passedLines (h : s.Legible) :
    (s.passedLines t ports).filterMap (·.source) = placed none (rawLines s.raw) := by
  rw [placed_rawLines h, passedLines, List.filterMap_append, passedSession, filterMap_passed,
    List.filterMap_flatMap]
  refine congrArg _ (List.flatMap_congr fun entry _ => ?_)
  exact filterMap_passedSection entry.1 entry.2

theorem map_passedLines (h : s.Legible) (ht : t.IsFit) :
    (s.passedLines t ports).map (·.raw) = rawLines (s.pointAt t ports) := by
  have hsession : (s.passedSession t ports).map (·.raw) = (s.redirected t ports).session.map (·.raw) := by
    rw [passedSession, map_passed, redirected]
    split
    · rfl
    · rw [List.map_id]
  rw [← raw_redirected h ports, rawLines_raw (legible_redirected h ht ports), allLines, List.map_append,
    passedLines, List.map_append, hsession, List.map_flatMap, redirected, List.flatMap_map,
    List.map_flatMap]
  refine congrArg _ (List.flatMap_congr fun entry _ => ?_)
  exact map_passedSection entry.1 entry.2

/-! What holds of each line in its place holds of lines put together. -/

/-- A property of lines in their places that does not mind what stands further out. -/
structure IsLocal (P : List PassedLine → PassedLine → List PassedLine → Prop) : Prop where
  before : ∀ {front line back} outer, P front line back → P (outer ++ front) line back
  after : ∀ {front line back} outer, P front line back → P front line (back ++ outer)

/-- A property that each line has in its place. -/
def Everywhere (P : List PassedLine → PassedLine → List PassedLine → Prop) (lines : List PassedLine) : Prop :=
  ∀ front line back, lines = front ++ line :: back → P front line back

theorem split_append {A B front back : List PassedLine} {line : PassedLine}
    (h : A ++ B = front ++ line :: back) :
    (∃ rest, A = front ++ line :: rest ∧ back = rest ++ B) ∨
      ∃ rest, front = A ++ rest ∧ B = rest ++ line :: back := by
  rcases List.append_eq_append_iff.mp h with ⟨rest, hfront, hB⟩ | ⟨rest, hA, hback⟩
  · exact .inr ⟨rest, hfront, hB⟩
  · cases rest with
    | nil => exact .inr ⟨[], by simpa using hA.symm, by simpa using hback.symm⟩
    | cons first rest =>
        obtain ⟨rfl, htail⟩ := List.cons.inj hback
        exact .inl ⟨rest, hA, htail⟩

theorem Everywhere.append {P : List PassedLine → PassedLine → List PassedLine → Prop} (hP : IsLocal P)
    {A B : List PassedLine} (hA : Everywhere P A) (hB : Everywhere P B) : Everywhere P (A ++ B) := by
  intro front line back h
  rcases split_append h with ⟨rest, hfront, rfl⟩ | ⟨rest, rfl, hback⟩
  · exact hP.after B (hA front line rest hfront)
  · exact hP.before A (hB rest line back hback)

theorem Everywhere.flatMap {P : List PassedLine → PassedLine → List PassedLine → Prop} (hP : IsLocal P)
    {α : Type} {f : α → List PassedLine} {items : List α} (h : ∀ item ∈ items, Everywhere P (f item)) :
    Everywhere P (items.flatMap f) := by
  induction items with
  | nil =>
      intro front line back h
      cases front <;> cases h
  | cons item items ih =>
      rw [List.flatMap_cons]
      exact (h item List.mem_cons_self).append hP (ih fun i hi => h i (List.mem_cons_of_mem _ hi))

/-- How a line of the result fares between the lines around it. -/
structure Fares (body newline : Text) (ports : List (Option UInt16)) (front : List PassedLine)
    (line : PassedLine) (back : List PassedLine) : Prop where
  restored : line.source = none → Restored body newline ports front line
  kept : ∀ place old, line.source = some (place, old) → Spared ports place old →
    line.raw = old ∨ ¬ IsEnded old ∧ line.raw = old ++ newline ∧
      ∃ added more, back = added :: more ∧ added.source = none

variable {body newline : Text}

theorem isLocal_fares : IsLocal (Fares body newline ports) where
  before outer h := by
    refine ⟨fun hnone => ?_, h.kept⟩
    obtain ⟨hcopies, i, before, head, titles, rfl, hstands⟩ := h.restored hnone
    exact ⟨hcopies, i, outer ++ before, head, titles, (List.append_assoc ..).symm, hstands⟩
  after outer h := by
    refine ⟨h.restored, fun place old hsource hspared => (h.kept place old hsource hspared).imp id ?_⟩
    rintro ⟨hended, hraw, added, more, rfl, hnone⟩
    exact ⟨hended, hraw, added, more ++ outer, rfl, hnone⟩

theorem fares_passed {place : Option Nat} {change : SdpLine → SdpLine} {lines : List SdpLine}
    (h : ∀ l ∈ lines, Spared ports place l.raw → (change l).raw = l.raw) :
    Everywhere (Fares body newline ports) (passed place change lines) := by
  intro front line back hsplit
  have hmem : line ∈ passed place change lines := by
    rw [hsplit]
    exact List.mem_append_right _ List.mem_cons_self
  obtain ⟨l, hl, rfl⟩ := List.mem_map.mp hmem
  refine ⟨fun hnone => (by cases hnone), fun place' old hsource hspared => .inl ?_⟩
  obtain ⟨rfl, rfl⟩ := Prod.mk.inj (Option.some.inj hsource)
  exact h l hl hspared

/-- Of lines that end before others follow, each one comes out as it was, and the last one gets an end. -/
theorem kept_closed {place : Option Nat} {lines : List SdpLine}
    (hends : lines.Pairwise fun l _ => IsEnded l.raw) {front back : List PassedLine} {line : PassedLine}
    (hsplit : passed place t.closed lines = front ++ line :: back) {place' : Option Nat} {old : Text}
    (hsource : line.source = some (place', old)) :
    line.raw = old ∨ ¬ IsEnded old ∧ line.raw = old ++ t.newline ∧ back = [] := by
  obtain ⟨before, rest, rfl, -, hrest⟩ := List.map_eq_append_iff.mp hsplit
  obtain ⟨l, after, rfl, rfl, rfl⟩ := List.map_eq_cons_iff.mp hrest
  obtain ⟨rfl, rfl⟩ := Prod.mk.inj (Option.some.inj hsource)
  by_cases hend : IsEnded l.raw
  · refine .inl ?_
    exact (congrArg _ (if_pos hend)).trans (List.append_nil _)
  · refine .inr ⟨hend, congrArg _ (if_neg hend), ?_⟩
    cases after with
    | nil => rfl
    | cons next after =>
        have hfollowed := (List.pairwise_cons.mp (List.pairwise_append.mp hends).2.1).1
        exact absurd (hfollowed next List.mem_cons_self) hend

theorem fares_passedRestored (h : s.Legible) {connection : SdpLine}
    (hconnection : s.relayedLine? ports = some connection) {part : SdpSection} {i : Nat}
    (hpart : part ∈ s.sections) (hport : portOf ports i = none) :
    Everywhere (Fares s.raw t.newline ports) (passedRestored t connection part i) := by
  have hlegible := h.mem_section hpart
  have hends := h.ends_section hpart
  rw [RelayTarget.allLines_eq_titles] at hends
  intro front line back hsplit
  rcases split_append hsplit with ⟨rest, htitles, rfl⟩ | ⟨rest, rfl, hrest⟩
  · -- The line is the media line or a title.
    have hmem : line ∈ passed (some i) t.closed (part.headLine :: part.lines.takeWhile SdpLine.isTitle) := by
      rw [htitles]
      exact List.mem_append_right _ List.mem_cons_self
    obtain ⟨l, hl, rfl⟩ := List.mem_map.mp hmem
    refine ⟨fun hnone => (by cases hnone), fun place old hsource _ => ?_⟩
    refine (kept_closed (List.pairwise_append.mp hends).1 htitles hsource).imp id ?_
    rintro ⟨hend, hraw, rfl⟩
    exact ⟨hend, hraw, _, _, rfl, rfl⟩
  · cases rest with
    | nil =>
        obtain ⟨rfl, rfl⟩ := List.cons.inj hrest
        refine ⟨fun _ => ⟨?_, ?_⟩, fun place old hsource => (by cases hsource)⟩
        · obtain ⟨hsession, ip, hitem, -⟩ := mem_session_of_relayedLine? hconnection
          refine ⟨connection.raw, ?_, ?_, rfl⟩
          · rw [placed_rawLines h]
            exact List.mem_append_left _ (List.mem_map.mpr ⟨connection, hsession, rfl⟩)
          · have hmark := (h.lines connection (List.mem_append_left _ hsession)).startsWith_mark
            rwa [hitem] at hmark
        · refine ⟨i, [], _, _, by rw [List.append_nil]; rfl, hport, ⟨part.head, rfl, ?_⟩, ?_⟩
          · rw [show part.head = part.headLine.raw from rfl,
              ← (hlegible part.headLine List.mem_cons_self).isMedia_eq]
            rfl
          · intro title htitle
            obtain ⟨l, hl, rfl⟩ := List.mem_map.mp htitle
            refine ⟨l.raw, rfl, ?_⟩
            have hitem : l.item = .title := eq_of_beq (List.mem_takeWhile_imp (p := SdpLine.isTitle) hl)
            have hmark := (hlegible l
              (List.mem_cons_of_mem _ (List.takeWhile_subset _ hl))).startsWith_mark
            rwa [hitem] at hmark
    | cons first rest =>
        obtain ⟨-, hback⟩ := List.cons.inj hrest
        have hrests : Everywhere (Fares s.raw t.newline ports)
            (passed (some i) id (part.lines.dropWhile SdpLine.isTitle)) := fares_passed fun _ _ _ => rfl
        have hkept := hrests rest line back hback
        exact isLocal_fares.before _ (isLocal_fares.before [first] hkept)

theorem fares_passedSection (h : s.Legible) {part : SdpSection} {i : Nat} (hpart : part ∈ s.sections) :
    Everywhere (Fares s.raw t.newline ports) (s.passedSection t ports part i) := by
  have hlegible := h.mem_section hpart
  have hself : Everywhere (Fares s.raw t.newline ports) (passed (some i) id part.allLines) :=
    fares_passed fun _ _ _ => rfl
  unfold passedSection
  split
  · rename_i port hport
    refine Everywhere.append isLocal_fares (fares_passed fun l hl hspared => ?_)
      (fares_passed fun l hl hspared => ?_)
    · obtain rfl := List.mem_singleton.mp hl
      exact absurd hspared (not_spared_headLine hport (hlegible _ List.mem_cons_self))
    · exact hspared.raw_facedLine hport (hlegible l (List.mem_cons_of_mem _ hl))
  · rename_i hport
    split
    · rename_i connection hconnection
      split
      · exact fares_passedRestored h hconnection hpart hport
      · exact hself
    · exact hself

theorem fares_passedLines (h : s.Legible) :
    Everywhere (Fares s.raw t.newline ports) (s.passedLines t ports) := by
  refine Everywhere.append isLocal_fares (fares_passed fun l hl hspared => ?_)
    (Everywhere.flatMap isLocal_fares fun entry hentry =>
      fares_passedSection h (List.fst_mem_of_mem_zipIdx hentry))
  split
  · exact hspared.raw_facedConnection (h.lines l (List.mem_append_left _ hl))
  · rfl

/-! The whole body. -/

/-- Behind a line without an end stands no other line of the body. -/
theorem source_eq_none_of_not_isEnded {front back : List PassedLine} {line : PassedLine}
    (hsources : (front ++ line :: back).filterMap (·.source) = placed none (rawLines s.raw))
    {place : Option Nat} {old : Text} (hsource : line.source = some (place, old))
    (hended : ¬ IsEnded old) : ∀ later ∈ back, later.source = none := by
  intro later hlater
  have hends := rawLines_isEnded s.raw
  rw [← map_placed none (rawLines s.raw), List.pairwise_map] at hends
  rw [← hsources, List.filterMap_append, List.filterMap_cons_some hsource] at hends
  cases hlast : later.source with
  | none => rfl
  | some entry =>
      have hfollowed := (List.pairwise_cons.mp (List.pairwise_append.mp hends).2.1).1
      exact absurd (hfollowed entry (List.mem_filterMap.mpr ⟨later, hlater, hlast⟩)) hended

/-- No two lines that stand for none of the body follow one another. -/
theorem Restored.not_after {front : List PassedLine} {added line : PassedLine}
    (h : Restored body newline ports (front ++ [added]) line) : added.source ≠ none := by
  obtain ⟨-, i, before, head, titles, hfront, -, ⟨raw, hhead, -⟩, htitles⟩ := h
  rcases List.eq_nil_or_concat titles with rfl | ⟨inner, title, rfl⟩
  · obtain ⟨-, hadded⟩ := List.append_inj' hfront rfl
    rw [List.singleton_inj.mp hadded, hhead]
    exact Option.some_ne_none _
  · have hlast : front ++ [added] = (before ++ head :: inner) ++ [title] := by
      rw [hfront, List.concat_eq_append, List.append_assoc]
      rfl
    obtain ⟨-, hadded⟩ := List.append_inj' hlast rfl
    obtain ⟨raw', htitle, -⟩ := htitles title (by simp)
    rw [List.singleton_inj.mp hadded, htitle]
    exact Option.some_ne_none _

theorem passage (h : s.Legible) (ht : t.IsFit) :
    Passage s.raw t.newline (s.pointAt t ports) ports (s.passedLines t ports) where
  sources := filterMap_passedLines h
  results := map_passedLines h ht
  restored front line back hsplit := (fares_passedLines h front line back hsplit).restored
  kept front line back place old hsplit hsource hspared := by
    have hsources : (s.passedLines t ports).filterMap (·.source) = _ := filterMap_passedLines h
    rw [hsplit] at hsources
    refine ((fares_passedLines h front line back hsplit).kept place old hsource hspared).imp id ?_
    rintro ⟨hended, hraw, added, more, rfl, hadded⟩
    have hlater := source_eq_none_of_not_isEnded hsources hsource hended
    refine ⟨hended, hraw, added, ?_, hadded⟩
    cases more with
    | nil => rfl
    | cons next more =>
        have hnext : s.passedLines t ports = ((front ++ [line]) ++ [added]) ++ next :: more := by
          rw [hsplit]
          simp
        have hrestored := (fares_passedLines h _ next more hnext).restored
          (hlater next (List.mem_cons_of_mem _ List.mem_cons_self))
        exact absurd hadded hrestored.not_after

theorem relayedLine?_of_no_ports (hports : ∀ i < s.sections.length, portOf ports i = none) :
    s.relayedLine? ports = none := by
  refine if_neg ?_
  rw [List.any_eq_true]
  rintro ⟨⟨part, i⟩, hentry, hport⟩
  have hi : i < s.sections.length := by simpa using List.snd_lt_of_mem_zipIdx hentry
  simp [hports i hi] at hport

/-- With no port for any of its sections a description stays as it is. -/
theorem redirected_of_no_ports (hports : ∀ i < s.sections.length, portOf ports i = none) :
    s.redirected t ports = s := by
  have hline := relayedLine?_of_no_ports hports
  have hsections : s.sections.zipIdx.map (fun entry => s.redirectedSection t ports entry.1 entry.2) =
      s.sections := by
    conv_rhs => rw [← List.zipIdx_map_fst 0 s.sections]
    refine List.map_congr_left fun entry hentry => ?_
    rw [redirectedSection, hports entry.2 (by simpa using List.snd_lt_of_mem_zipIdx hentry), hline]
  rw [redirected, hline, if_neg (by simp), hsections]

/-- Pointing the sections of a body at a relay fails just as reading it does, and what was read once is read
again. Without a port for any section the body stays as it is. With any ports its lines come out in their
places, copies of a connection line of the session apart, and those that are to be left alone are as they
were. -/
theorem redirect_passes_the_rest (body : Text) (ip : Ip) (ports : List (Option UInt16)) :
    (∀ fault, redirect body ip ports = .error fault ↔ read body = .error fault) ∧
      ∀ s, read body = .ok s →
        (∀ place raw, (place, raw) ∈ placed none (rawLines body) →
          (∀ i, place = some i → i < s.sections.length) ∧
            ∀ rest, Text.afterPrefix? "c=".toList (SdpLine.content raw) = some rest →
              ∃ old, SdpLine.readConnection rest = .ok old) ∧
        ∃ text lines, redirect body ip ports = .ok text ∧
          ((∀ i < s.sections.length, portOf ports i = none) → text = body) ∧
          (lines.filter fun line => line.source.isSome).length = (rawLines body).length ∧
          Passage body (newlineOf body) text ports lines := by
  refine ⟨fun fault => ?_, fun s hread => ?_⟩
  · rw [redirect]
    cases read body <;> simp [Except.map]
  · obtain ⟨h, rfl⟩ := read_eq_ok_iff.mp hread
    let target : RelayTarget := ⟨ip, newlineOf s.raw⟩
    have hredirect : redirect s.raw ip ports = .ok (s.pointAt target ports) := by
      rw [redirect, hread]
      rfl
    have hpassage : Passage s.raw target.newline (s.pointAt target ports) ports _ :=
      passage h (isFit_newlineOf ip s.raw)
    refine ⟨fun place raw hmem => reads_again h hmem, s.pointAt target ports, s.passedLines target ports,
      hredirect, fun hports => ?_, ?_, hpassage⟩
    · rw [← raw_redirected h, redirected_of_no_ports hports]
    · rw [← List.countP_eq_length_filter, ← List.length_filterMap_eq_countP, hpassage.sources,
        ← List.length_map (·.2), map_placed]

/-- A description whose last line, a media line that depends on the session, has no end. -/
def openVideo : Text :=
  "c=IN IP4 10.0.0.5\nm=audio 4000 RTP/AVP 0\r\nm=video 4002 RTP/AVP 31".toList

theorem passes_open_video :
    (read openVideo).toOption.isSome = true ∧
      ∃ text lines, redirect openVideo (.v4 192 0 2 1) [some 7070] = .ok text ∧
        Passage openVideo "\r\n".toList text [some 7070] lines := by
  have hsome : (read openVideo).toOption.isSome = true := by decide +kernel
  refine ⟨hsome, ?_⟩
  cases hread : read openVideo with
  | error fault => rw [hread] at hsome; cases hsome
  | ok s =>
      obtain ⟨-, hpasses⟩ := redirect_passes_the_rest openVideo (.v4 192 0 2 1) [some 7070]
      obtain ⟨-, text, lines, hredirect, -, -, hpassage⟩ := hpasses s hread
      have hnewline : newlineOf openVideo = "\r\n".toList := by decide +kernel
      rw [hnewline] at hpassage
      exact ⟨text, lines, hredirect, hpassage⟩

example : (redirect openVideo (.v4 192 0 2 1) [some 7070]).toOption =
    some ("c=IN IP4 192.0.2.1\r\nm=audio 7070 RTP/AVP 0\r\n" ++
      "m=video 4002 RTP/AVP 31\r\nc=IN IP4 10.0.0.5\r\n").toList := by
  decide +kernel

end Sdp

end BorderProxy
