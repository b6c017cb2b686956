import BorderProxy.Sdp
import BorderProxy.Proofs.Text.Pieces

/-! The lines of a session description. What a line says does not depend on the line feeds and carriage
returns at its end, and a text is a description just if it is the lines of that description, each said
as it is written. -/

namespace BorderProxy

namespace Text

theorem afterPrefix?_append {α : Type} [BEq α] [LawfulBEq α] {start t tail : List α}
    (h : ∀ c ∈ start, c ∉ tail) :
    afterPrefix? start (t ++ tail) = (afterPrefix? start t).map (· ++ tail) := by
  induction start generalizing t with
  | nil => rfl
  | cons p ps ih =>
      cases t with
      | nil =>
          cases tail with
          | nil => rfl
          | cons c cs =>
              have hp : p ≠ c := fun heq => h p List.mem_cons_self (by simp [heq])
              simp [afterPrefix?, hp]
      | cons c cs =>
          have hrest := ih (t := cs) fun d hd => h d (List.mem_cons_of_mem _ hd)
          by_cases hp : p = c
          · simp [afterPrefix?, hp, hrest]
          · simp [afterPrefix?, hp]

theorem exists_dropEndWhile (p : Char → Bool) (t : Text) :
    ∃ tail, t = dropEndWhile p t ++ tail ∧ ∀ c ∈ tail, p c = true := by
  induction t with
  | nil => exact ⟨[], rfl, by simp⟩
  | cons c cs ih =>
      obtain ⟨tail, hcs, htail⟩ := ih
      rw [dropEndWhile]
      cases hkept : dropEndWhile p cs with
      | nil =>
          rw [hkept, List.nil_append] at hcs
          by_cases hc : p c = true
          · refine ⟨c :: tail, by simp [hc, hcs], fun d hd => ?_⟩
            rcases List.mem_cons.mp hd with rfl | hd
            · exact hc
            · exact htail d hd
          · exact ⟨tail, by simp [hc, hcs], htail⟩
      | cons d ds =>
          rw [hkept] at hcs
          exact ⟨tail, by simp [hcs], htail⟩

theorem getLast?_dropEndWhile {p : Char → Bool} {t : Text} {c : Char}
    (h : (dropEndWhile p t).getLast? = some c) : p c = false := by
  induction t with
  | nil => cases h
  | cons d ds ih =>
      rw [dropEndWhile] at h
      cases hkept : dropEndWhile p ds with
      | nil =>
          rw [hkept] at h
          by_cases hd : p d = true
          · simp [hd] at h
          · have hcd : d = c := by simpa [hd] using h
            rw [← hcd]
            simpa using hd
      | cons e es =>
          rw [hkept] at h ih
          exact ih (by simpa using h)

end Text

/-! How lines end. -/

/-- A text that a line can be: nothing follows a line feed in it. -/
def IsRawLine (raw : Text) : Prop := raw ≠ [] ∧ '\n' ∉ raw.dropLast

/-- A line that another one may follow. -/
def IsEnded (raw : Text) : Prop := raw.getLast? = some '\n'

theorem isRawLine_cons {c : Char} {raw : Text} (hc : c ≠ '\n') (h : IsRawLine raw) :
    IsRawLine (c :: raw) := by
  refine ⟨by simp, ?_⟩
  rw [List.dropLast_cons_of_ne_nil h.1, List.mem_cons, not_or]
  exact ⟨Ne.symm hc, h.2⟩

theorem isEnded_cons {c : Char} {raw : Text} (h : raw ≠ []) : IsEnded (c :: raw) ↔ IsEnded raw := by
  obtain ⟨d, ds, rfl⟩ := List.exists_cons_of_ne_nil h
  rw [IsEnded, IsEnded, List.getLast?_cons_cons]

namespace Sdp

theorem flatten_rawLines (body : Text) : (rawLines body).flatten = body := by
  induction body with
  | nil => rfl
  | cons c cs ih =>
      rw [rawLines]
      split
      · simp [ih]
      · cases hlines : rawLines cs with
        | nil => simp_all
        | cons line lines =>
            rw [hlines] at ih
            simp [← ih]

theorem rawLines_isRawLine (body : Text) : ∀ raw ∈ rawLines body, IsRawLine raw := by
  induction body with
  | nil => simp [rawLines]
  | cons c cs ih =>
      intro raw hraw
      rw [rawLines] at hraw
      split at hraw
      · rcases List.mem_cons.mp hraw with rfl | hraw
        · simp [IsRawLine]
        · exact ih raw hraw
      · rename_i hc
        cases hlines : rawLines cs with
        | nil =>
            rw [hlines, List.mem_singleton] at hraw
            simp [hraw, IsRawLine]
        | cons line lines =>
            rw [hlines] at hraw ih
            rcases List.mem_cons.mp hraw with rfl | hraw
            · exact isRawLine_cons hc (ih line List.mem_cons_self)
            · exact ih raw (List.mem_cons_of_mem _ hraw)

theorem rawLines_isEnded (body : Text) : (rawLines body).Pairwise fun raw _ => IsEnded raw := by
  induction body with
  | nil => exact List.Pairwise.nil
  | cons c cs ih =>
      rw [rawLines]
      split
      · rename_i hc
        exact List.Pairwise.cons (fun _ _ => by simp [IsEnded, hc]) ih
      · cases hlines : rawLines cs with
        | nil => exact List.pairwise_singleton _ _
        | cons line lines =>
            have hline := rawLines_isRawLine cs line (by simp [hlines])
            rw [hlines] at ih
            obtain ⟨hhead, htail⟩ := List.pairwise_cons.mp ih
            exact List.Pairwise.cons (fun raw hraw => (isEnded_cons hline.1).mpr (hhead raw hraw)) htail

theorem rawLines_append {raw rest : Text} (h : IsRawLine raw) (hend : IsEnded raw ∨ rest = []) :
    rawLines (raw ++ rest) = raw :: rawLines rest := by
  induction raw with
  | nil => exact absurd rfl h.1
  | cons c cs ih =>
      cases cs with
      | nil =>
          rcases hend with hend | rfl
          · have hc : c = '\n' := by simpa [IsEnded] using hend
            simp [rawLines, hc]
          · by_cases hc : c = '\n' <;> simp [rawLines, hc]
      | cons d ds =>
          have hdrop := h.2
          rw [List.dropLast_cons_cons, List.mem_cons, not_or] at hdrop
          have hrest := ih ⟨by simp, hdrop.2⟩ (hend.imp (isEnded_cons (by simp)).mp id)
          rw [List.cons_append, rawLines, if_neg (Ne.symm hdrop.1), hrest]

theorem rawLines_flatten {raws : List Text} (h : ∀ raw ∈ raws, IsRawLine raw)
    (hends : raws.Pairwise fun raw _ => IsEnded raw) : rawLines raws.flatten = raws := by
  induction raws with
  | nil => rfl
  | cons raw rest ih =>
      obtain ⟨hhead, htail⟩ := List.pairwise_cons.mp hends
      have hend : IsEnded raw ∨ rest.flatten = [] := by
        cases rest with
        | nil => exact .inr rfl
        | cons next rest => exact .inl (hhead next List.mem_cons_self)
      rw [List.flatten_cons, rawLines_append (h raw List.mem_cons_self) hend,
        ih (fun r hr => h r (List.mem_cons_of_mem _ hr)) htail]

end Sdp

namespace SdpLine

/-! What lines say. -/

theorem isBlank_of_isEnd {c : Char} (h : isEnd c = true) : Text.isBlank c = true := by
  unfold isEnd at h
  rw [Bool.or_eq_true, beq_iff_eq, beq_iff_eq] at h
  rcases h with rfl | rfl <;> decide

theorem exists_text (raw : Text) :
    ∃ tail, raw = text raw ++ tail ∧ ∀ c ∈ tail, isEnd c = true := by
  unfold text
  split
  · rename_i rest h
    refine ⟨['\r', '\n'], ?_, by simp [isEnd]⟩
    have hraw := congrArg List.reverse h
    simpa using hraw
  · rename_i rest _ h
    refine ⟨['\n'], ?_, by simp [isEnd]⟩
    have hraw := congrArg List.reverse h
    simpa using hraw
  · exact ⟨[], by simp, by simp⟩

theorem exists_content (raw : Text) :
    ∃ tail, raw = content raw ++ tail ∧ ∀ c ∈ tail, isEnd c = true :=
  Text.exists_dropEndWhile isEnd raw

theorem content_ne_of_isEnded {raw : Text} (h : IsEnded raw) : content raw ≠ raw := by
  intro heq
  rw [IsEnded, ← heq] at h
  have hend := Text.getLast?_dropEndWhile h
  exact absurd hend (by decide)

theorem newline_not_mem_content {raw : Text} (h : IsRawLine raw) : '\n' ∉ content raw := by
  intro hmem
  obtain ⟨front, last, hcontent⟩ : ∃ front last, content raw = front ++ [last] :=
    ⟨_, _, (List.dropLast_concat_getLast (List.ne_nil_of_mem hmem)).symm⟩
  obtain ⟨tail, hraw, -⟩ := exists_content raw
  rw [hcontent, List.mem_append, List.mem_singleton] at hmem
  rcases hmem with hmem | rfl
  · have hdrop := h.2
    rw [hraw, hcontent, List.append_assoc, List.dropLast_append_of_ne_nil (by simp)] at hdrop
    exact hdrop (List.mem_append_left _ hmem)
  · have hend := Text.getLast?_dropEndWhile (p := isEnd) (t := raw) (c := '\n') (by
      rw [← content, hcontent, List.getLast?_concat])
    exact absurd hend (by decide)

theorem toOption_readMedia_append {rest tail : Text} (h : ∀ c ∈ tail, isEnd c = true) :
    (readMedia (rest ++ tail)).toOption = (readMedia rest).toOption := by
  have hwords := Text.words_append_blanks (t := rest) fun c hc => isBlank_of_isEnd (h c hc)
  unfold readMedia
  rw [hwords]
  split
  · rfl
  · rfl
  · rename_i kind port _ _
    cases Text.uint16? ((Text.splitOn '/' port).headD []) <;> rfl

theorem toOption_readConnection_append {rest tail : Text} (h : ∀ c ∈ tail, isEnd c = true) :
    (readConnection (rest ++ tail)).toOption = (readConnection rest).toOption := by
  have hwords := Text.words_append_blanks (t := rest) fun c hc => isBlank_of_isEnd (h c hc)
  unfold readConnection
  rw [hwords]
  split <;> rfl

/-- What a line says, by what it begins with. -/
theorem readItem_eq (line : Text) :
    readItem line =
      match Text.afterPrefix? ['m', '='] line with
      | some rest => readMedia rest
      | none =>
        match Text.afterPrefix? ['c', '='] line with
        | some rest => (readConnection rest).map .connection
        | none =>
          match Text.afterPrefix? ['i', '='] line with
          | some _ => .ok .title
          | none => .ok (if Text.startsWith "a=rtcp:".toList line then .rtcp else .other) := by
  unfold readItem
  split
  · rfl
  · rfl
  · rfl
  · rename_i hm hc hi
    have hnone : ∀ c : Char, (∀ rest, line = c :: '=' :: rest → False) →
        Text.afterPrefix? [c, '='] line = none := by
      intro c hc
      rw [Option.eq_none_iff_forall_ne_some]
      exact fun rest hrest => hc rest (Text.afterPrefix?_eq_some_iff.mp hrest)
    rw [hnone 'm' hm, hnone 'c' hc, hnone 'i' hi]

/-- The end of a line does not matter to what it says. -/
theorem toOption_readItem_append {line tail : Text} (h : ∀ c ∈ tail, isEnd c = true) :
    (readItem (line ++ tail)).toOption = (readItem line).toOption := by
  have hprefix : ∀ start : Text, (∀ c ∈ start, isEnd c = false) →
      Text.afterPrefix? start (line ++ tail) = (Text.afterPrefix? start line).map (· ++ tail) := by
    intro start hstart
    refine Text.afterPrefix?_append fun c hc htail => ?_
    exact absurd (h c htail) (by simp [hstart c hc])
  rw [readItem_eq, readItem_eq line, hprefix ['m', '='] (by simp [isEnd]),
    hprefix ['c', '='] (by simp [isEnd]), hprefix ['i', '='] (by simp [isEnd]), Text.startsWith,
    hprefix "a=rtcp:".toList (by simp [isEnd]), Option.isSome_map]
  cases Text.afterPrefix? ['m', '='] line with
  | some rest => exact toOption_readMedia_append h
  | none =>
      cases Text.afterPrefix? ['c', '='] line with
      | some rest =>
          have hrest : (readConnection (rest ++ tail)).toOption = (readConnection rest).toOption :=
            toOption_readConnection_append h
          simp only [Option.map_none, Option.map_some]
          cases hl : readConnection (rest ++ tail) <;> cases hr : readConnection rest <;>
            simp_all [Except.map, Except.toOption]
      | none =>
          cases Text.afterPrefix? ['i', '='] line <;> rfl

theorem toOption_readItem_text (raw : Text) :
    (readItem (text raw)).toOption = (readItem raw).toOption := by
  obtain ⟨tail, hraw, htail⟩ := exists_text raw
  rw [hraw, toOption_readItem_append htail, ← hraw]

theorem toOption_readItem_content (raw : Text) :
    (readItem (content raw)).toOption = (readItem raw).toOption := by
  obtain ⟨tail, hraw, htail⟩ := exists_content raw
  rw [hraw, toOption_readItem_append htail, ← hraw]

/-- A line that says what is written in it. -/
structure Legible (l : SdpLine) : Prop where
  shape : IsRawLine l.raw
  reads : (readItem l.raw).toOption = some l.item

theorem read_eq_ok_iff {raw : Text} {l : SdpLine} :
    read raw = .ok l ↔ l.raw = raw ∧ (readItem raw).toOption = some l.item := by
  rw [← toOption_readItem_text, read]
  cases readItem (text raw) with
  | error fault => simp [Except.map, Except.toOption]
  | ok item =>
      obtain ⟨raw', item'⟩ := l
      simp only [Except.map, Except.toOption, Except.ok.injEq, Option.some.injEq, SdpLine.mk.injEq,
        eq_comm]

theorem mapM_read_eq_ok_iff {raws : List Text} {lines : List SdpLine} :
    raws.mapM read = .ok lines ↔
      lines.map (·.raw) = raws ∧ ∀ l ∈ lines, (readItem l.raw).toOption = some l.item := by
  induction raws generalizing lines with
  | nil =>
      cases lines <;> simp [pure, Except.pure]
  | cons raw rest ih =>
      rw [List.mapM_cons]
      constructor
      · intro h
        obtain ⟨l, hl, ls, hls, heq⟩ : ∃ l, read raw = .ok l ∧ ∃ ls, rest.mapM read = .ok ls ∧
            l :: ls = lines := by
          cases hl : read raw with
          | error fault => simp [hl, bind, Except.bind] at h
          | ok l =>
              cases hls : rest.mapM read with
              | error fault => simp [hl, hls, bind, Except.bind] at h
              | ok ls =>
                  refine ⟨l, rfl, ls, rfl, ?_⟩
                  simpa [hl, hls, bind, Except.bind, pure, Except.pure] using h
        subst heq
        obtain ⟨hraw, hitem⟩ := read_eq_ok_iff.mp hl
        obtain ⟨hraws, hall⟩ := ih.mp hls
        refine ⟨by simp [hraw, hraws], fun m hm => ?_⟩
        rcases List.mem_cons.mp hm with rfl | hm
        · rw [hraw, hitem]
        · exact hall m hm
      · rintro ⟨hraws, hall⟩
        cases lines with
        | nil => cases hraws
        | cons l ls =>
            rw [List.map_cons] at hraws
            obtain ⟨hraw, hrest⟩ := List.cons.inj hraws
            have hl := read_eq_ok_iff.mpr ⟨hraw, hraw ▸ hall l List.mem_cons_self⟩
            have hls := ih.mpr ⟨hrest, fun m hm => hall m (List.mem_cons_of_mem _ hm)⟩
            rw [hl, hls]
            rfl

/-- Whether a line begins a section. -/
def isMedia (l : SdpLine) : Bool :=
  match l.item with
  | .media .. => true
  | _ => false

end SdpLine

/-! Descriptions. -/

/-- The media line of a section. -/
def SdpSection.headLine (part : SdpSection) : SdpLine := ⟨part.head, .media part.kind part.port⟩

/-- The lines of a section, its media line first. -/
def SdpSection.allLines (part : SdpSection) : List SdpLine := part.headLine :: part.lines

namespace Sdp

/-- The lines of a description. -/
def allLines (s : Sdp) : List SdpLine := s.session ++ s.sections.flatMap SdpSection.allLines

/-- The text of a description as it was written. -/
def raw (s : Sdp) : Text := s.allLines.flatMap (·.raw)

/-- A description whose lines say what is written in them, each section beginning with its media line. -/
structure Legible (s : Sdp) : Prop where
  lines : ∀ l ∈ s.allLines, l.Legible
  ends : s.allLines.Pairwise fun l _ => IsEnded l.raw
  session : ∀ l ∈ s.session, l.isMedia = false
  sections : ∀ part ∈ s.sections, ∀ l ∈ part.lines, l.isMedia = false

theorem ofLines_cons_of_not_media {l : SdpLine} {lines : List SdpLine} (h : l.isMedia = false) :
    ofLines (l :: lines) = ⟨l :: (ofLines lines).session, (ofLines lines).sections⟩ := by
  obtain ⟨raw, item⟩ := l
  cases item <;> first | rfl | cases h

theorem allLines_ofLines (lines : List SdpLine) : (ofLines lines).allLines = lines := by
  induction lines with
  | nil => rfl
  | cons l lines ih =>
      cases hmedia : l.isMedia with
      | false =>
          rw [ofLines_cons_of_not_media hmedia]
          rw [allLines] at ih ⊢
          rw [List.cons_append, ih]
      | true =>
          obtain ⟨raw, item⟩ := l
          cases item <;> cases hmedia
          rw [allLines] at ih
          simp [ofLines, allLines, SdpSection.allLines, SdpSection.headLine, ih]

theorem isMedia_ofLines (lines : List SdpLine) :
    (∀ l ∈ (ofLines lines).session, l.isMedia = false) ∧
      ∀ part ∈ (ofLines lines).sections, ∀ l ∈ part.lines, l.isMedia = false := by
  induction lines with
  | nil => simp [ofLines]
  | cons l lines ih =>
      cases hmedia : l.isMedia with
      | false =>
          rw [ofLines_cons_of_not_media hmedia]
          refine ⟨fun m hm => ?_, ih.2⟩
          rcases List.mem_cons.mp hm with rfl | hm
          · exact hmedia
          · exact ih.1 m hm
      | true =>
          obtain ⟨raw, item⟩ := l
          cases item <;> cases hmedia
          refine ⟨by simp [ofLines], fun part hpart => ?_⟩
          rcases List.mem_cons.mp hpart with rfl | hpart
          · exact ih.1
          · exact ih.2 part hpart

theorem ofLines_append {session lines : List SdpLine} (h : ∀ l ∈ session, l.isMedia = false) :
    ofLines (session ++ lines) = ⟨session ++ (ofLines lines).session, (ofLines lines).sections⟩ := by
  induction session with
  | nil => rfl
  | cons l rest ih =>
      rw [List.cons_append, ofLines_cons_of_not_media (h l List.mem_cons_self),
        ih fun m hm => h m (List.mem_cons_of_mem _ hm)]
      rfl

theorem ofLines_allLines {s : Sdp} (hsession : ∀ l ∈ s.session, l.isMedia = false)
    (hsections : ∀ part ∈ s.sections, ∀ l ∈ part.lines, l.isMedia = false) :
    ofLines s.allLines = s := by
  have hall : ∀ parts : List SdpSection, (∀ part ∈ parts, ∀ l ∈ part.lines, l.isMedia = false) →
      ofLines (parts.flatMap SdpSection.allLines) = ⟨[], parts⟩ := by
    intro parts
    induction parts with
    | nil => exact fun _ => rfl
    | cons part rest ih =>
        intro h
        have hrest := ih fun p hp => h p (List.mem_cons_of_mem _ hp)
        rw [List.flatMap_cons, SdpSection.allLines, List.cons_append, ofLines]
        simp only [SdpSection.headLine, ofLines_append (h part List.mem_cons_self), hrest,
          List.append_nil]
  rw [allLines, ofLines_append hsession, hall s.sections hsections, List.append_nil]

/-- A text is read as a description just if it is the text of that description, and that is legible. -/
theorem read_eq_ok_iff {body : Text} {s : Sdp} : read body = .ok s ↔ s.Legible ∧ s.raw = body := by
  have hread : read body = .ok s ↔
      ∃ lines, (rawLines body).mapM SdpLine.read = .ok lines ∧ ofLines lines = s := by
    rw [read]
    cases (rawLines body).mapM SdpLine.read <;> simp [Except.map]
  rw [hread]
  constructor
  · rintro ⟨lines, hlines, rfl⟩
    obtain ⟨hraws, hitem⟩ := SdpLine.mapM_read_eq_ok_iff.mp hlines
    have hsession := isMedia_ofLines lines
    have hmem : ∀ l ∈ lines, l.raw ∈ rawLines body := by
      intro l hl
      rw [← hraws]
      exact List.mem_map_of_mem hl
    refine ⟨⟨?_, ?_, hsession.1, hsession.2⟩, ?_⟩
    · rw [allLines_ofLines]
      exact fun l hl => ⟨rawLines_isRawLine body _ (hmem l hl), hitem l hl⟩
    · rw [allLines_ofLines]
      have hends := rawLines_isEnded body
      rw [← hraws] at hends
      exact List.pairwise_map.mp hends
    · rw [raw, allLines_ofLines, List.flatMap_def, hraws, flatten_rawLines]
  · rintro ⟨hs, rfl⟩
    refine ⟨s.allLines, SdpLine.mapM_read_eq_ok_iff.mpr ⟨?_, fun l hl => (hs.lines l hl).reads⟩,
      ofLines_allLines hs.session hs.sections⟩
    rw [raw, List.flatMap_def, rawLines_flatten]
    · intro r hr
      obtain ⟨l, hl, rfl⟩ := List.mem_map.mp hr
      exact (hs.lines l hl).shape
    · exact List.pairwise_map.mpr hs.ends

end Sdp

end BorderProxy
