import Mathlib.Data.List.Induction
import BorderProxy.Proofs.Sdp.Relayed

/-! What pointing sections at a relay leaves to the others. A section without a relay port stays of its
kind and at its port, and it is received where it was before, with one exception: where the last connection
line of the session puts it on hold and an earlier one names a host, the earlier one is what is restored. -/

namespace BorderProxy.Sdp

variable {s : Sdp} {t : RelayTarget} {ports : List (Option UInt16)}

/-! The connection line that is restored. -/

theorem lastConnection?_append (front back : List SdpLine) :
    lastConnection? (front ++ back) = (lastConnection? back).or (lastConnection? front) := by
  unfold lastConnection?
  rw [List.filterMap_append, List.getLast?_append]

theorem lastConnection?_eq_none_iff {lines : List SdpLine} :
    lastConnection? lines = none ↔ ∀ l ∈ lines, l.connection? = none := by
  rw [lastConnection?, List.getLast?_eq_none_iff, List.filterMap_eq_nil_iff]

theorem inherits_iff {part : SdpSection} : part.inherits = true ↔ lastConnection? part.lines = none := by
  rw [SdpSection.inherits, Option.isNone_iff_eq_none]

/-- Where the last connection line of a session names a host, that is the line which is shared. -/
theorem connection?_sharedLine? {line : SdpLine} {ip : Ip} (hline : s.sharedLine? = some line)
    (hip : lastConnection? s.session = some ip) (hspec : ip.isUnspecified = false) :
    line.connection? = some ip := by
  unfold sharedLine? at hline
  generalize s.session = lines at hline hip
  induction lines using List.reverseRecOn with
  | nil => cases hline
  | append_singleton lines l ih =>
      rw [lastConnection?_append] at hip
      rw [List.filter_append, List.getLast?_append] at hline
      obtain ⟨raw, item⟩ := l
      cases item with
      | connection own =>
          obtain rfl : own = ip := by simpa [lastConnection?, SdpLine.connection?] using hip
          obtain rfl : ⟨raw, .connection own⟩ = line := by simpa [hspec] using hline
          rfl
      | _ => exact ih hline hip

/-- Of a section that had no connection line, the restored one is the only one. -/
theorem lastConnection?_restoredSection (line : SdpLine) {part : SdpSection}
    (h : part.inherits = true) :
    lastConnection? (t.restoredSection line part).lines = line.connection? := by
  have hnone := lastConnection?_eq_none_iff.mp (inherits_iff.mp h)
  have htitles : lastConnection? ((part.lines.takeWhile SdpLine.isTitle).map t.closed) = none := by
    rw [lastConnection?_eq_none_iff]
    intro l hl
    obtain ⟨m, hm, rfl⟩ := List.mem_map.mp hl
    exact hnone m (List.takeWhile_subset _ hm)
  have hrest : lastConnection? (part.lines.dropWhile SdpLine.isTitle) = none :=
    lastConnection?_eq_none_iff.mpr fun l hl => hnone l (List.dropWhile_subset _ hl)
  have hline : lastConnection? [t.restoredLine line] = line.connection? := by
    unfold lastConnection?
    cases hconnection : line.connection? <;>
      simp [show (t.restoredLine line).connection? = line.connection? from rfl, hconnection]
  calc lastConnection? (t.restoredSection line part).lines
      = lastConnection? ((part.lines.takeWhile SdpLine.isTitle).map t.closed ++
          ([t.restoredLine line] ++ part.lines.dropWhile SdpLine.isTitle)) := rfl
    _ = line.connection? := by
        rw [lastConnection?_append, lastConnection?_append, hrest, Option.none_or, hline, htitles,
          Option.or_none]

/-! Sections without a relay port. -/

/-- A section is woken by the relaying of others: the last connection line of the session puts it on hold,
but another line of the session names a host, and a section with a relay port depends on the session's
address as it does. -/
structure Wakes (s : Sdp) (ports : List (Option UInt16)) (i : Nat) : Prop where
  inherits : ∃ part, s.sections[i]? = some part ∧ part.inherits = true
  held : ∃ ip, lastConnection? s.session = some ip ∧ ip.isUnspecified = true
  named : ∃ line ∈ s.session, ∃ ip, line.item = .connection ip ∧ ip.isUnspecified = false
  relayed : ∃ (j : Nat) (part : SdpSection) (port : UInt16),
    s.sections[j]? = some part ∧ part.inherits = true ∧ portOf ports j = some port

theorem isSome_relayedLine?_iff :
    (s.relayedLine? ports).isSome = true ↔
      (∃ line ∈ s.session, ∃ ip, line.item = .connection ip ∧ ip.isUnspecified = false) ∧
        ∃ (j : Nat) (part : SdpSection) (port : UInt16),
          s.sections[j]? = some part ∧ part.inherits = true ∧ portOf ports j = some port := by
  have hany : (s.sections.zipIdx.any fun entry =>
      entry.1.inherits && (portOf ports entry.2).isSome) = true ↔
        ∃ (j : Nat) (part : SdpSection) (port : UInt16),
          s.sections[j]? = some part ∧ part.inherits = true ∧ portOf ports j = some port := by
    rw [List.any_eq_true]
    constructor
    · rintro ⟨⟨part, j⟩, hmem, h⟩
      obtain ⟨hinherits, hport⟩ := Bool.and_eq_true_iff.mp h
      obtain ⟨port, hport⟩ := Option.isSome_iff_exists.mp hport
      exact ⟨j, part, port, List.mem_zipIdx_iff_getElem?.mp hmem, hinherits, hport⟩
    · rintro ⟨j, part, port, hpart, hinherits, hport⟩
      exact ⟨(part, j), List.mem_zipIdx_iff_getElem?.mpr hpart, by simp [hinherits, hport]⟩
  constructor
  · intro h
    obtain ⟨line, hline⟩ := Option.isSome_iff_exists.mp h
    obtain ⟨hmem, hnamed⟩ := mem_session_of_relayedLine? hline
    refine ⟨⟨line, hmem, hnamed⟩, hany.mp ?_⟩
    by_contra hnot
    rw [relayedLine?, if_neg hnot] at hline
    cases hline
  · rintro ⟨⟨line, hmem, ip, hitem, hspec⟩, hrelayed⟩
    rw [relayedLine?, if_pos (hany.mpr hrelayed), sharedLine?, Option.isSome_iff_ne_none, Ne,
      List.getLast?_eq_none_iff]
    exact List.ne_nil_of_mem (List.mem_filter.mpr ⟨hmem, by simp [hitem, hspec]⟩)

theorem Wakes.isSome_relayedLine? {i : Nat} (h : s.Wakes ports i) :
    (s.relayedLine? ports).isSome = true :=
  isSome_relayedLine?_iff.mpr ⟨h.named, h.relayed⟩

theorem relayedLine?_eq_sharedLine? {line : SdpLine} (h : s.relayedLine? ports = some line) :
    s.sharedLine? = some line := by
  unfold relayedLine? at h
  split at h
  · exact h
  · cases h

/-- Where the session names the relay, its last connection line is the one that is restored, unless it puts
its media on hold. -/
theorem lastConnection?_session_of_relayedLine? {line : SdpLine} (h : s.relayedLine? ports = some line) :
    ∃ old restored, lastConnection? s.session = some old ∧ line.connection? = some restored ∧
      restored.isUnspecified = false ∧ (restored = old ↔ old.isUnspecified = false) := by
  obtain ⟨hmem, restored, hitem, hspec⟩ := mem_session_of_relayedLine? h
  have hrestored : line.connection? = some restored := by rw [SdpLine.connection?, hitem]
  obtain ⟨old, hold⟩ : ∃ old, lastConnection? s.session = some old := by
    rw [← Option.isSome_iff_exists, Option.isSome_iff_ne_none, Ne, lastConnection?_eq_none_iff]
    intro hnone
    rw [hnone line hmem] at hrestored
    cases hrestored
  refine ⟨old, restored, hold, hrestored, hspec, fun heq => heq ▸ hspec, fun hnamed => ?_⟩
  have hlast := connection?_sharedLine? (relayedLine?_eq_sharedLine? h) hold hnamed
  exact Option.some.inj (hrestored.symm.trans hlast)

/-- Where the session names the relay, a section that depends on it is woken exactly if the last connection
line put it on hold. -/
theorem wakes_iff_of_relayedLine? {line : SdpLine} (hline : s.relayedLine? ports = some line)
    {part : SdpSection} {i : Nat} (hpart : s.sections[i]? = some part) (hinherits : part.inherits = true)
    {old : Ip} (hold : lastConnection? s.session = some old) :
    s.Wakes ports i ↔ old.isUnspecified = true := by
  constructor
  · rintro ⟨-, ⟨ip, hip, hheld⟩, -, -⟩
    obtain rfl : old = ip := Option.some.inj (hold.symm.trans hip)
    exact hheld
  · intro hheld
    obtain ⟨hnamed, hrelayed⟩ := isSome_relayedLine?_iff.mp (Option.isSome_of_eq_some hline)
    exact ⟨⟨part, hpart, hinherits⟩, ⟨old, hold, hheld⟩, hnamed, hrelayed⟩

theorem Wakes.inherits_of {part : SdpSection} {i : Nat} (h : s.Wakes ports i)
    (hpart : s.sections[i]? = some part) : part.inherits = true := by
  obtain ⟨part', hpart', hinherits⟩ := h.inherits
  obtain rfl : part = part' := Option.some.inj (hpart.symm.trans hpart')
  exact hinherits

/-- A section without a relay port is received where it was, unless the relaying of others wakes it. -/
theorem connectionOf_redirected_iff {part : SdpSection} {i : Nat} (hpart : s.sections[i]? = some part)
    (hport : portOf ports i = none) :
    (s.redirected t ports).connectionOf (s.redirectedSection t ports part i) = s.connectionOf part ↔
      ¬ s.Wakes ports i := by
  unfold redirectedSection
  rw [hport]
  dsimp only
  cases hline : s.relayedLine? ports with
  | none =>
      -- The session stays as it is, and so does the section.
      have hsession : (s.redirected t ports).session = s.session := by simp [redirected, hline]
      refine iff_of_true ?_ fun hwakes => ?_
      · rw [connectionOf, connectionOf, hsession]
      · have hsome := hwakes.isSome_relayedLine?
        rw [hline] at hsome
        cases hsome
  | some line =>
      dsimp only
      cases hinherits : part.inherits with
      | false =>
          obtain ⟨own, hown⟩ : ∃ own, lastConnection? part.lines = some own := by
            rw [← Option.isSome_iff_exists, Option.isSome_iff_ne_none, Ne, ← inherits_iff, hinherits]
            exact Bool.false_ne_true
          refine iff_of_true ?_ fun hwakes => ?_
          · rw [if_neg Bool.false_ne_true, connectionOf, connectionOf, hown, Option.some_or,
              Option.some_or]
          · rw [hwakes.inherits_of hpart] at hinherits
            cases hinherits
      | true =>
          obtain ⟨old, restored, hold, hrestored, -, hsame⟩ :=
            lastConnection?_session_of_relayedLine? hline
          rw [if_pos rfl, connectionOf, connectionOf, lastConnection?_restoredSection line hinherits,
            inherits_iff.mp hinherits, Option.none_or, hold, hrestored, Option.some_or,
            Option.some.injEq, hsame, wakes_iff_of_relayedLine? hline hpart hinherits hold,
            Bool.not_eq_true]

/-- Relaying only sections that can be relayed wakes none: one that depends on a session on hold cannot
be. -/
theorem not_wakes_of_canRelay
    (h : ∀ j m port, s.media[j]? = some m → portOf ports j = some port → m.canRelay = true) (i : Nat) :
    ¬ s.Wakes ports i := by
  rintro ⟨-, ⟨ip, hip, hheld⟩, -, j, part, port, hpart, hinherits, hport⟩
  have hconnection : s.connectionOf part = some ip := by
    rw [connectionOf, inherits_iff.mp hinherits, Option.none_or, hip]
  have hrelay := h j ⟨j, part.kind, part.port, s.connectionOf part⟩ port
    (by rw [getElem?_media, hpart]; rfl) hport
  simp [MediaOffer.canRelay, hconnection, hheld] at hrelay

theorem port_redirectedSection {i : Nat} (hport : portOf ports i = none) (part : SdpSection) :
    (s.redirectedSection t ports part i).port = part.port := by
  unfold redirectedSection
  rw [hport]
  dsimp only
  split
  · split <;> rfl
  · rfl

/-- A description that can be read is pointed at any relay with any ports, and read again with as many
sections. Each section without a relay port is of its kind and at its port, and it is received where it was
exactly if the relaying of others does not wake it, which they never do if they can be relayed. -/
theorem redirect_keeps_unrelayed {body : Text} (h : read body = .ok s) (ip : Ip)
    (ports : List (Option UInt16)) :
    ∃ text s', redirect body ip ports = .ok text ∧ read text = .ok s' ∧
      s'.media.length = s.media.length ∧
      (∀ i m, s.media[i]? = some m → portOf ports i = none →
        ∃ connection, s'.media[i]? = some { m with connection := connection } ∧
          (connection = m.connection ↔ ¬ s.Wakes ports i)) ∧
      ((∀ j m port, s.media[j]? = some m → portOf ports j = some port → m.canRelay = true) →
        ∀ i, ¬ s.Wakes ports i) := by
  let target : RelayTarget := ⟨ip, newlineOf body⟩
  have hredirect : redirect body ip ports = .ok (s.pointAt target ports) := by
    rw [redirect, h]
    rfl
  have hlength : (s.redirected target ports).media.length = s.media.length := by
    have hkinds := congrArg List.length (s.kinds_redirected target ports)
    rwa [List.length_map, List.length_map] at hkinds
  refine ⟨s.pointAt target ports, s.redirected target ports, hredirect,
    read_pointAt h (isFit_newlineOf ip body) ports, hlength, fun i m hm hport => ?_,
    not_wakes_of_canRelay⟩
  rw [getElem?_media] at hm
  obtain ⟨part, hpart, rfl⟩ := Option.map_eq_some_iff.mp hm
  refine ⟨_, ?_, connectionOf_redirected_iff (t := target) hpart hport⟩
  rw [getElem?_media, getElem?_redirected, hpart, Option.map_some, Option.map_some,
    kind_redirectedSection, port_redirectedSection hport]

/-- A description of two sections that depend on its session. -/
def dependent (session : String) : Text :=
  ("v=0\n" ++ session ++ "m=audio 4000 RTP/AVP 0\nm=video 4002 RTP/AVP 31\ni=view\n").toList

theorem keeps_dependent_video :
    ∃ text s', redirect (dependent "c=IN IP4 10.0.0.5\n") (.v4 192 0 2 1) [some 7070] = .ok text ∧
      read text = .ok s' ∧
      s'.media[1]? = some ⟨1, "video".toList, 4002, some (.v4 10 0 0 5)⟩ := by
  have hfacts : ∃ s ∈ (read (dependent "c=IN IP4 10.0.0.5\n")).toOption,
      s.media[1]? = some ⟨1, "video".toList, 4002, some (.v4 10 0 0 5)⟩ ∧
        lastConnection? s.session = some (.v4 10 0 0 5) := by
    decide +kernel
  obtain ⟨s, hs, hvideo, hsession⟩ := hfacts
  have hread : read (dependent "c=IN IP4 10.0.0.5\n") = .ok s := by
    cases hresult : read (dependent "c=IN IP4 10.0.0.5\n") with
    | error fault => rw [hresult] at hs; cases hs
    | ok s' => rw [hresult] at hs; exact congrArg Except.ok (Option.some.inj hs)
  obtain ⟨text, s', htext, hread', -, hkept, -⟩ :=
    redirect_keeps_unrelayed hread (.v4 192 0 2 1) [some 7070]
  obtain ⟨connection, hmedia, hconnection⟩ := hkept 1 _ hvideo rfl
  have hasleep : ¬ s.Wakes [some 7070] 1 := by
    rintro ⟨-, ⟨ip, hip, hheld⟩, -, -⟩
    obtain rfl := Option.some.inj (hsession.symm.trans hip)
    cases hheld
  rw [hconnection.mpr hasleep] at hmedia
  exact ⟨text, s', htext, hread', hmedia⟩

/-- With two connection lines in the session, of which the last one puts its media on hold, relaying the
first section takes the second one off hold. -/
theorem video_is_woken :
    ((read (dependent "c=IN IP4 10.0.0.5\nc=IN IP4 0.0.0.0\n")).toOption.map fun s => s.media[1]?) =
        some (some ⟨1, "video".toList, 4002, some (.v4 0 0 0 0)⟩) ∧
      (((redirect (dependent "c=IN IP4 10.0.0.5\nc=IN IP4 0.0.0.0\n") (.v4 192 0 2 1)
        [some 7070]).bind read).toOption.map fun s => s.media[1]?) =
        some (some ⟨1, "video".toList, 4002, some (.v4 10 0 0 5)⟩) := by
  decide +kernel

end BorderProxy.Sdp
