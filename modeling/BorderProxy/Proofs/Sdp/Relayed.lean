import BorderProxy.Proofs.Sdp.Redirected

/-! What a description says about its media once it is pointed at a relay. The sections stay as many and
of the same kinds; one with a relay port has that port, and where it had an address that names a host,
its own or the session's, it has the relay's address. -/

namespace BorderProxy

namespace RelayTarget

/-- The address that stands in the place of an address. -/
def facedIp (t : RelayTarget) (ip : Ip) : Ip := if ip.isUnspecified then ip else t.ip

theorem facedIp_of_specified (t : RelayTarget) {ip : Ip} (h : ip.isUnspecified = false) :
    t.facedIp ip = t.ip := by
  simp [facedIp, h]

theorem connection?_of_facedItem {t : RelayTarget} {l m : SdpLine} (h : m.item = t.facedItem l.item) :
    m.connection? = l.connection?.map t.facedIp := by
  unfold SdpLine.connection?
  rw [h]
  cases l.item <;> rfl

theorem lastConnection?_map {t : RelayTarget} {change : SdpLine → SdpLine}
    (h : ∀ l, (change l).item = t.facedItem l.item) (lines : List SdpLine) :
    Sdp.lastConnection? (lines.map change) = (Sdp.lastConnection? lines).map t.facedIp := by
  have hfilter : (lines.map change).filterMap SdpLine.connection? =
      (lines.filterMap SdpLine.connection?).map t.facedIp := by
    rw [List.filterMap_map, List.map_filterMap]
    exact List.filterMap_congr fun l _ => connection?_of_facedItem (h l)
  rw [Sdp.lastConnection?, hfilter, List.getLast?_map]
  rfl

/-- Every RTCP attribute of a relayed section names the port after the relay's. -/
theorem rtcpPort?_facedSection {t : RelayTarget} (ht : t.IsFit) (port : UInt16) (part : SdpSection) :
    ∀ l ∈ (t.facedSection port part).lines, l.item = .rtcp → l.rtcpPort? = some (nextPort port) := by
  intro l hl hitem
  obtain ⟨m, -, rfl⟩ := List.mem_map.mp hl
  obtain ⟨raw, item⟩ := m
  cases item with
  | rtcp => exact t.rtcpPort?_withContent ht (nextPort port) raw .rtcp
  | _ => cases hitem

end RelayTarget

namespace Sdp

variable (s : Sdp) (t : RelayTarget) (ports : List (Option UInt16))

theorem getElem?_media (i : Nat) :
    s.media[i]? = s.sections[i]?.map fun part => ⟨i, part.kind, part.port, s.connectionOf part⟩ := by
  rw [media, List.getElem?_map, List.getElem?_zipIdx, Option.map_map, Nat.zero_add]
  rfl

theorem getElem?_redirected (i : Nat) :
    (s.redirected t ports).sections[i]? =
      s.sections[i]?.map fun part => s.redirectedSection t ports part i := by
  rw [redirected, List.getElem?_map, List.getElem?_zipIdx, Option.map_map, Nat.zero_add]
  rfl

theorem kind_redirectedSection (part : SdpSection) (i : Nat) :
    (s.redirectedSection t ports part i).kind = part.kind := by
  unfold redirectedSection
  split
  · rfl
  · split
    · split <;> rfl
    · rfl

/-- The sections are as many as before, and of the same kinds. -/
theorem kinds_redirected :
    (s.redirected t ports).media.map (·.kind) = s.media.map (·.kind) := by
  refine List.ext_getElem? fun i => ?_
  rw [List.getElem?_map, List.getElem?_map, getElem?_media, getElem?_media, getElem?_redirected,
    Option.map_map, Option.map_map, Option.map_map]
  refine congrArg (Option.map · _) (funext fun part => ?_)
  exact s.kind_redirectedSection t ports part i

variable {s ports}

theorem exists_sharedLine? {ip : Ip} (h : lastConnection? s.session = some ip)
    (hip : ip.isUnspecified = false) : ∃ line, s.sharedLine? = some line := by
  obtain ⟨l, hl, hconnection⟩ := List.mem_filterMap.mp (List.mem_of_getLast? h)
  have hitem : l.item = .connection ip := by
    unfold SdpLine.connection? at hconnection
    split at hconnection
    · rename_i ip' hitem
      rw [hitem, Option.some.inj hconnection]
    · cases hconnection
  cases hshared : s.sharedLine? with
  | some line => exact ⟨line, rfl⟩
  | none =>
      rw [sharedLine?, List.getLast?_eq_none_iff, List.filter_eq_nil_iff] at hshared
      exact absurd (by simp [hitem, hip]) (hshared l hl)

/-- Where a relayed section depends on the session's address, the session names the relay. -/
theorem lastConnection?_session_redirected {part : SdpSection} {i : Nat} {port : UInt16} {ip : Ip}
    (hpart : s.sections[i]? = some part) (hport : portOf ports i = some port)
    (hnone : lastConnection? part.lines = none) (hip : lastConnection? s.session = some ip)
    (hspec : ip.isUnspecified = false) :
    lastConnection? (s.redirected t ports).session = some t.ip := by
  obtain ⟨line, hline⟩ := exists_sharedLine? hip hspec
  have hrelayed : (s.relayedLine? ports).isSome = true := by
    rw [relayedLine?, if_pos, hline]
    · rfl
    · rw [List.any_eq_true]
      refine ⟨(part, i), ?_, by simp [SdpSection.inherits, hnone, hport]⟩
      rw [List.mem_zipIdx_iff_getElem?]
      exact hpart
  rw [redirected]
  dsimp only
  rw [if_pos hrelayed, RelayTarget.lastConnection?_map (t := t) (fun _ => rfl), hip, Option.map_some,
    t.facedIp_of_specified hspec]

/-- A relayed section that had an address which names a host is received at the relay. -/
theorem connectionOf_redirected {part : SdpSection} {i : Nat} {port : UInt16} {ip : Ip}
    (hpart : s.sections[i]? = some part) (hport : portOf ports i = some port)
    (hip : s.connectionOf part = some ip) (hspec : ip.isUnspecified = false) :
    (s.redirected t ports).connectionOf (t.facedSection port part) = some t.ip := by
  have hlines : lastConnection? (t.facedSection port part).lines =
      (lastConnection? part.lines).map t.facedIp :=
    RelayTarget.lastConnection?_map (fun _ => rfl) part.lines
  rw [connectionOf] at hip ⊢
  rw [hlines]
  cases hown : lastConnection? part.lines with
  | some own =>
      rw [hown, Option.some_or, Option.some.injEq] at hip
      rw [hip, Option.map_some, Option.some_or, t.facedIp_of_specified hspec]
  | none =>
      rw [hown, Option.none_or] at hip
      rw [Option.map_none, Option.none_or]
      exact lastConnection?_session_redirected t hpart hport hown hip hspec

end Sdp

end BorderProxy
