import BorderProxy.Proofs.Field.Stamp
import BorderProxy.Proofs.Message.Places

/-! The source of a message, noted in its topmost Via. What is noted once is not noted again, nothing but the
topmost Via is touched, and of that the parameters keep the values that they have. The sender stays where the value
names one; where it names none, a parameter can be taken for it, which the note then changes. -/

namespace BorderProxy

namespace Via

open Text

/-- There is an "rport" that waits for its value. -/
def WaitsForPort (via : Text) : Prop := ∃ piece ∈ (splitOn ';' via).drop 1, isOpenRport piece = true

/-- The source is to be noted: the value names a sender, and an "rport" waits for the port of the source, or the
sender is not the source and no "received" stands there yet. -/
def AsksForSource (source : Endpoint) (via : Text) : Prop :=
  ∃ host port, sentBy? via = some (host, port) ∧
    (WaitsForPort via ∨ param? via "received".toList = none ∧ Ip.readHost host ≠ some source.ip)

theorem isSome_stamp?_iff (source : Endpoint) (via : Text) :
    (stamp? source via).isSome ↔ AsksForSource source via := by
  unfold stamp?
  constructor
  · intro hsome
    obtain ⟨stamped, hstamp⟩ := Option.isSome_iff_exists.mp hsome
    obtain ⟨⟨host, port⟩, hsent, hnote⟩ := Option.bind_eq_some_iff.mp hstamp
    dsimp only at hnote
    split at hnote
    · rename_i hasks
      rw [Bool.or_eq_true, Bool.and_eq_true, bne_iff_ne, Option.isNone_iff_eq_none, List.any_eq_true] at hasks
      exact ⟨host, port, hsent, hasks.symm.imp_right And.symm⟩
    · cases hnote
  · rintro ⟨host, port, hsent, hasks⟩
    have hcond : (Ip.readHost host != some source.ip && (param? via "received".toList).isNone ||
        ((splitOn ';' via).drop 1).any isOpenRport) = true := by
      rw [Bool.or_eq_true, Bool.and_eq_true, bne_iff_ne, Option.isNone_iff_eq_none, List.any_eq_true]
      exact hasks.symm.imp_left And.symm
    rw [hsent, Option.bind_eq_bind, Option.bind_some]
    dsimp only
    rw [if_pos hcond]
    rfl

/-! Parameters that have a value. -/

theorem paramAmong?_filled_of_value (source : Endpoint) {name value : Text} (hne : value ≠ [])
    {pieces : List Text} (h : paramAmong? name pieces = some value) :
    paramAmong? name (pieces.map (filled source)) = some value := by
  induction pieces with
  | nil => cases h
  | cons piece rest ih =>
      rw [paramAmong?_cons] at h
      rw [List.map_cons, paramAmong?_cons, sameLetters_filled]
      split at h
      · rename_i hname
        have hclosed : ¬ isOpenRport piece = true := by
          intro hopen
          rw [readParam_of_isOpenRport hopen] at h
          exact hne (Option.some.inj h).symm
        rw [if_pos hname, filled, if_neg hclosed, h]
      · rename_i hname
        rw [if_neg hname, ih h]

/-- What is read of the pieces behind the first one is read of them still, with what is noted behind. -/
theorem param?_stamped_of_filled (source : Endpoint) {via name value : Text}
    (hvalue : param? via name = some value)
    (hfilled : ∀ pieces, paramAmong? name pieces = some value →
      paramAmong? name (pieces.map (filled source)) = some value) :
    param? (stamped source via) name = some value := by
  cases hsent : sentBy? via with
  | none => rw [stamped_of_unread source hsent, hvalue]
  | some sender =>
      obtain ⟨first, rest, hvia, hstamped⟩ := pieces_stamped source (Option.isSome_of_mem hsent)
      rw [param?, hvia, List.drop_succ_cons, List.drop_zero] at hvalue
      rw [param?, hstamped, List.drop_succ_cons, List.drop_zero, paramAmong?_append, hfilled rest hvalue,
        Option.some_or]

theorem param?_stamped_of_value (source : Endpoint) {via name value : Text} (hne : value ≠ [])
    (h : param? via name = some value) : param? (stamped source via) name = some value :=
  param?_stamped_of_filled source h fun _ => paramAmong?_filled_of_value source hne

theorem received_stamped_of_received (source : Endpoint) {via value : Text}
    (h : param? via "received".toList = some value) :
    param? (stamped source via) "received".toList = some value :=
  param?_stamped_of_filled source h fun pieces hpieces => by
    rw [paramAmong?_filled (by decide), hpieces]

theorem param?_stamped_other (source : Endpoint) {via name : Text}
    (hrport : sameLetters "rport".toList name = false) (hreceived : sameLetters "received".toList name = false) :
    param? (stamped source via) name = param? via name := by
  rw [stamped]
  cases hstamp : stamp? source via with
  | none => rfl
  | some value => exact param?_stamp? hstamp hrport hreceived

/-! Once is enough. -/

theorem not_waitsForPort_stamped (source : Endpoint) {via : Text} (h : (sentBy? via).isSome) :
    ¬ WaitsForPort (stamped source via) := by
  obtain ⟨first, rest, -, hstamped⟩ := pieces_stamped source h
  rintro ⟨piece, hmem, hopen⟩
  rw [hstamped, List.drop_succ_cons, List.drop_zero] at hmem
  have hread := readParam_of_isOpenRport hopen
  rcases List.mem_append.mp hmem with hmem | hmem
  · obtain ⟨old, -, rfl⟩ := List.mem_map.mp hmem
    unfold filled at hopen hread
    split at hread
    · rw [readParam_rport] at hread
      exact (isWord_decimal _).1 (Prod.mk.inj hread).2
    · rename_i hclosed
      rw [if_neg hclosed] at hopen
      exact hclosed hopen
  · rw [eq_of_mem_noted hmem, readParam_received] at hread
    exact Ip.text_ne_nil source.ip (Prod.mk.inj hread).2

/-- A value with its source noted asks for it no more. -/
theorem not_asksForSource_stamped (source : Endpoint) (via : Text) :
    ¬ AsksForSource source (stamped source via) := by
  rintro ⟨host, port, hagain, hasks⟩
  cases hsent : sentBy? via with
  | none =>
      rw [stamped_of_unread source hsent, hsent] at hagain
      cases hagain
  | some sender =>
      obtain ⟨host', port'⟩ := sender
      rcases hasks with hwaits | ⟨hnone, hhost⟩
      · exact not_waitsForPort_stamped source (Option.isSome_of_mem hsent) hwaits
      · -- A "received" stays, and without one the sender was the source, which is named still.
        cases hreceived : param? via "received".toList with
        | some value =>
            rw [received_stamped_of_received source hreceived] at hnone
            cases hnone
        | none =>
            rw [received_stamped source hsent hreceived] at hnone
            obtain hsource : Ip.readHost host' = some source.ip := by
              by_contra hforeign
              rw [if_neg hforeign] at hnone
              cases hnone
            rw [sentBy?_stamped source hsent hsource] at hagain
            obtain ⟨rfl, -⟩ := Prod.mk.inj (Option.some.inj hagain)
            exact hhost hsource

theorem stamp?_stamped (source : Endpoint) (via : Text) : stamp? source (stamped source via) = none := by
  by_contra hsome
  exact not_asksForSource_stamped source via
    ((isSome_stamp?_iff source _).mp (Option.isSome_iff_ne_none.mpr hsome))

/-- Where the sender was read out of an "rport", one that is read afterwards stands in another piece. -/
theorem sender_stamped_of_readsRport (source : Endpoint) {via : Text} (h : readsRport via = true)
    (hsome : (sentBy? via).isSome) {sender : Text × Option UInt16}
    (hsender : sentBy? (stamped source via) = some sender) :
    ∃ piece ∈ (splitOn ';' via).drop 1, isOpenRport piece = false ∧
      ∃ part, behindBlank? piece = some part ∧ readSender (trim part) = some sender := by
  obtain ⟨first, rest, hvia, hstamped⟩ := pieces_stamped source hsome
  have htrim := splitOn_trimStart (by decide) hvia
  rw [readsRport, htrim, Bool.and_eq_true, Option.isNone_iff_eq_none] at h
  rw [sentBy?_eq, splitOn_trimStart (by decide) hstamped, senderAmong?_cons_of_none h.1] at hsender
  obtain ⟨part, hpart, hread⟩ := Option.bind_eq_some_iff.mp hsender
  obtain ⟨piece, hpiece, hbehind⟩ := senderPiece?_of_senderAmong? hpart
  rw [hvia, List.drop_succ_cons, List.drop_zero]
  rcases List.mem_append.mp (List.mem_of_find?_eq_some hpiece) with hmem | hmem
  · obtain ⟨old, hold, rfl⟩ := List.mem_map.mp hmem
    rw [behindBlank?_filled] at hbehind
    obtain ⟨hclosed, hbehind⟩ := Option.ite_none_left_eq_some.mp hbehind
    exact ⟨old, hold, Bool.eq_false_iff.mpr hclosed, part, hbehind, hread⟩
  · rw [eq_of_mem_noted hmem, behindBlank?_of_words (by decide) (Ip.isWord_text _)] at hbehind
    cases hbehind

/-- A value is written with a protocol of one word and, behind blanks, with a sender in front of the first
semicolon. -/
def IsWritten (via sender : Text) : Prop :=
  ∃ front protocol b rest, via = front ++ protocol ++ b :: rest ∧ (∀ c ∈ front, isBlank c = true) ∧
    IsWord protocol ∧ ';' ∉ protocol ∧ isBlank b = true ∧ trim (rest.takeWhile (· != ';')) = sender ∧ sender ≠ []

/-- The sender of a value that is written so is read, and out of no parameter. -/
theorem sentBy?_of_isWritten {via sender : Text} (h : IsWritten via sender) :
    sentBy? via = readSender sender ∧ readsRport via = false := by
  obtain ⟨front, protocol, b, rest, rfl, hfront, hprotocol, hmark, hb, rfl, hsender⟩ := h
  obtain ⟨c, cs, rfl⟩ := List.exists_cons_of_ne_nil hprotocol.1
  have hstart : trimStart (front ++ (c :: cs) ++ b :: rest) = (c :: cs) ++ b :: rest := by
    rw [trimStart, List.append_assoc, List.dropWhile_append_of_pos hfront, List.cons_append,
      List.dropWhile_cons_of_neg (by rw [hprotocol.2 c List.mem_cons_self]; decide)]
  have hbehind : ∀ rest, behindBlank? ((c :: cs) ++ b :: rest) = some rest := fun rest => by
    rw [behindBlank?, cutWhere?_append hb hprotocol.2]
    rfl
  constructor
  · have hsome : ¬ rest.all isBlank = true := fun hall =>
      hsender (trim_of_blanks fun d hd => List.all_eq_true.mp hall d (List.takeWhile_subset _ hd))
    rw [sentBy?_eq, senderAmong?_splitOn, hstart, hbehind, Option.bind_some, if_neg hsome, Option.bind_some]
  · obtain ⟨first, pieces, hpieces⟩ :=
      List.exists_cons_of_ne_nil (splitWhere_ne_nil (· == ';') ((c :: cs) ++ b :: rest))
    rw [← splitOn] at hpieces
    have hhead := headD_splitOn ';' ((c :: cs) ++ b :: rest)
    have hpos : ∀ d ∈ c :: cs, (d != ';') = true := fun d hd => bne_iff_ne.mpr fun heq => hmark (heq ▸ hd)
    rw [hpieces, List.headD_cons, List.takeWhile_append_of_pos hpos,
      List.takeWhile_cons_of_pos (p := (· != ';')) (ne_semicolon_of_isBlank hb)] at hhead
    rw [readsRport, hstart, hpieces, hhead]
    dsimp only
    rw [hbehind]
    rfl

/-- What becomes of a value when its source is noted in it. -/
structure NotedIn (source : Endpoint) (via : Text) : Prop where
  /-- Piece by piece each "rport" that waits gets the port, all others stay, and behind them stands the rest of
  the note. -/
  pieces : (sentBy? via).isSome → ∃ first rest, splitOn ';' via = first :: rest ∧
    splitOn ';' (stamped source via) = first :: (rest.map (filled source) ++ noted source via)
  /-- Parameters with other names stay as they are. -/
  others : ∀ name, sameLetters "rport".toList name = false → sameLetters "received".toList name = false →
    param? (stamped source via) name = param? via name
  /-- A parameter that has a value keeps it, whatever its name. -/
  values : ∀ name value, param? via name = some value → value ≠ [] →
    param? (stamped source via) name = some value
  /-- The first "rport" has the port of the source, if it waited for its value. -/
  rport : ∀ piece, (sentBy? via).isSome → ((splitOn ';' via).drop 1).find? isRport = some piece →
    isOpenRport piece = true → param? (stamped source via) "rport".toList = some (decimal source.port.toNat)
  /-- Where the sender is not the source and there was no "received", it is the address of the source. -/
  received : ∀ host port, sentBy? via = some (host, port) → param? via "received".toList = none →
    Ip.readHost host ≠ some source.ip →
      param? (stamped source via) "received".toList = some source.ip.text
  /-- The sender stays, unless it is read out of an "rport" that waits for its value. -/
  sender : readsRport via = false → sentBy? (stamped source via) = sentBy? via
  /-- The sender of a value that is written with a protocol of one word and a sender is read, and stays. -/
  sender_written : ∀ sender, IsWritten via sender →
    sentBy? via = readSender sender ∧ sentBy? (stamped source via) = readSender sender
  /-- A sender that is read out of an "rport" is that name or the empty one, and it is read from there no more. -/
  sender_lost : readsRport via = true → ∀ host port, sentBy? via = some (host, port) →
    ((host = [] ∨ sameLetters host "rport".toList = true) ∧ port = none) ∧
      ∀ after, sentBy? (stamped source via) = some after →
        ∃ piece ∈ (splitOn ';' via).drop 1, isOpenRport piece = false ∧
          ∃ part, behindBlank? piece = some part ∧ readSender (trim part) = some after

theorem notedIn (source : Endpoint) (via : Text) : NotedIn source via where
  pieces := pieces_stamped source
  others _ := param?_stamped_other source
  values _ _ hvalue hne := param?_stamped_of_value source hne hvalue
  rport _ := rport_stamped_of_first source
  received host port hsent hnone hforeign := by
    rw [received_stamped source hsent hnone, if_neg hforeign]
  sender := sentBy?_stamped_of_not_readsRport source
  sender_written _ hwritten := by
    obtain ⟨hread, hreads⟩ := sentBy?_of_isWritten hwritten
    exact ⟨hread, (sentBy?_stamped_of_not_readsRport source hreads).trans hread⟩
  sender_lost hreads _ _ hsent := ⟨sender_of_readsRport hreads hsent, fun _ =>
    sender_stamped_of_readsRport source hreads (Option.isSome_of_mem hsent)⟩

end Via

namespace Headers

/-- The source is noted in the fields of a message at most once, and in the topmost Via only. -/
structure NotedOnce (source : Endpoint) (hs : Headers) : Prop where
  /-- There is nothing to note where the source is noted, and nothing changes. -/
  again : (hs.stamp source).stamp? source = none ∧ (hs.stamp source).stamp source = hs.stamp source
  /-- The source is noted exactly if there is a topmost Via that asks for it. -/
  noted_iff : (hs.stamp? source).isSome ↔ ∃ via, hs.topVia? = some via ∧ Via.AsksForSource source via
  /-- Where it is not noted, nothing changes. -/
  unnoted : hs.stamp? source = none → hs.stamp source = hs
  /-- All fields stand as before with the topmost Via changed, and nothing is changed without one. -/
  topmost : hs.Lacks .via ∧ hs.stamp source = hs ∨
    ∃ (front : Headers) (via : Text) (back : Headers),
      hs = front ++ .of .via via :: back ∧ front.Lacks .via ∧
        hs.stamp source = front ++ .of .via (Via.stamped source via) :: back
  /-- What becomes of the topmost Via. -/
  top : ∀ via, hs.topVia? = some via → Via.NotedIn source via

/-- A field of a name is written with the name and its value. -/
theorem eq_of_isNamed {name : StandardName} {h : Header} (hname : h.isNamed name = true) :
    h = .of name h.value := by
  rw [Header.isNamed, beq_iff_eq] at hname
  rw [Header.of, ← hname]

theorem stamp_of_unnoted {source : Endpoint} {hs : Headers} (h : hs.stamp? source = none) :
    hs.stamp source = hs := by
  rw [stamp, h]
  rfl

theorem notedOnce_of_lacks (source : Endpoint) {hs : Headers} (h : hs.Lacks .via) : hs.NotedOnce source := by
  have htop : hs.topVia? = none := h.value?_eq
  have hstamp : hs.stamp? source = none := by
    rw [stamp?, htop]
    rfl
  have hsame := stamp_of_unnoted hstamp
  refine ⟨?_, ?_, fun _ => hsame, .inl ⟨h, hsame⟩, fun via _ => Via.notedIn source via⟩
  · rw [hsame]
    exact ⟨hstamp, hsame⟩
  · rw [hstamp, htop]
    simp

section First

variable (source : Endpoint) {front : Headers} (hfront : front.Lacks .via) (via : Text) (back : Headers)

include hfront

theorem topVia?_first : (front ++ .of .via via :: back).topVia? = some via :=
  value?_first hfront (isNamed_of_self .via via) back

theorem stamp?_first :
    (front ++ .of .via via :: back).stamp? source =
      (Via.stamp? source via).map fun value => front ++ .of .via value :: back := by
  have hname := isNamed_of_self .via via
  rw [stamp?, topVia?_first hfront, Option.bind_eq_bind, Option.bind_some]
  cases Via.stamp? source via with
  | none => rfl
  | some value => exact congrArg some (replaceFirst_first hfront hname back value)

theorem stamp_first :
    (front ++ .of .via via :: back).stamp source = front ++ .of .via (Via.stamped source via) :: back := by
  rw [stamp, stamp?_first source hfront, Via.stamped]
  cases Via.stamp? source via <;> rfl

theorem notedOnce_first : (front ++ .of .via via :: back : Headers).NotedOnce source := by
  have hagain : (front ++ .of .via (Via.stamped source via) :: back : Headers).stamp? source = none := by
    rw [stamp?_first source hfront, Via.stamp?_stamped, Option.map_none]
  refine ⟨?_, ?_, stamp_of_unnoted, .inr ⟨front, via, back, rfl, hfront, stamp_first source hfront via back⟩,
    fun via _ => Via.notedIn source via⟩
  · rw [stamp_first source hfront]
    exact ⟨hagain, stamp_of_unnoted hagain⟩
  · rw [stamp?_first source hfront, topVia?_first hfront, Option.isSome_map, Via.isSome_stamp?_iff]
    exact ⟨fun hasks => ⟨via, rfl, hasks⟩, fun ⟨_, hsame, hasks⟩ => Option.some.inj hsame ▸ hasks⟩

end First

/-- The source of a message is noted once at most, exactly if the topmost Via asks for it, and nothing but that
Via is changed. Its parameters keep their values, and get the source where they wait for it; its sender stays as
far as it is not read out of a parameter. -/
theorem stamp_notes_once (source : Endpoint) (hs : Headers) : hs.NotedOnce source := by
  rcases lacks_or_first .via hs with hnone | ⟨front, h, back, rfl, hfront, hname⟩
  · exact notedOnce_of_lacks source hnone
  · rw [eq_of_isNamed hname]
    exact notedOnce_first source hfront h.value back

/-- A value that names no sender, with an "rport" behind a blank. -/
def senderless : Text := "SIP/2.0/UDP; rport".toList

/-- A value with blanks inside of its protocol. -/
def spaced : Text := "SIP / 2.0 / UDP 192.0.2.9".toList

/-- The first blank of a value is taken for the end of its protocol, wherever it stands. So the "rport" is read as
the sender of the first value, is filled in, and then no sender is read; and the second value, which names its
source as the sender, gets a "received". -/
theorem senders_misread :
    (Via.sentBy? senderless = some ("rport".toList, none) ∧
        stamp? ⟨.v4 192 0 2 9, 5060⟩ [.of .via senderless] =
          some [.of .via "SIP/2.0/UDP;rport=5060;received=192.0.2.9".toList] ∧
        Via.sentBy? "SIP/2.0/UDP;rport=5060;received=192.0.2.9".toList = none) ∧
      Via.sentBy? spaced = some ("/ 2.0 / UDP 192.0.2.9".toList, none) ∧
        stamp? ⟨.v4 192 0 2 9, 5060⟩ [.of .via spaced] =
          some [.of .via "SIP / 2.0 / UDP 192.0.2.9;received=192.0.2.9".toList] := by
  decide +kernel

end Headers

end BorderProxy
