import BorderProxy.Proofs.Address.Letters
import BorderProxy.Proofs.Field.Via
import BorderProxy.Proofs.Text.Trimming

/-! Where an answer goes along a Via in which the source of its request was noted. The sender that a Via names
by an address is named so still, whatever its parameters say, and without a "received" of its own the Via then
leads to the source; with one "rport", which waits for its value, it leads to the port of the source. -/

namespace BorderProxy.Via

open Text

/-! The sender of a value, found by pieces. -/

/-- What follows the first blank of a text. -/
def behindBlank? (t : Text) : Option Text := (cutWhere? isBlank t).map (·.2)

/-- The piece that names a sender: the first one with a blank. -/
def senderPiece? (pieces : List Text) : Option Text := pieces.find? fun piece => (behindBlank? piece).isSome

/-- What a value of these pieces names its sender by: it stands behind the first blank. A value where nothing
but blanks follows there names none. -/
def senderAmong? : List Text → Option Text
  | [] => none
  | piece :: rest =>
    match behindBlank? piece with
    | none => senderAmong? rest
    | some part => if rest.isEmpty && part.all isBlank then none else some part

theorem behindBlank?_of_isBlank {c : Char} (h : isBlank c = true) (t : Text) :
    behindBlank? (c :: t) = some t := by
  rw [behindBlank?, cutWhere?, if_pos h]
  rfl

theorem behindBlank?_of_not {c : Char} (h : isBlank c = false) (t : Text) :
    behindBlank? (c :: t) = behindBlank? t := by
  rw [behindBlank?, cutWhere?, if_neg (Bool.eq_false_iff.mp h), Option.map_map]
  rfl

theorem senderAmong?_cons_of_none {piece : Text} (h : behindBlank? piece = none) (rest : List Text) :
    senderAmong? (piece :: rest) = senderAmong? rest := by
  rw [senderAmong?, h]

theorem senderAmong?_cons_of_some {piece part : Text} (h : behindBlank? piece = some part)
    (rest : List Text) :
    senderAmong? (piece :: rest) = if rest.isEmpty && part.all isBlank then none else some part := by
  rw [senderAmong?, h]

theorem ne_semicolon_of_isBlank {c : Char} (h : isBlank c = true) : (c != ';') = true := by
  rw [bne_iff_ne]
  rintro rfl
  cases h

/-- A text consists of blanks if it is a single piece of blanks. -/
theorem all_isBlank_of_splitOn {t piece : Text} {pieces : List Text} (h : splitOn ';' t = piece :: pieces) :
    t.all isBlank = (pieces.isEmpty && piece.all isBlank) := by
  have hjoin := join_splitOn ';' t
  rw [h] at hjoin
  cases pieces with
  | nil => rw [← hjoin, List.isEmpty_nil, Bool.true_and, join]
  | cons next rest =>
      have hmark : isBlank ';' = false := by decide
      rw [← hjoin, join_cons_cons]
      simp [hmark]

/-- The pieces tell the sender as the whole text does. -/
theorem senderAmong?_splitOn (t : Text) :
    senderAmong? (splitOn ';' t) =
      (behindBlank? t).bind fun rest => if rest.all isBlank then none else some (rest.takeWhile (· != ';')) := by
  induction t with
  | nil => rfl
  | cons c cs ih =>
      obtain ⟨piece, pieces, hpieces⟩ := List.exists_cons_of_ne_nil (splitWhere_ne_nil (· == ';') cs)
      have hall := all_isBlank_of_splitOn (t := cs) hpieces
      have hhead := headD_splitOn ';' cs
      rw [splitOn] at ih hhead ⊢
      by_cases hsemicolon : c = ';'
      · subst hsemicolon
        rw [behindBlank?_of_not (by decide), ← ih, splitWhere, if_pos (by decide)]
        rfl
      · rw [splitWhere, if_neg (by simpa using hsemicolon), hpieces]
        rw [hpieces] at ih hhead
        cases hblank : isBlank c with
        | true =>
            rw [senderAmong?_cons_of_some (behindBlank?_of_isBlank hblank piece),
              behindBlank?_of_isBlank hblank, Option.bind_some, hall, ← hhead, List.headD_cons]
        | false =>
            have hnot := behindBlank?_of_not hblank
            rw [hnot, ← ih, senderAmong?, senderAmong?, hnot]

/-- The sender is read from what the pieces of the value name it by. -/
theorem sentBy?_eq (via : Text) :
    sentBy? via = (senderAmong? (splitOn ';' (trimStart via))).bind fun part => readSender (trim part) := by
  obtain ⟨blanks, hblanks, hwhole⟩ := exists_trimEnd_append (trimStart via)
  have htrim : trim via = trimEnd (trimStart via) := rfl
  rw [senderAmong?_splitOn]
  cases hcut : cutWhere? isBlank (trim via) with
  | none =>
      -- The first blank, if there is one, begins the blanks at the end.
      have hword := cutWhere?_eq_none_iff.mp hcut
      rw [htrim] at hword
      rw [sentBy?, hcut, behindBlank?, hwhole]
      cases blanks with
      | nil =>
          rw [List.append_nil, cutWhere?_eq_none_iff.mpr hword]
          rfl
      | cons b rest =>
          have hrest : rest.all isBlank = true :=
            List.all_eq_true.mpr fun c hc => hblanks c (List.mem_cons_of_mem _ hc)
          rw [cutWhere?_append (hblanks b List.mem_cons_self) hword, Option.map_some, Option.bind_some,
            if_pos hrest]
          rfl
  | some parts =>
      obtain ⟨protocol, rest⟩ := parts
      obtain ⟨b, hparts, hb, hprotocol⟩ := cutWhere?_eq_some hcut
      have hsplit := hwhole
      rw [← htrim, hparts, List.append_assoc, List.cons_append] at hsplit
      -- What is left by trimming has more than blanks behind the first one.
      have hsome : (rest ++ blanks).all isBlank ≠ true := by
        intro hall
        have htail : ∀ c ∈ b :: (rest ++ blanks), isBlank c = true :=
          List.forall_mem_cons.mpr ⟨hb, List.all_eq_true.mp hall⟩
        obtain ⟨back, -, hback⟩ := exists_trimEnd_append protocol
        have hmem : b ∈ protocol := by
          rw [hback, ← trimEnd_append_blanks htail, ← hsplit, ← htrim, hparts]
          simp
        rw [hprotocol b hmem] at hb
        cases hb
      rw [behindBlank?, hsplit, cutWhere?_append hb hprotocol, Option.map_some, Option.bind_some, if_neg hsome,
        Option.bind_some, sentBy?, hcut, ← trim_takeWhile_trim fun _ => ne_semicolon_of_isBlank,
        trim_append_blanks hblanks, ← headD_splitOn]
      rfl

/-! The sender once the source is noted. -/

/-- A text without brackets, points and colons, which names no address and no port. -/
def IsPlain (t : Text) : Prop := '[' ∉ t ∧ '.' ∉ t ∧ ':' ∉ t

theorem readSender_of_isPlain {t : Text} (h : IsPlain t) : readSender t = some (t, none) := by
  unfold readSender
  split
  · exact absurd List.mem_cons_self h.1
  · rw [cutLast?_of_not_mem h.2.2]

theorem readHost_of_isPlain {t : Text} (h : IsPlain t) : Ip.readHost t = none := by
  unfold Ip.readHost
  split
  · exact absurd List.mem_cons_self h.1
  · exact Ip.read_of_not_mem h.2.1 h.2.2

/-- No letter of "rport" is a mark of an address. -/
theorem isPlain_of_rport {t : Text} (h : t = [] ∨ sameLetters t "rport".toList = true) : IsPlain t := by
  have hnot : ∀ {c : Char}, c.toLower ∉ lower "rport".toList → c ∉ t := by
    intro c hc hmem
    rcases h with rfl | h
    · cases hmem
    · rw [sameLetters, beq_iff_eq] at h
      exact hc (h ▸ List.mem_map_of_mem hmem)
  exact ⟨hnot (by decide), hnot (by decide), hnot (by decide)⟩

theorem isWord_of_sameLetters {t : Text} (h : sameLetters t "rport".toList = true) : IsWord t := by
  have hword : IsWord "rport".toList := by decide
  have hlower : lower t = "rport".toList := (beq_iff_eq.mp h).trans (by decide)
  refine ⟨?_, fun c hc => ?_⟩
  · rintro rfl
    cases hlower
  · have hletter : c.toLower ∈ "rport".toList := hlower ▸ List.mem_map_of_mem hc
    rw [← toLower_invariant isBlank (by decide) c]
    exact hword.2 _ hletter

/-- Behind a blank of an "rport" that waits for its value stands the name or nothing. -/
theorem trim_behindBlank?_of_isOpenRport {piece part : Text} (hopen : isOpenRport piece = true)
    (hpart : behindBlank? piece = some part) : trim part = [] ∨ sameLetters (trim part) "rport".toList = true := by
  have hword := isWord_of_sameLetters hopen
  obtain ⟨front, back, hfront, hback, hwhole⟩ := exists_trim_append piece
  rw [hwhole] at hpart
  cases front with
  | nil =>
      cases back with
      | nil =>
          rw [List.nil_append, List.append_nil, behindBlank?, cutWhere?_eq_none_iff.mpr hword.2] at hpart
          cases hpart
      | cons b back =>
          rw [List.nil_append, behindBlank?, cutWhere?_append (hback b List.mem_cons_self) hword.2] at hpart
          obtain rfl := Option.some.inj hpart
          exact .inl (trim_of_blanks fun c hc => hback c (List.mem_cons_of_mem _ hc))
  | cons b front =>
      rw [List.cons_append, List.cons_append, behindBlank?_of_isBlank (hfront b List.mem_cons_self)] at hpart
      obtain rfl := Option.some.inj hpart
      rw [trim_append_blanks hback, trim_blanks_append fun c hc => hfront c (List.mem_cons_of_mem _ hc),
        trim_of_isWord hword]
      exact .inr hopen

theorem senderPiece?_cons_of_none {piece : Text} (h : behindBlank? piece = none) (rest : List Text) :
    senderPiece? (piece :: rest) = senderPiece? rest :=
  List.find?_cons_of_neg (by rw [h]; decide)

theorem senderPiece?_cons_of_some {piece part : Text} (h : behindBlank? piece = some part)
    (rest : List Text) : senderPiece? (piece :: rest) = some piece :=
  List.find?_cons_of_pos (by rw [h]; rfl)

theorem senderPiece?_of_senderAmong? {pieces : List Text} {part : Text} (h : senderAmong? pieces = some part) :
    ∃ piece, senderPiece? pieces = some piece ∧ behindBlank? piece = some part := by
  induction pieces with
  | nil => cases h
  | cons piece rest ih =>
      cases hbehind : behindBlank? piece with
      | none =>
          rw [senderAmong?_cons_of_none hbehind] at h
          rw [senderPiece?_cons_of_none hbehind]
          exact ih h
      | some found =>
          rw [senderAmong?_cons_of_some hbehind] at h
          obtain ⟨-, hfound⟩ := Option.ite_none_left_eq_some.mp h
          obtain rfl := Option.some.inj hfound
          exact ⟨piece, senderPiece?_cons_of_some hbehind rest, hbehind⟩

/-- The first piece that has a blank names the sender as long as at least as many pieces follow it. -/
theorem senderAmong?_cons_congr {piece part : Text} (hbehind : (behindBlank? piece).isSome)
    {rest rest' : List Text} (hrest : rest'.isEmpty = true → rest.isEmpty = true)
    (h : senderAmong? (piece :: rest) = some part) : senderAmong? (piece :: rest') = some part := by
  obtain ⟨found, hfound⟩ := Option.isSome_iff_exists.mp hbehind
  rw [senderAmong?_cons_of_some hfound] at h ⊢
  obtain ⟨hlong, hpart⟩ := Option.ite_none_left_eq_some.mp h
  refine (if_neg fun hblank => hlong ?_).trans hpart
  rw [Bool.and_eq_true] at hblank ⊢
  exact ⟨hrest hblank.1, hblank.2⟩

theorem behindBlank?_of_words {a b : Text} (ha : IsWord a) (hb : IsWord b) : behindBlank? (a ++ b) = none := by
  rw [behindBlank?, Option.map_eq_none_iff, cutWhere?_eq_none_iff]
  intro c hc
  exact (List.mem_append.mp hc).elim (ha.2 c) (hb.2 c)

/-- No sender is read out of an "rport" that has the source port. -/
theorem behindBlank?_filled (source : Endpoint) (piece : Text) :
    behindBlank? (filled source piece) = if isOpenRport piece then none else behindBlank? piece := by
  unfold filled
  split
  · exact behindBlank?_of_words (by decide) (isWord_decimal _)
  · rfl

/-- Filling in the source port leaves the sender, unless it is read from such an "rport". -/
theorem senderAmong?_filled (source : Endpoint) {pieces : List Text} (tail : List Text) {part : Text}
    (h : senderAmong? pieces = some part) (hpiece : (senderPiece? pieces).any isOpenRport = false) :
    senderAmong? (pieces.map (filled source) ++ tail) = some part := by
  induction pieces with
  | nil => cases h
  | cons piece rest ih =>
      rw [List.map_cons, List.cons_append]
      cases hbehind : behindBlank? piece with
      | none =>
          have hfilled : behindBlank? (filled source piece) = none := by
            rw [behindBlank?_filled, hbehind, ite_self]
          rw [senderAmong?_cons_of_none hbehind] at h
          rw [senderPiece?_cons_of_none hbehind] at hpiece
          rw [senderAmong?_cons_of_none hfilled]
          exact ih h hpiece
      | some found =>
          rw [senderPiece?_cons_of_some hbehind, Option.any_some] at hpiece
          rw [filled, hpiece, if_neg Bool.false_ne_true]
          refine senderAmong?_cons_congr (Option.isSome_of_mem hbehind) (fun hempty => ?_) h
          simpa using (List.append_eq_nil_iff.mp (List.isEmpty_iff.mp hempty)).1

/-- A value with the source noted in it, if there is anything to note. -/
def stamped (source : Endpoint) (via : Text) : Text := (stamp? source via).getD via

/-- Where nothing is noted, nothing waits for the source port and nothing is to be added. -/
theorem pieces_stamped (source : Endpoint) {via : Text} (h : (sentBy? via).isSome) :
    ∃ first rest, splitOn ';' via = first :: rest ∧
      splitOn ';' (stamped source via) = first :: (rest.map (filled source) ++ noted source via) := by
  rw [stamped]
  cases hstamp : stamp? source via with
  | some value => exact pieces_of_stamp? hstamp
  | none =>
      obtain ⟨first, rest, hpieces⟩ := List.exists_cons_of_ne_nil (splitWhere_ne_nil (· == ';') via)
      rw [← splitOn] at hpieces
      obtain ⟨⟨host, port⟩, hsent⟩ := Option.isSome_iff_exists.mp h
      have hquiet : noted source via = [] ∧ rest.any isOpenRport = false := by
        rw [stamp?, hsent, Option.bind_eq_bind, Option.bind_some, hpieces] at hstamp
        dsimp only at hstamp
        split at hstamp
        · cases hstamp
        · rename_i hnothing
          rw [Bool.not_eq_true, Bool.or_eq_false_iff] at hnothing
          refine ⟨?_, hnothing.2⟩
          rw [noted, hsent, Option.any_some, hnothing.1]
          rfl
      refine ⟨first, rest, hpieces, ?_⟩
      have hsame : rest.map (filled source) = rest := by
        refine (List.map_congr_left fun piece hpiece => ?_).trans (List.map_id rest)
        rw [filled, if_neg (by simpa using List.any_eq_false.mp hquiet.2 piece hpiece)]
        rfl
      rw [Option.getD_none, hpieces, hquiet.1, hsame, List.append_nil]

theorem stamped_of_unread (source : Endpoint) {via : Text} (h : sentBy? via = none) :
    stamped source via = via := by
  rw [stamped, stamp?, h, Option.bind_eq_bind, Option.bind_none, Option.getD_none]

/-- Whether the sender is read out of an "rport" that waits for its value: the first piece has no blank but in
front, and of the others the first one with a blank is such an "rport". -/
def readsRport (via : Text) : Bool :=
  match splitOn ';' (trimStart via) with
  | [] => false
  | first :: rest => (behindBlank? first).isNone && (senderPiece? rest).any isOpenRport

/-- The sender stays, unless it is read out of an "rport" that waits for its value. -/
theorem sentBy?_stamped_of_not_readsRport (source : Endpoint) {via : Text} (h : readsRport via = false) :
    sentBy? (stamped source via) = sentBy? via := by
  cases hsent : sentBy? via with
  | none => rw [stamped_of_unread source hsent, hsent]
  | some sender =>
      obtain ⟨first, rest, hvia, hstamped⟩ := pieces_stamped source (Option.isSome_of_mem hsent)
      have htrim := splitOn_trimStart (by decide) hvia
      rw [sentBy?_eq, htrim] at hsent
      rw [readsRport, htrim] at h
      dsimp only at h
      rw [sentBy?_eq, splitOn_trimStart (by decide) hstamped]
      obtain ⟨part, hpart, hread⟩ := Option.bind_eq_some_iff.mp hsent
      have hstays : senderAmong? (trimStart first :: (rest.map (filled source) ++ noted source via)) =
          some part := by
        cases hfirst : behindBlank? (trimStart first) with
        | none =>
            rw [senderAmong?_cons_of_none hfirst] at hpart ⊢
            rw [hfirst] at h
            exact senderAmong?_filled source _ hpart h
        | some found =>
            refine senderAmong?_cons_congr (Option.isSome_of_mem hfirst) (fun hempty => ?_) hpart
            simpa using (List.append_eq_nil_iff.mp (List.isEmpty_iff.mp hempty)).1
      rw [hstays]
      exact hread

/-- A sender that is read out of an "rport" is that name, or the empty one, without a port. -/
theorem sender_of_readsRport {via host : Text} {port : Option UInt16} (h : readsRport via = true)
    (hsent : sentBy? via = some (host, port)) :
    (host = [] ∨ sameLetters host "rport".toList = true) ∧ port = none := by
  obtain ⟨first, rest, hpieces⟩ :=
    List.exists_cons_of_ne_nil (splitWhere_ne_nil (· == ';') (trimStart via))
  rw [← splitOn] at hpieces
  rw [readsRport, hpieces, Bool.and_eq_true, Option.isNone_iff_eq_none] at h
  obtain ⟨hfirst, hopen⟩ := h
  rw [sentBy?_eq, hpieces, senderAmong?_cons_of_none hfirst] at hsent
  obtain ⟨part, hpart, hread⟩ := Option.bind_eq_some_iff.mp hsent
  obtain ⟨piece, hpiece, hbehind⟩ := senderPiece?_of_senderAmong? hpart
  rw [hpiece, Option.any_some] at hopen
  have hname := trim_behindBlank?_of_isOpenRport hopen hbehind
  rw [readSender_of_isPlain (isPlain_of_rport hname)] at hread
  obtain ⟨rfl, rfl⟩ := Prod.mk.inj (Option.some.inj hread)
  exact ⟨hname, rfl⟩

/-- A value that names its sender by an address names it still once its source is noted. -/
theorem sentBy?_stamped (source : Endpoint) {via host : Text} {port : Option UInt16} {ip : Ip}
    (hsent : sentBy? via = some (host, port)) (hhost : Ip.readHost host = some ip) :
    sentBy? (stamped source via) = some (host, port) := by
  have hnot : readsRport via = false := by
    by_contra hreads
    obtain ⟨hname, -⟩ := sender_of_readsRport ((Bool.not_eq_false _).mp hreads) hsent
    rw [readHost_of_isPlain (isPlain_of_rport hname)] at hhost
    cases hhost
  rw [sentBy?_stamped_of_not_readsRport source hnot, hsent]

/-! The way back. -/

/-- Without a "received" of its own, a value has one once the source is noted in it, unless the source is the
sender. -/
theorem received_stamped (source : Endpoint) {via host : Text} {port : Option UInt16}
    (hsent : sentBy? via = some (host, port)) (hnone : param? via "received".toList = none) :
    param? (stamped source via) "received".toList =
      if Ip.readHost host = some source.ip then none else some source.ip.text := by
  obtain ⟨first, rest, hvia, hstamped⟩ := pieces_stamped source (Option.isSome_of_mem hsent)
  have hfilled : paramAmong? "received".toList (rest.map (filled source)) = none := by
    rw [paramAmong?_filled (by decide)]
    rwa [param?, hvia] at hnone
  rw [param?, hstamped, List.drop_succ_cons, List.drop_zero, paramAmong?_append, hfilled, Option.none_or,
    noted, hsent, hnone]
  by_cases hsource : Ip.readHost host = some source.ip
  · rw [if_pos hsource, Option.any_some, hsource, bne_self_eq_false]
    rfl
  · rw [if_neg hsource, Option.any_some, bne_iff_ne.mpr hsource, Option.isNone_none, Bool.and_self,
      if_pos rfl, paramAmong?_cons, readParam_received]
    exact if_pos (beq_self_eq_true _)

/-- Whether a piece is the parameter "rport", with a value or without. -/
def isRport (piece : Text) : Bool := sameLetters (readParam piece).1 "rport".toList

/-- A value with one "rport", which has no value. -/
def HasOpenRport (via : Text) : Prop :=
  ∃ piece, ((splitOn ';' via).drop 1).filter isRport = [piece] ∧ '=' ∉ piece

theorem isOpenRport_of_isRport {piece : Text} (hmark : '=' ∉ piece) (hname : isRport piece = true) :
    isOpenRport piece = true := by
  rw [isRport, readParam, cut?_eq_none_iff.mpr hmark] at hname
  exact hname

theorem rport_filled (source : Endpoint) {pieces : List Text} {piece : Text}
    (hfirst : pieces.find? isRport = some piece) (hopen : isOpenRport piece = true) :
    paramAmong? "rport".toList (pieces.map (filled source)) = some (decimal source.port.toNat) := by
  induction pieces with
  | nil => cases hfirst
  | cons p rest ih =>
      rw [List.map_cons, paramAmong?_cons, sameLetters_filled]
      by_cases hname : isRport p = true
      · rw [List.find?_cons_of_pos hname] at hfirst
        obtain rfl := Option.some.inj hfirst
        rw [filled, if_pos hopen, readParam_rport]
        exact if_pos hname
      · rw [List.find?_cons_of_neg hname] at hfirst
        exact (if_neg hname).trans (ih hfirst)

/-- The first "rport" has the port of the source, if it waits for its value. -/
theorem rport_stamped_of_first (source : Endpoint) {via piece : Text} (hsent : (sentBy? via).isSome)
    (hfirst : ((splitOn ';' via).drop 1).find? isRport = some piece) (hopen : isOpenRport piece = true) :
    param? (stamped source via) "rport".toList = some (decimal source.port.toNat) := by
  obtain ⟨first, rest, hvia, hstamped⟩ := pieces_stamped source hsent
  rw [hvia, List.drop_succ_cons, List.drop_zero] at hfirst
  rw [param?, hstamped, List.drop_succ_cons, List.drop_zero, paramAmong?_append,
    rport_filled source hfirst hopen]
  rfl

theorem rport_stamped (source : Endpoint) {via : Text} (hsent : (sentBy? via).isSome)
    (h : HasOpenRport via) :
    param? (stamped source via) "rport".toList = some (decimal source.port.toNat) := by
  obtain ⟨piece, hone, hmark⟩ := h
  have hfirst : ((splitOn ';' via).drop 1).find? isRport = some piece := by
    rw [← List.head?_filter, hone]
    rfl
  exact rport_stamped_of_first source hsent hfirst
    (isOpenRport_of_isRport hmark (List.find?_some hfirst))

/-- Without a "received" of its own, a value leads to the address of the source once that is noted in it; and
with one "rport", which has no value, to the port of the source. -/
theorem replyTarget?_stamped {source : Endpoint} {via host : Text} {port : UInt16}
    (h : replyTarget? (stamped source via) = some (host, port)) :
    (param? via "received".toList = none → Ip.readHost host = some source.ip) ∧
      (HasOpenRport via → port = source.port) := by
  obtain ⟨⟨sender, sentPort⟩, hstamped, htarget⟩ := Option.bind_eq_some_iff.mp h
  obtain ⟨rfl, rfl⟩ := Prod.mk.inj (Option.some.inj htarget)
  have hsome : (sentBy? via).isSome := by
    by_contra hnone
    rw [Option.not_isSome_iff_eq_none] at hnone
    rw [stamped, stamp?, hnone, Option.bind_eq_bind, Option.bind_none, Option.getD_none, hnone] at hstamped
    cases hstamped
  constructor
  · intro hreceived
    obtain ⟨⟨host, port⟩, hsent⟩ := Option.isSome_iff_exists.mp hsome
    rw [received_stamped source hsent hreceived]
    by_cases hsource : Ip.readHost host = some source.ip
    · rw [if_pos hsource]
      rw [sentBy?_stamped source hsent hsource] at hstamped
      obtain ⟨rfl, -⟩ := Prod.mk.inj (Option.some.inj hstamped)
      exact hsource
    · rw [if_neg hsource]
      obtain ⟨c, cs, htext⟩ := List.exists_cons_of_ne_nil (Ip.text_ne_nil source.ip)
      rw [htext]
      dsimp only
      rw [← htext, Ip.readHost_text]
  · intro hopen
    rw [rport_stamped source hsome hopen, Option.bind_some, uint16?_decimal]
    rfl

end BorderProxy.Via
