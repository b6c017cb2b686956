import Mathlib.Data.List.TakeDrop
import Mathlib.Data.List.TakeWhile
import BorderProxy.Proofs.Address.Literal
import BorderProxy.Proofs.Text.Pieces
import BorderProxy.Uri.Reader

/-! Reading the text of a URI. A URI that was read may have been written in another way, with a "+" before
the port or in the other letter case, but its own text is read as that URI again. So of the URIs that were
read no two have one text. -/

namespace BorderProxy

namespace Text

/-- A text is parted where the characters with a property end. -/
theorem parted_append {p : Char → Bool} {front back : Text} (hfront : ∀ c ∈ front, p c = true)
    (hback : ∀ c, back.head? = some c → p c = false) :
    (front ++ back).takeWhile p = front ∧ (front ++ back).dropWhile p = back := by
  rw [List.takeWhile_append_of_pos hfront, List.dropWhile_append_of_pos hfront]
  cases back with
  | nil => simp
  | cons c cs => simp [hback c rfl]

end Text

open Text

/-! What stands behind the host. A text may be replaced there by one that begins like it with a colon, or
else with a semicolon, and that holds no mark of a scheme or of a user. -/

structure Inert (t t' : Text) : Prop where
  noSlash : '/' ∉ t'
  noAt : '@' ∉ t'
  first : ∀ c, t'.head? = some c → c = ';' ∨ c = ':' ∧ t.head? = some ':'

/-! Schemes. -/

namespace Scheme

theorem sameLetters_replaced {t t' : Text}
    (h : ∀ c, t'.head? = some c → c = ';' ∨ c = ':' ∧ t.head? = some ':') {word : Text}
    (hword : ';' ∉ lower word ∧ ':' ∉ lower word) (front : Text)
    (hsame : sameLetters (word ++ [':']) ((front ++ t').take (word.length + 1)) = true) :
    sameLetters (word ++ [':']) ((front ++ t).take (word.length + 1)) = true := by
  simp only [sameLetters, beq_iff_eq] at hsame ⊢
  induction front generalizing word with
  | nil =>
      cases t' with
      | nil => simp [lower] at hsame
      | cons c rest =>
          rcases h c rfl with rfl | ⟨rfl, hcolon⟩
          · cases word with
            | nil => exact absurd hsame (by simp [lower])
            | cons w ws =>
                have hw : w.toLower = ';' := (List.cons.inj hsame).1
                exact absurd (List.mem_cons.mpr (.inl hw.symm)) hword.1
          · cases word with
            | nil =>
                obtain ⟨after, rfl⟩ := List.head?_eq_some_iff.mp hcolon
                rfl
            | cons w ws =>
                have hw : w.toLower = ':' := (List.cons.inj hsame).1
                exact absurd (List.mem_cons.mpr (.inl hw.symm)) hword.2
  | cons f front ih =>
      cases word with
      | nil => simpa using hsame
      | cons w ws =>
          have hrest : ';' ∉ lower ws ∧ ':' ∉ lower ws :=
            hword.imp (mt (List.mem_cons_of_mem _)) (mt (List.mem_cons_of_mem _))
          have htail := ih hrest (List.cons.inj hsame).2
          exact List.cons_eq_cons.mpr ⟨(List.cons.inj hsame).1, htail⟩

/-- Whether a text begins with a word and a colon does not depend on what follows its first colon or
semicolon. -/
theorem afterPrefixAnyCase?_replaced {t t' : Text}
    (h : ∀ c, t'.head? = some c → c = ';' ∨ c = ':' ∧ t.head? = some ':') (word : Text)
    (hword : ';' ∉ lower word ∧ ':' ∉ lower word) {front : Text}
    (hnone : afterPrefixAnyCase? (word ++ [':']) (front ++ t) = none) :
    afterPrefixAnyCase? (word ++ [':']) (front ++ t') = none := by
  simp only [afterPrefixAnyCase?, List.length_append, List.length_singleton, ite_eq_right_iff,
    reduceCtorEq, imp_false] at hnone ⊢
  exact fun hsame => hnone (sameLetters_replaced h hword front hsame)

theorem afterPrefixAnyCase?_append (start t : Text) :
    afterPrefixAnyCase? start (start ++ t) = some t := by
  simp [afterPrefixAnyCase?, sameLetters]

theorem readFront_eq_none_iff {t rest : Text} : readFront t = (none, rest) ↔
    rest = t ∧ afterPrefixAnyCase? "sip:".toList t = none ∧
      afterPrefixAnyCase? "sips:".toList t = none ∧ ¬ "://".toList <:+: t := by
  rw [← cutAt?_eq_none_iff (by decide), readFront]
  cases afterPrefixAnyCase? "sip:".toList t with
  | some after => simp
  | none =>
      cases afterPrefixAnyCase? "sips:".toList t with
      | some after => simp
      | none => cases cutAt? "://".toList t <;> simp [eq_comm]

/-- A text without a scheme has none either when what stands behind the host is replaced. -/
theorem readFront_inert {t t' rest : Text} (h : Inert t t') (front : Text)
    (hnone : readFront (front ++ t) = (none, rest)) :
    readFront (front ++ t') = (none, front ++ t') := by
  obtain ⟨-, hsip, hsips, hmark⟩ := readFront_eq_none_iff.mp hnone
  refine readFront_eq_none_iff.mpr ⟨rfl, ?_, ?_, fun hoccurs => hmark ?_⟩
  · exact afterPrefixAnyCase?_replaced h.first "sip".toList (by decide) hsip
  · exact afterPrefixAnyCase?_replaced h.first "sips".toList (by decide) hsips
  · -- The mark ends with a slash, so it stands in front of what is replaced.
    obtain ⟨before, after, heq⟩ := hoccurs
    rcases List.append_eq_append_iff.mp heq with ⟨middle, hfront, -⟩ | ⟨middle, hfront, hafter⟩
    · rw [hfront]
      exact ⟨before, middle ++ t, by simp⟩
    · rcases List.eq_nil_or_concat middle with rfl | ⟨inner, last, rfl⟩
      · rw [List.append_nil] at hfront
        rw [← hfront]
        exact ⟨before, t, rfl⟩
      · have hlast : before ++ [':', '/'] ++ ['/'] = front ++ inner ++ [last] := by
          simpa using hfront
        obtain ⟨-, hlast⟩ := List.append_inj' hlast rfl
        refine absurd ?_ h.noSlash
        rw [hafter, ← List.singleton_inj.mp hlast]
        simp

theorem readFront_sip (t : Text) : readFront (sip.text ++ t) = (some sip, t) := by
  rw [readFront, text, afterPrefixAnyCase?_append]

theorem readFront_sips (t : Text) : readFront (sips.text ++ t) = (some sips, t) := by
  have hother : afterPrefixAnyCase? "sip:".toList ("sips:".toList ++ t) = none := if_neg nofun
  rw [readFront, text, hother]
  dsimp only
  rw [afterPrefixAnyCase?_append]

/-- The text of a scheme is read as that scheme, whatever follows it. -/
theorem readFront_text {t rest : Text} {s : Scheme} (h : readFront t = (some s, rest)) (rest' : Text) :
    readFront (s.text ++ rest') = (some s, rest') := by
  cases s with
  | sip => exact readFront_sip rest'
  | sips => exact readFront_sips rest'
  | other name =>
      unfold readFront at h
      split at h
      · cases h
      · rename_i hsip
        split at h
        · cases h
        · rename_i hsips
          split at h
          · rename_i found after hcut
            cases h
            obtain ⟨rfl, hcut'⟩ := cutAt?_replaced (by decide) hcut rest'
            have hfirst : ∀ c, ("://".toList ++ rest').head? = some c →
                c = ';' ∨ c = ':' ∧ ("://".toList ++ rest).head? = some ':' :=
              fun c hc => .inr ⟨(Option.some.inj hc).symm, rfl⟩
            rw [List.append_assoc] at hsip hsips hcut'
            have hsip' : afterPrefixAnyCase? "sip:".toList (name ++ ("://".toList ++ rest')) = none :=
              afterPrefixAnyCase?_replaced hfirst "sip".toList (by decide) hsip
            have hsips' : afterPrefixAnyCase? "sips:".toList (name ++ ("://".toList ++ rest')) = none :=
              afterPrefixAnyCase?_replaced hfirst "sips".toList (by decide) hsips
            rw [text, List.append_assoc, readFront, hsip']
            dsimp only
            rw [hsips']
            dsimp only
            rw [hcut']
          · cases h

end Scheme

/-! User parts. -/

namespace UserInfo

theorem text_ofText (t : Text) : (ofText t).text = t ++ ['@'] := by
  unfold ofText
  split
  · rename_i user password hcut
    rw [(cut?_eq_some hcut).1]
    rfl
  · simp [text]

theorem readFront_eq_none_iff {t rest : Text} : readFront t = (none, rest) ↔
    rest = t ∧ t.find? (fun c => !(c != '.' && c != '@')) ≠ some '@' := by
  rw [List.find?_not_eq_head?_dropWhile]
  simp only [readFront, List.span_eq_takeWhile_dropWhile]
  split
  · rename_i after hdrop
    simp [hdrop]
  · rename_i hother
    refine ⟨fun h => ⟨(Prod.mk.inj h).2.symm, fun hat => ?_⟩, fun h => by rw [h.1]⟩
    obtain ⟨after, hafter⟩ := List.head?_eq_some_iff.mp hat
    exact hother after hafter

/-- A text without a user part has none either when what stands behind the host is replaced. -/
theorem readFront_inert {t t' rest : Text} (h : Inert t t') (front : Text)
    (hnone : readFront (front ++ t) = (none, rest)) :
    readFront (front ++ t') = (none, front ++ t') := by
  refine readFront_eq_none_iff.mpr ⟨rfl, ?_⟩
  have hfind := (readFront_eq_none_iff.mp hnone).2
  rw [List.find?_append] at hfind ⊢
  cases hfront : front.find? fun c => !(c != '.' && c != '@') with
  | some c =>
      rw [hfront, Option.some_or] at hfind
      rwa [Option.some_or]
  | none => exact fun hat => h.noAt (List.mem_of_find?_eq_some hat)

/-- A user part is read as it is written, and it is written as it was read. -/
theorem readFront_text {t rest : Text} {info : UserInfo} (h : readFront t = (some info, rest)) :
    t = info.text ++ rest ∧ ∀ rest', readFront (info.text ++ rest') = (some info, rest') := by
  simp only [readFront, List.span_eq_takeWhile_dropWhile] at h
  split at h
  · rename_i after hdrop
    cases h
    have hsplit := List.takeWhile_append_dropWhile (p := fun c => c != '.' && c != '@') (l := t)
    have hall : ∀ c ∈ t.takeWhile (fun c => c != '.' && c != '@'), (c != '.' && c != '@') = true :=
      fun c hc => List.mem_takeWhile_imp (p := fun c => c != '.' && c != '@') hc
    rw [hdrop] at hsplit
    generalize t.takeWhile (fun c => c != '.' && c != '@') = front at hsplit hall
    rw [text_ofText]
    refine ⟨by simp [← hsplit], fun rest' => ?_⟩
    simp only [readFront, List.span_eq_takeWhile_dropWhile, List.append_assoc,
      List.takeWhile_append_of_pos hall, List.dropWhile_append_of_pos hall]
    simp
  · cases h

end UserInfo

/-! Hosts and ports. -/

/-- The host that a text without a colon names is written as that text. -/
theorem Host.text_ofText {t : Text} (h : ':' ∉ t) : (Host.ofText t).text = t := by
  unfold Host.ofText
  split
  · rename_i ip hread
    rw [Ip.read, Ip.readV6_of_not_mem h, Option.or_none] at hread
    exact Ip.text_of_readV4 hread
  · rfl

namespace HostPort

/-- A host and port as they are read: the host has no colon, and it is the one that its text names. -/
structure Plain (h : HostPort) : Prop where
  noColon : ':' ∉ h.host.text
  named : Host.ofText h.host.text = h.host

theorem plain_of_ofText {t : Text} {h : HostPort} (hread : ofText t = some h) :
    h.Plain ∧ ∃ tail, t = h.host.text ++ tail ∧
      (h.port = none ∧ tail = [] ∨ ∃ port digits, h.port = some port ∧ tail = ':' :: digits) := by
  unfold ofText at hread
  split at hread
  · rename_i hcut
    cases hread
    have hcolon := cut?_eq_none_iff.mp hcut
    have htext := Host.text_ofText hcolon
    exact ⟨⟨by rwa [htext], by rw [htext]⟩, [], by simp [htext], .inl ⟨rfl, rfl⟩⟩
  · rename_i host digits hcut
    obtain ⟨port, -, rfl⟩ := Option.map_eq_some_iff.mp hread
    obtain ⟨rfl, hcolon⟩ := cut?_eq_some hcut
    have htext := Host.text_ofText hcolon
    exact ⟨⟨by rwa [htext], by rw [htext]⟩, ':' :: digits, by rw [htext],
      .inr ⟨port, digits, rfl, rfl⟩⟩

theorem Plain.ofText_text {h : HostPort} (hplain : h.Plain) : ofText h.text = some h := by
  obtain ⟨host, port⟩ := h
  cases port with
  | none =>
      have hcut : cut? ':' host.text = none := cut?_eq_none_iff.mpr hplain.noColon
      rw [ofText, text, List.append_nil, hcut]
      dsimp only
      rw [hplain.named]
  | some port =>
      rw [ofText, text, cut?_append hplain.noColon]
      dsimp only
      rw [uint16?_decimal, Option.map_some, hplain.named]

/-- What is read in front of a semicolon, a space or the end. -/
theorem of_readFront {t rest : Text} {h : HostPort} (hread : readFront t = some (h, rest)) :
    ∃ front, t = front ++ rest ∧ front ≠ [] ∧ (∀ c ∈ front, c ≠ ';' ∧ c ≠ ' ') ∧
      ofText front = some h := by
  simp only [readFront, List.span_eq_takeWhile_dropWhile] at hread
  have hsplit := List.takeWhile_append_dropWhile (p := fun c => c != ';' && c != ' ') (l := t)
  have hall : ∀ c ∈ t.takeWhile (fun c => c != ';' && c != ' '), c ≠ ';' ∧ c ≠ ' ' := by
    intro c hc
    simpa using List.mem_takeWhile_imp (p := fun c => c != ';' && c != ' ') hc
  split at hread
  · cases hread
  · rename_i hne
    obtain ⟨found, hof, heq⟩ := Option.map_eq_some_iff.mp hread
    cases heq
    exact ⟨_, hsplit.symm, hne, hall, hof⟩

/-- A port brings in no mark that ends a host. -/
theorem text_unbroken {h : HostPort} (hhost : ∀ c ∈ h.host.text, c ≠ ';' ∧ c ≠ ' ') :
    ∀ c ∈ h.text, (c != ';' && c != ' ') = true := by
  intro c hc
  rw [text] at hc
  rcases List.mem_append.mp hc with hc | hc
  · simpa using hhost c hc
  · cases hport : h.port with
    | none => simp [hport] at hc
    | some port =>
        rw [hport] at hc
        rcases List.mem_cons.mp hc with rfl | hc
        · rfl
        · have hdigit := isDigit_of_mem_decimal hc
          have hsemicolon : c ≠ ';' := by rintro rfl; exact absurd hdigit (by decide)
          have hspace : c ≠ ' ' := by rintro rfl; exact absurd hdigit (by decide)
          simp [hsemicolon, hspace]

/-- A host and port are read from their text in front of parameters. -/
theorem readFront_text {t rest back : Text} {h : HostPort} (hread : readFront t = some (h, rest))
    (hback : Inert [] back) : readFront (h.text ++ back) = some (h, back) := by
  obtain ⟨front, rfl, hne, hfront, hof⟩ := of_readFront hread
  obtain ⟨hplain, tail, rfl, htail⟩ := plain_of_ofText hof
  have hhost : ∀ c ∈ h.host.text, c ≠ ';' ∧ c ≠ ' ' :=
    fun c hc => hfront c (List.mem_append_left tail hc)
  have hend : ∀ c, back.head? = some c → (c != ';' && c != ' ') = false := by
    intro c hc
    obtain rfl : c = ';' := by simpa using hback.first c hc
    rfl
  obtain ⟨htake, hdrop⟩ := parted_append (text_unbroken hhost) hend
  have hnil : h.text ≠ [] := by
    rcases htail with ⟨hport, rfl⟩ | ⟨port, digits, hport, rfl⟩
    · simpa [text, hport] using hne
    · simp [text, hport]
  simp only [readFront, List.span_eq_takeWhile_dropWhile, htake, hdrop, hplain.ofText_text]
  rfl

/-- Behind the host, the text of what was read may stand in place of what was read. -/
theorem inert_of_readFront {t rest back : Text} {h : HostPort} (hread : readFront t = some (h, rest))
    (hback : Inert [] back) : ∃ tail tail', t = h.host.text ++ tail ∧
      h.text ++ back = h.host.text ++ tail' ∧ Inert tail tail' := by
  obtain ⟨front, rfl, -, -, hof⟩ := of_readFront hread
  obtain ⟨-, tail, rfl, htail⟩ := plain_of_ofText hof
  refine ⟨tail ++ rest, _, List.append_assoc .., List.append_assoc .., ?_⟩
  rcases htail with ⟨hport, rfl⟩ | ⟨port, digits, hport, rfl⟩
  · rw [hport]
    refine ⟨hback.noSlash, hback.noAt, fun c hc => .inl ?_⟩
    simpa using hback.first c hc
  · rw [hport]
    have hslash : '/' ∉ decimal port.toNat := not_mem_decimal (by decide)
    have hat : '@' ∉ decimal port.toNat := not_mem_decimal (by decide)
    refine ⟨by simp [hslash, hback.noSlash], by simp [hat, hback.noAt], fun c hc => .inr ?_⟩
    exact ⟨(Option.some.inj hc).symm, rfl⟩

end HostPort

/-! Parameters. -/

namespace UriParam

/-- A parameter of token characters that is read as it is written. -/
structure Plain (p : UriParam) : Prop where
  name : ∀ c ∈ p.name, isTokenChar c = true
  value : ∀ v, p.value = some v → ∀ c ∈ v, isTokenChar c = true
  kept : match p.value with
    | some v => withValue p.name v = some p
    | none => withoutValue p.name = p

theorem plain_of_withoutValue {name : Text} (hname : ∀ c ∈ name, isTokenChar c = true) :
    (withoutValue name).Plain := by
  unfold withoutValue
  split
  · rename_i hkey
    rw [hkey]
    exact ⟨List.all_eq_true.mp (by decide), nofun, by decide⟩
  · rename_i hkey
    exact ⟨hname, nofun, if_neg hkey⟩

theorem plain_transport {value : Text} (h : value ∈ transports) :
    Plain ⟨"transport".toList, some value⟩ := by
  have hall : ∀ v ∈ transports, v.all isTokenChar = true ∧
      withValue "transport".toList v = some ⟨"transport".toList, some v⟩ := by decide
  obtain ⟨htoken, hkept⟩ := hall value h
  have hname : "transport".toList.all isTokenChar = true := by decide
  refine ⟨List.all_eq_true.mp hname, fun v heq => ?_, hkept⟩
  cases heq
  exact List.all_eq_true.mp htoken

theorem plain_method (m : Method) : Plain ⟨"method".toList, some m.text⟩ := by
  have htoken : m.text.all isTokenChar = true := by cases m <;> decide
  have hname : "method".toList.all isTokenChar = true := by decide
  refine ⟨List.all_eq_true.mp hname, fun v heq => ?_, by cases m <;> decide⟩
  cases heq
  exact List.all_eq_true.mp htoken

theorem plain_of_withValue {name value : Text} {p : UriParam} (h : withValue name value = some p)
    (hname : ∀ c ∈ name, isTokenChar c = true) (hvalue : ∀ c ∈ value, isTokenChar c = true) :
    p.Plain := by
  unfold withValue at h
  dsimp only at h
  split at h
  · rename_i hkey
    split at h
    · rename_i hknown
      cases h
      rw [hkey]
      exact plain_transport (List.contains_iff_mem.mp hknown)
    · cases h
  · split at h
    · rename_i hkey
      obtain ⟨m, -, rfl⟩ := Option.map_eq_some_iff.mp h
      rw [hkey]
      exact plain_method m
    · rename_i htransport hmethod
      split at h
      · rename_i hknown
        cases h
        have hall : ∀ key ∈ namedValues, key.all isTokenChar = true ∧ lower key = key := by decide
        obtain ⟨htoken, hlower⟩ := hall _ (List.contains_iff_mem.mp hknown)
        refine ⟨List.all_eq_true.mp htoken, fun v heq => by cases heq; exact hvalue, ?_⟩
        simp only [withValue, hlower, if_neg htransport, if_neg hmethod, hknown, if_true]
      · rename_i hunknown
        cases h
        refine ⟨hname, fun v heq => by cases heq; exact hvalue, ?_⟩
        simp only [withValue, if_neg htransport, if_neg hmethod, hunknown]
        rfl

theorem tokenChars (t : Text) : ∀ c ∈ t.takeWhile isTokenChar, isTokenChar c = true :=
  fun _ hc => List.mem_takeWhile_imp hc

theorem plain_of_readAll {steps : Nat} {t rest : Text} {ps : List UriParam}
    (h : readAll steps t = some (ps, rest)) : ∀ p ∈ ps, p.Plain := by
  induction steps, t using readAll.induct generalizing ps rest with
  | case1 steps t after hmark ih =>
      rw [readAll] at h
      simp only [hmark] at h
      obtain ⟨param, hparam, h⟩ := Option.bind_eq_some_iff.mp h
      obtain ⟨more, hmore, h⟩ := Option.bind_eq_some_iff.mp h
      cases h
      have hplain := plain_of_withValue hparam (tokenChars t) (tokenChars after)
      exact List.forall_mem_cons.mpr ⟨hplain, ih hmore⟩
  | case2 steps t hmark ih =>
      rw [readAll] at h
      split at h
      · rename_i after heq
        exact absurd heq (hmark after)
      · obtain ⟨more, hmore, h⟩ := Option.bind_eq_some_iff.mp h
        cases h
        exact List.forall_mem_cons.mpr ⟨plain_of_withoutValue (tokenChars t), ih hmore⟩
  | case3 steps t hend =>
      rw [readAll] at h
      · cases h
        exact nofun
      · exact hend

/-- A written parameter is read in front of others. -/
theorem readAll_cons {p : UriParam} (hp : p.Plain) {steps : Nat} {rest : Text}
    (hrest : ∀ c, rest.head? = some c → c = ';') :
    readAll (steps + 1) (p.text ++ rest) =
      (readAll steps rest).map fun more => (p :: more.1, more.2) := by
  have hend : ∀ c, rest.head? = some c → isTokenChar c = false := by
    intro c hc
    rw [hrest c hc]
    decide
  obtain ⟨name, value⟩ := p
  have hkept := hp.kept
  cases value with
  | none =>
      obtain ⟨hname, hafter⟩ := parted_append hp.name hend
      have htext : text ⟨name, none⟩ ++ rest = ';' :: (name ++ rest) := by simp [text]
      rw [htext, readAll]
      simp only [hname, hafter]
      split
      · cases hrest '=' rfl
      · rw [hkept]
        cases readAll steps rest <;> rfl
  | some v =>
      have hmark : isTokenChar '=' = false := by decide
      have hequals : ∀ c, ('=' :: (v ++ rest)).head? = some c → isTokenChar c = false := by
        intro c hc
        rw [← Option.some.inj hc]
        exact hmark
      obtain ⟨hname, hafter⟩ := parted_append hp.name hequals
      obtain ⟨hvalue, hafter'⟩ := parted_append (hp.value v rfl) hend
      have htext : text ⟨name, some v⟩ ++ rest = ';' :: (name ++ '=' :: (v ++ rest)) := by simp [text]
      dsimp only at hkept
      rw [htext, readAll]
      simp only [hname, hafter, hvalue, hafter', hkept]
      cases readAll steps rest <;> rfl

theorem head_flatMap_text (ps : List UriParam) (c : Char) (hc : (ps.flatMap text).head? = some c) :
    c = ';' := by
  cases ps with
  | nil => cases hc
  | cons p ps => exact (Option.some.inj hc).symm

/-- Written parameters are read one after the other. -/
theorem readAll_flatMap {ps : List UriParam} (h : ∀ p ∈ ps, p.Plain) {steps : Nat}
    (hsteps : ps.length ≤ steps) : readAll steps (ps.flatMap text) = some (ps, []) := by
  induction ps generalizing steps with
  | nil => cases steps <;> rfl
  | cons p ps ih =>
      cases steps with
      | zero => cases hsteps
      | succ steps =>
          rw [List.flatMap_cons, readAll_cons (h p List.mem_cons_self) (head_flatMap_text ps),
            ih (fun q hq => h q (List.mem_cons_of_mem p hq)) (Nat.le_of_succ_le_succ hsteps)]
          rfl

theorem length_le_flatMap_text (ps : List UriParam) : ps.length ≤ (ps.flatMap text).length := by
  induction ps with
  | nil => exact Nat.le_refl 0
  | cons p ps ih =>
      simp only [List.flatMap_cons, List.length_cons, List.length_append, text, List.cons_append]
      omega

theorem readFront_flatMap {ps : List UriParam} (h : ∀ p ∈ ps, p.Plain) :
    readFront (ps.flatMap text) = some (ps, []) :=
  readAll_flatMap h (length_le_flatMap_text ps)

/-- Parameters hold no mark of a scheme or a user. -/
theorem inert_flatMap {ps : List UriParam} (h : ∀ p ∈ ps, p.Plain) : Inert [] (ps.flatMap text) := by
  have hnot : ∀ {c : Char}, isTokenChar c = false → c ≠ ';' → c ≠ '=' → c ∉ ps.flatMap text := by
    intro c htoken hsemicolon hequals hmem
    obtain ⟨p, hp, hc⟩ := List.mem_flatMap.mp hmem
    have hplain := h p hp
    rw [text, List.cons_append, List.mem_cons, List.mem_append] at hc
    rcases hc with hc | hc | hc
    · exact hsemicolon hc
    · rw [hplain.name c hc] at htoken
      cases htoken
    · cases hvalue : p.value with
      | none => simp [hvalue] at hc
      | some v =>
          rw [hvalue] at hc
          rcases List.mem_cons.mp hc with hc | hc
          · exact hequals hc
          · rw [hplain.value v hvalue c hc] at htoken
            cases htoken
  exact ⟨hnot (by decide) (by decide) (by decide), hnot (by decide) (by decide) (by decide),
    fun c hc => .inl (head_flatMap_text ps c hc)⟩

end UriParam

/-! URIs. -/

namespace Uri

/-- A user part, or none, is read as it is written, in front of what stands behind it. -/
theorem readFront_user {t t' rest front : Text} {info : Option UserInfo}
    (h : UserInfo.readFront t = (info, rest)) {tail tail' : Text} (hrest : rest = front ++ tail)
    (hfollows : t' = front ++ tail') (hinert : Inert tail tail') :
    let userText := (info.map UserInfo.text).getD []
    t = userText ++ rest ∧ UserInfo.readFront (userText ++ t') = (info, t') := by
  cases info with
  | none =>
      have hsame := (UserInfo.readFront_eq_none_iff.mp h).1
      subst hsame hrest hfollows
      exact ⟨rfl, UserInfo.readFront_inert hinert front h⟩
  | some info =>
      obtain ⟨ht, hread⟩ := UserInfo.readFront_text h
      exact ⟨ht, hread t'⟩

/-- A scheme, or none, is read as it is written, in front of what stands behind it. -/
theorem readFront_scheme {t t' rest front : Text} {scheme : Option Scheme}
    (h : Scheme.readFront t = (scheme, rest)) {tail tail' : Text} (hrest : rest = front ++ tail)
    (hfollows : t' = front ++ tail') (hinert : Inert tail tail') :
    Scheme.readFront ((scheme.map Scheme.text).getD [] ++ t') = (scheme, t') := by
  cases scheme with
  | none =>
      have hsame := (Scheme.readFront_eq_none_iff.mp h).1
      subst hsame hrest hfollows
      exact Scheme.readFront_inert hinert front h
  | some scheme => exact Scheme.readFront_text h t'

theorem text_eq (u : Uri) : u.text = (u.scheme.map Scheme.text).getD [] ++
    ((u.userInfo.map UserInfo.text).getD [] ++ (u.hostPort.text ++ u.params.flatMap UriParam.text)) := by
  unfold text
  cases u.scheme <;> cases u.userInfo <;> simp

/-- The text of a URI that was read is read as that URI. -/
theorem read_text {t : Text} {u : Uri} (h : read t = some u) : read u.text = some u := by
  obtain ⟨⟨found, rest⟩, hfront, rfl⟩ := Option.map_eq_some_iff.mp h
  unfold readFront at hfront
  rcases hscheme : Scheme.readFront t with ⟨scheme, t₁⟩
  rcases huser : UserInfo.readFront t₁ with ⟨info, t₂⟩
  simp only [hscheme, huser] at hfront
  obtain ⟨⟨hostPort, t₃⟩, hhost, hfront⟩ := Option.bind_eq_some_iff.mp hfront
  obtain ⟨⟨params, t₄⟩, hparams, hfront⟩ := Option.bind_eq_some_iff.mp hfront
  cases hfront
  have hplain := UriParam.plain_of_readAll hparams
  have hback := UriParam.inert_flatMap hplain
  -- What was read and what is written agree up to the host; behind it they may differ.
  obtain ⟨tail, tail', hhere, hthere, hinert⟩ := HostPort.inert_of_readFront hhost hback
  obtain ⟨ht₁, huser'⟩ := readFront_user huser hhere hthere hinert
  rw [hhere, ← List.append_assoc] at ht₁
  have hwritten : (info.map UserInfo.text).getD [] ++ (hostPort.text ++ params.flatMap UriParam.text) =
      (info.map UserInfo.text).getD [] ++ hostPort.host.text ++ tail' := by
    rw [hthere, List.append_assoc]
  have hscheme' := readFront_scheme hscheme ht₁ hwritten hinert
  have hhost' := HostPort.readFront_text hhost hback
  have hparams' := UriParam.readFront_flatMap hplain
  rw [text_eq, read, readFront, hscheme']
  dsimp only
  rw [huser']
  dsimp only
  rw [hhost', Option.bind_eq_bind, Option.bind_some]
  dsimp only
  rw [hparams']
  rfl

/-- Of the URIs that were read no two have one text. -/
theorem eq_of_text_eq {t s : Text} {u v : Uri} (hu : read t = some u) (hv : read s = some v)
    (h : u.text = v.text) : u = v := by
  have hread := read_text hu
  rw [h, read_text hv] at hread
  exact (Option.some.inj hread).symm

end Uri

end BorderProxy
