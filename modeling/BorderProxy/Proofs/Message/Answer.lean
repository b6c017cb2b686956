import BorderProxy.Message.Answer
import BorderProxy.Proofs.Field.NameAddr
import BorderProxy.Proofs.Message.Values
import BorderProxy.Proofs.Text.Number

/-! The fields of local answers. Whoever sent a request knows the answer by the fields that it repeats: they are
those of the request in their order. The receiver is the same but for a tag, which is read back where it is added, and
what else an answer says takes no name of these. So the answer to a complete request is complete. -/

namespace BorderProxy

open Text (IsWord)

/-! Tags. -/

theorem isWord_answerTag (wallNanos : Nat) : IsWord (answerTag wallNanos) := by
  have hdigit : ∀ d < 16, Text.isBlank (Nat.digitChar d) = false := by decide
  refine ⟨by simp [answerTag, Md5.hexDigest, Md5.digest, Md5.wordBytes, Text.hexBytes, Text.hexByte],
    fun c hc => ?_⟩
  obtain ⟨d, hd, rfl⟩ := Text.digit_of_mem_hexBytes (List.mem_of_mem_take hc)
  exact hdigit d hd

theorem not_mem_answerTag {mark : Char} (hmark : ∀ d < 16, mark ≠ Nat.digitChar d) (wallNanos : Nat) :
    mark ∉ answerTag wallNanos := by
  intro hc
  obtain ⟨d, hd, heq⟩ := Text.digit_of_mem_hexBytes (List.mem_of_mem_take hc)
  exact hmark d hd heq

/-- A tag that is added to a value without one is the tag of the value. -/
theorem NameAddr.param?_addTag {value : Text} (hnone : param? value "tag".toList = none) (wallNanos : Nat) :
    param? (value ++ ";tag=".toList ++ answerTag wallNanos) "tag".toList = some (answerTag wallNanos) := by
  have hparam : value ++ ";tag=".toList ++ answerTag wallNanos =
      value ++ ';' :: ("tag".toList ++ '=' :: answerTag wallNanos) := List.append_assoc _ _ _
  have hmark : ∀ {mark : Char}, mark ∉ "tag=".toList → (∀ d < 16, mark ≠ Nat.digitChar d) →
      mark ∉ "tag".toList ++ '=' :: answerTag wallNanos := by
    intro mark hname hdigit hmem
    exact (List.mem_append.mp (show mark ∈ "tag=".toList ++ answerTag wallNanos from hmem)).elim hname
      (not_mem_answerTag hdigit wallNanos)
  have hread : readParam ("tag".toList ++ '=' :: answerTag wallNanos) =
      ("tag".toList, Text.trim (answerTag wallNanos)) :=
    readParam_written (show IsWord "tag".toList by decide) (by decide) _
  rw [param?] at hnone ⊢
  rw [hparam, paramPieces_addParam value (hmark (by decide) (by decide)) (hmark (by decide) (by decide)),
    paramAmong?_append, hnone, Option.none_or, paramAmong?_cons, hread,
    Text.trim_of_isWord (isWord_answerTag wallNanos)]
  exact if_pos (beq_self_eq_true _)

/-! The fields of an answer. -/

/-- The names of the fields that an answer repeats as they are. -/
def repeatedNames : List StandardName := [.via, .from, .callId, .cseq]

def Header.isRepeated (h : Header) : Bool := repeatedNames.any fun n => h.isNamed n

/-- Whether an answer may say more by a field: it is none that is repeated, no receiver and no length. -/
def Header.isSpare (h : Header) : Bool :=
  (repeatedNames ++ [StandardName.to, .contentLength]).all fun n => !h.isNamed n

theorem Header.isNamed_of_isRepeated {h : Header} (hrepeated : h.isRepeated = true) {n : StandardName}
    (hn : n ∉ repeatedNames) : h.isNamed n = false := by
  obtain ⟨name, hname, hnamed⟩ := List.any_eq_true.mp hrepeated
  exact Headers.isNamed_of_ne (fun heq => hn (heq ▸ hname)) hnamed

theorem Header.isRepeated_of_isNamed {h : Header} {n : StandardName} (hnamed : h.isNamed n = true)
    (hn : n ∉ repeatedNames) : h.isRepeated = false := by
  rw [Bool.eq_false_iff]
  intro hrepeated
  rw [isNamed_of_isRepeated hrepeated hn] at hnamed
  cases hnamed

/-- A field is repeated as it is, is a receiver and may be given a tag, or is left out. -/
theorem Header.answer?_cases (code : UInt16) (tag : Text) (h : Header) :
    (h.isRepeated = true ∧ h.answer? code tag = some h) ∨
      (h.isNamed .to = true ∧ h.answer? code tag = some (.of .to (answerTo code tag h.value))) ∨
        (h.isRepeated = false ∧ h.isNamed .to = false ∧ h.answer? code tag = none) := by
  obtain ⟨name, value⟩ := h
  unfold answer?
  dsimp only
  split
  case h_5 => exact .inr (.inl ⟨rfl, rfl⟩)
  case h_6 hvia hfrom hcallId hcseq hto =>
    have hother : ∀ n ∈ repeatedNames ++ [StandardName.to], isNamed n ⟨name, value⟩ = false := by
      intro n hn
      rw [isNamed, beq_eq_false_iff_ne]
      rintro rfl
      simp only [repeatedNames, List.cons_append, List.nil_append, List.mem_cons, List.not_mem_nil, or_false] at hn
      rcases hn with rfl | rfl | rfl | rfl | rfl
      · exact hvia rfl
      · exact hfrom rfl
      · exact hcallId rfl
      · exact hcseq rfl
      · exact hto rfl
    refine .inr (.inr ⟨List.any_eq_false.mpr fun n hn => ?_, hother .to (by decide), rfl⟩)
    rw [hother n (List.mem_append_left _ hn)]
    exact Bool.false_ne_true
  all_goals exact .inl ⟨rfl, rfl⟩

/-- What an answer repeats of a list of fields, with the receivers. -/
def Headers.answered (code : UInt16) (tag : Text) (hs : Headers) : Headers :=
  hs.filterMap (Header.answer? code tag)

namespace Headers

variable (code : UInt16) (tag : Text) (hs : Headers)

theorem repeated_answered : (hs.answered code tag).filter Header.isRepeated = hs.filter Header.isRepeated := by
  unfold answered
  induction hs with
  | nil => rfl
  | cons h rest ih =>
      rcases h.answer?_cases code tag with ⟨hrepeated, hanswer⟩ | ⟨hto, hanswer⟩ | ⟨hother, -, hanswer⟩
      · rw [List.filterMap_cons_some hanswer, List.filter_cons_of_pos hrepeated,
          List.filter_cons_of_pos hrepeated, ih]
      · have hreceiver : (Header.of .to (answerTo code tag h.value)).isRepeated = false := rfl
        rw [List.filterMap_cons_some hanswer, List.filter_cons_of_neg (Bool.eq_false_iff.mp hreceiver),
          List.filter_cons_of_neg (Bool.eq_false_iff.mp (Header.isRepeated_of_isNamed hto (by decide))), ih]
      · rw [List.filterMap_cons_none hanswer, List.filter_cons_of_neg (Bool.eq_false_iff.mp hother), ih]

theorem values_to_answered :
    values .to (hs.answered code tag) = (values .to hs).map (answerTo code tag) := by
  unfold answered
  induction hs with
  | nil => rfl
  | cons h rest ih =>
      rcases h.answer?_cases code tag with ⟨hrepeated, hanswer⟩ | ⟨hto, hanswer⟩ | ⟨-, hother, hanswer⟩
      · have hnot := Header.isNamed_of_isRepeated hrepeated (n := .to) (by decide)
        rw [List.filterMap_cons_some hanswer, values_cons_of_not _ _ hnot, values_cons_of_not _ _ hnot, ih]
      · rw [List.filterMap_cons_some hanswer, values_cons_of _ _ hto, values_cons_of _ _ rfl, List.map_cons, ih]
      · rw [List.filterMap_cons_none hanswer, values_cons_of_not _ _ hother, ih]

/-- Of names that are not repeated, an answer has no values but those that are added to it. -/
theorem values_other_answered {n : StandardName} (hn : n ∉ repeatedNames)
    (hto : n ≠ .to) : values n (hs.answered code tag) = [] := by
  unfold answered values
  rw [List.map_eq_nil_iff, List.filter_eq_nil_iff]
  intro h hmem
  obtain ⟨source, -, hanswer⟩ := List.mem_filterMap.mp hmem
  rw [Bool.not_eq_true]
  rcases source.answer?_cases code tag with ⟨hrepeated, heq⟩ | ⟨-, heq⟩ | ⟨-, -, heq⟩
  · rw [← Option.some.inj (heq.symm.trans hanswer)]
    exact Header.isNamed_of_isRepeated hrepeated hn
  · rw [← Option.some.inj (heq.symm.trans hanswer), isNamed_of, decide_eq_false_iff_not]
    exact hto.symm
  · rw [heq] at hanswer
    cases hanswer

/-- The values of a name that is repeated are those of the repeated fields. -/
theorem values_repeated {n : StandardName} (hn : n ∈ repeatedNames) :
    values n (hs.filter Header.isRepeated) = values n hs := by
  unfold values
  rw [List.filter_filter]
  refine congrArg (List.map _) (List.filter_congr fun h _ => ?_)
  cases hnamed : h.isNamed n with
  | false => rw [Bool.false_and]
  | true =>
      rw [Bool.true_and]
      exact List.any_eq_true.mpr ⟨n, hn, hnamed⟩

end Headers

/-! Answers to complete requests. -/

/-- A response that a request is recognised by: it has the fields that tell one request from another in their order,
and the receivers, of which those without a tag were given one, and it has no body. -/
structure Response.Repeats (response : Response) (hs : Headers) : Prop where
  repeated : response.headers.filter Header.isRepeated = hs.filter Header.isRepeated
  receiver : ∃ tag,
    response.headers.values .to = (hs.values .to).map (fun value =>
      if NameAddr.param? value "tag".toList = none then value ++ ";tag=".toList ++ tag else value) ∧
    ∀ value, NameAddr.param? value "tag".toList = none →
      NameAddr.param? (value ++ ";tag=".toList ++ tag) "tag".toList = some tag
  length : response.headers.values .contentLength = ["0".toList]
  body : response.body = []

/-- An answer that is not provisional, and in which no more is said by the fields that tell requests apart. -/
theorem Request.repeats_answer (r : Request) {status : Status} (hstatus : 100 < status.code) {extra : Headers}
    (hextra : ∀ h ∈ extra, h.isSpare = true) (product : Text) (wallNanos : Nat) :
    (r.answer status extra product wallNanos).Repeats r.headers := by
  have hunnamed : ∀ n ∈ repeatedNames ++ [StandardName.to, .contentLength],
      Headers.values n extra = [] := by
    intro n hn
    unfold Headers.values
    rw [List.map_eq_nil_iff, List.filter_eq_nil_iff]
    intro h hh
    rw [Bool.not_eq_true, ← Bool.not_eq_true']
    exact List.all_eq_true.mp (hextra h hh) n hn
  have hunrepeated : extra.filter Header.isRepeated = [] := by
    refine List.filter_eq_nil_iff.mpr fun h hh hrepeated => ?_
    obtain ⟨n, hn, hnamed⟩ := List.any_eq_true.mp hrepeated
    have hspare := List.all_eq_true.mp (hextra h hh) n (List.mem_append_left _ hn)
    rw [hnamed] at hspare
    cases hspare
  have hheaders : (r.answer status extra product wallNanos).headers =
      r.headers.answered status.code (answerTag wallNanos) ++ extra ++
        [.of .userAgent product, .of .contentLength ['0']] := rfl
  refine ⟨?_, ⟨answerTag wallNanos, ?_, fun value hnone => NameAddr.param?_addTag hnone wallNanos⟩, ?_, rfl⟩
  · rw [hheaders, List.filter_append, List.filter_append, Headers.repeated_answered, hunrepeated]
    exact (List.append_nil _).trans (List.append_nil _)
  · rw [hheaders, Headers.values_append, Headers.values_append, Headers.values_to_answered,
      hunnamed .to (by decide)]
    refine ((List.append_nil _).trans (List.append_nil _)).trans (List.map_congr_left fun value _ => ?_)
    rw [answerTo]
    simp only [hstatus, true_and]
  · rw [hheaders, Headers.values_append, Headers.values_append,
      Headers.values_other_answered _ _ _ (by decide) (by decide), hunnamed .contentLength (by decide)]
    rfl

variable {response : Response} {hs hs' : Headers}

/-- A response repeats the values of each name. -/
theorem Response.Repeats.values (h : response.Repeats hs) {n : StandardName}
    (hn : n ∈ repeatedNames) : response.headers.values n = hs.values n := by
  rw [← Headers.values_repeated _ hn, h.repeated, Headers.values_repeated _ hn]

theorem Response.Repeats.congr (h : response.Repeats hs)
    (hrepeated : hs.filter Header.isRepeated = hs'.filter Header.isRepeated)
    (hto : hs.values .to = hs'.values .to) : response.Repeats hs' where
  repeated := h.repeated.trans hrepeated
  receiver := hto ▸ h.receiver
  length := h.length
  body := h.body

/-- What repeats a complete request is complete. -/
theorem Response.Repeats.complete (h : response.Repeats hs) (hcomplete : hs.checkComplete = .ok ()) :
    response.headers.checkComplete = .ok () := by
  rw [Headers.checkComplete_eq_ok_iff] at hcomplete ⊢
  obtain ⟨hvia, hfrom, hto, hcallId, hcseq⟩ := hcomplete
  refine ⟨?_, ?_, ?_, ?_, ?_⟩
  · rwa [Headers.topVia?, Headers.value?_eq_head?, h.values (by decide), ← Headers.value?_eq_head?]
  · rwa [Headers.value?_eq_head?, h.values (by decide), ← Headers.value?_eq_head?]
  · obtain ⟨tag, hreceiver, -⟩ := h.receiver
    rw [Headers.value?_eq_head?] at hto ⊢
    rw [hreceiver, List.head?_map, Option.isSome_map]
    exact hto
  · rwa [Headers.callId?_congr (h.values (by decide))]
  · rwa [Headers.sequence?, h.values (by decide)]

end BorderProxy
