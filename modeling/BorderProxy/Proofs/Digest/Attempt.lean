import BorderProxy.Digest
import BorderProxy.Proofs.Text.Number

/-! What one attempt at authorization comes to. An attempt is decided by what the request presents, by
whether its nonce is out, and by the digest; every attempt that is not granted ends with a fresh
challenge, and one that got as far as the digest has spent its nonce. -/

namespace BorderProxy

/-! Digests. -/

namespace Md5

/-- Digests are written in lower case. -/
theorem lower_hexDigest (t : Text) : Text.lower (hexDigest t) = hexDigest t := by
  have hdigit : ∀ d < 16, (Nat.digitChar d).toLower = Nat.digitChar d := by decide
  have hlower : ∀ c ∈ hexDigest t, c.toLower = c := by
    intro c hc
    obtain ⟨d, hd, rfl⟩ := Text.digit_of_mem_hexBytes hc
    exact hdigit d hd
  calc Text.lower (hexDigest t)
      = (hexDigest t).map id := List.map_congr_left hlower
    _ = hexDigest t := List.map_id _

end Md5

namespace Credentials

/-- The digest that answers a nonce: over the user with realm and password, over the nonce and over the
method with the URI; a client that protects itself adds its own nonce and the count of its use. -/
def digest (c : Credentials) (method : Method) (realm password : Text) : Text :=
  let identity := Md5.hexDigest (Authenticator.joined [c.username, realm, password])
  let action := Md5.hexDigest (Authenticator.joined [method.text, c.uri.text])
  Md5.hexDigest <| Authenticator.joined <|
    match c.protection with
    | some (.authentication clientNonce count) =>
      [identity, c.nonce, Text.padZeros 8 (Text.hexadecimal count.toNat), clientNonce, "auth".toList,
        action]
    | _ => [identity, c.nonce, action]

/-- Credentials that answer their nonce: with the algorithm and a protection that are offered, and with
the digest in either case of letters. -/
structure Answer (c : Credentials) (method : Method) (realm password : Text) : Prop where
  algorithm : c.algorithm = none ∨ c.algorithm = some .md5
  protection : c.protection = none ∨
    ∃ clientNonce count, c.protection = some (.authentication clientNonce count)
  response : Text.sameLetters c.response (c.digest method realm password) = true

theorem lower_digest (c : Credentials) (method : Method) (realm password : Text) :
    Text.lower (c.digest method realm password) = c.digest method realm password :=
  Md5.lower_hexDigest _

theorem answer_iff (c : Credentials) (method : Method) (realm password : Text) :
    c.Answer method realm password ↔
      Authenticator.expected? c method realm password = some (Text.lower c.response) := by
  have hresponse : Text.sameLetters c.response (c.digest method realm password) = true ↔
      c.digest method realm password = Text.lower c.response := by
    rw [Text.sameLetters, beq_iff_eq, lower_digest, eq_comm]
  have hanswer : c.Answer method realm password ↔
      (c.algorithm = none ∨ c.algorithm = some .md5) ∧
        (c.protection = none ∨
          ∃ clientNonce count, c.protection = some (.authentication clientNonce count)) ∧
        c.digest method realm password = Text.lower c.response := by
    rw [← hresponse]
    exact ⟨fun h => ⟨h.algorithm, h.protection, h.response⟩, fun h => ⟨h.1, h.2.1, h.2.2⟩⟩
  rw [hanswer]
  unfold Authenticator.expected? digest
  obtain ⟨isDigest, username, realm', nonce, uri, response, algorithm, protection⟩ := c
  rcases algorithm with _ | _ | _ <;> rcases protection with _ | _ | _ <;> simp

end Credentials

/-! What a request presents. -/

/-- A request presents credentials for the realm and a user of settings: they are read from the first
field for them, and the first password of the user counts. -/
structure AuthSettings.Presents (s : AuthSettings) (r : Request) (c : Credentials) (password : Text) :
    Prop where
  read : (r.headers.value? .proxyAuthorization).bind Credentials.read = some c
  isDigest : c.isDigest = true
  realm : c.realm = s.realm
  password : (s.credentials.find? fun k => k.username == c.username).map (·.password) = some password

theorem AuthSettings.Presents.unique {s : AuthSettings} {r : Request} {c c' : Credentials}
    {password password' : Text} (h : s.Presents r c password) (h' : s.Presents r c' password') :
    c = c' ∧ password = password' := by
  have hc : c = c' := Option.some.inj (h.read.symm.trans h'.read)
  subst hc
  exact ⟨rfl, Option.some.inj (h.password.symm.trans h'.password)⟩

/-! Nonces that are out. -/

namespace Nonces

/-- A nonce is out at a moment: it was issued less than its life time before, and has not been spent. -/
def IsOut (s : Nonces) (now : Instant) (nonce : Text) : Prop := ∃ n ∈ s.fresh now, n.nonce = nonce

theorem mem_fresh_iff {s : Nonces} {now : Instant} {n : IssuedNonce} :
    n ∈ s.fresh now ↔ n ∈ s.nonces ∧ now.since n.issued < lifeTime := by
  simp [fresh]

theorem holds_prune_iff {s : Nonces} {now : Instant} {nonce : Text} :
    (s.prune now).holds nonce = true ↔ s.IsOut now nonce := by
  simp [prune, holds, IsOut]

theorem since_le {now later : Instant} (h : now ≤ later) (t : Instant) : now.since t ≤ later.since t := by
  unfold Instant.since
  have hle : now - t ≤ later - t := Int.sub_le_sub_right h t
  exact Int.toNat_le_toNat hle

variable {s : Nonces} {now later : Instant} (h : now ≤ later) {nonce : Text}

include h

/-- What is dropped because it is no longer good will not be good later either. -/
theorem isOut_prune_iff : (s.prune now).IsOut later nonce ↔ s.IsOut later nonce := by
  have hmem : ∀ n, n ∈ (s.prune now).fresh later ↔ n ∈ s.fresh later := by
    intro n
    simp only [mem_fresh_iff, prune]
    have hle := since_le h n.issued
    exact ⟨fun hn => ⟨hn.1.1, hn.2⟩, fun hn => ⟨⟨hn.1, Nat.lt_of_le_of_lt hle hn.2⟩, hn.2⟩⟩
  simp only [IsOut, hmem]

omit h in
theorem isOut_spend_iff {spent : Text} :
    (s.spend spent).IsOut later nonce ↔ s.IsOut later nonce ∧ nonce ≠ spent := by
  simp only [IsOut, mem_fresh_iff, spend, List.mem_filter, bne_iff_ne]
  constructor
  · rintro ⟨n, ⟨⟨hmem, hne⟩, hfresh⟩, rfl⟩
    exact ⟨⟨n, ⟨hmem, hfresh⟩, rfl⟩, hne⟩
  · rintro ⟨⟨n, ⟨hmem, hfresh⟩, rfl⟩, hne⟩
    exact ⟨n, ⟨⟨hmem, hne⟩, hfresh⟩, rfl⟩

omit h in
/-- A nonce that is issued is out from then on, and the others stay as they are. -/
theorem isOut_issue_iff {clock : Clock} (h : clock.now ≤ later) (processId : Nat) :
    (s.issue clock processId).2.IsOut later nonce ↔
      nonce = (s.issue clock processId).1 ∧ later.since clock.now < lifeTime ∨
        nonce ≠ (s.issue clock processId).1 ∧ s.IsOut later nonce := by
  unfold issue
  dsimp only
  generalize nonceText s.counter clock.wallNanos processId = issued
  rw [← isOut_prune_iff (s := s) h]
  simp only [IsOut, mem_fresh_iff, prune, List.mem_cons, List.mem_filter, bne_iff_ne]
  constructor
  · rintro ⟨n, ⟨rfl | ⟨hmem, hne⟩, hfresh⟩, rfl⟩
    · exact .inl ⟨rfl, hfresh⟩
    · exact .inr ⟨hne, n, ⟨hmem, hfresh⟩, rfl⟩
  · rintro (⟨rfl, hfresh⟩ | ⟨hne, n, ⟨hmem, hfresh⟩, rfl⟩)
    · exact ⟨⟨nonce, clock.now⟩, ⟨.inl rfl, hfresh⟩, rfl⟩
    · exact ⟨n, ⟨.inr ⟨hmem, hne⟩, hfresh⟩, rfl⟩

end Nonces

/-! What an attempt comes to. -/

namespace Authenticator

variable (a : Authenticator) (clock : Clock) (r : Request)

/-- What an attempt can come to: nothing is presented, or a nonce that is not out, or it gets as far as the
digest, which spends the nonce. -/
inductive Attempted : AuthVerdict × Authenticator → Prop where
  | unpresented (hnone : ∀ c password, ¬ a.settings.Presents r c password) :
      Attempted (a.challenge clock false)
  | lapsed (c : Credentials) (password : Text) (hpresents : a.settings.Presents r c password)
      (hout : ¬ a.store.IsOut clock.now c.nonce) :
      Attempted ({ a with store := a.store.prune clock.now }.challenge clock true)
  | refused (c : Credentials) (password : Text) (hpresents : a.settings.Presents r c password)
      (hout : a.store.IsOut clock.now c.nonce)
      (hwrong : ¬ c.Answer r.method a.settings.realm password) :
      Attempted
        ({ a with store := (a.store.prune clock.now).spend c.nonce }.challenge clock true)
  | granted (c : Credentials) (password : Text) (hpresents : a.settings.Presents r c password)
      (hout : a.store.IsOut clock.now c.nonce) (hright : c.Answer r.method a.settings.realm password) :
      Attempted (.authorized, { a with store := (a.store.prune clock.now).spend c.nonce })

theorem attempted : a.Attempted clock r (a.authenticate clock r) := by
  unfold authenticate
  cases hread : (r.headers.value? .proxyAuthorization).bind Credentials.read with
  | none =>
      refine .unpresented fun c password h => ?_
      rw [h.read] at hread
      cases hread
  | some c =>
      have hsame : ∀ c' password, a.settings.Presents r c' password → c' = c :=
        fun c' password h => Option.some.inj (h.read.symm.trans hread)
      dsimp only
      split
      · rename_i hforeign
        refine .unpresented fun c' password h => ?_
        have heq := hsame c' password h
        subst heq
        simp [h.isDigest, h.realm] at hforeign
      · rename_i hown
        have hown' : c.isDigest = true ∧ c.realm = a.settings.realm := by simpa using hown
        cases hpassword : a.password? c.username with
        | none =>
            refine .unpresented fun c' password h => ?_
            have heq := hsame c' password h
            subst heq
            have hknown : a.password? c'.username = some password := h.password
            rw [hpassword] at hknown
            cases hknown
        | some password =>
            have hpresents : a.settings.Presents r c password := ⟨hread, hown'.1, hown'.2, hpassword⟩
            dsimp only
            split
            · rename_i hholds
              refine .lapsed c password hpresents fun hout => ?_
              rw [← Nonces.holds_prune_iff] at hout
              simp [hout] at hholds
            · rename_i hholds
              have hout : a.store.IsOut clock.now c.nonce := by
                rw [← Nonces.holds_prune_iff]
                simpa using hholds
              cases hexpected : expected? c r.method a.settings.realm password with
              | none =>
                  refine .refused c password hpresents hout fun hright => ?_
                  rw [Credentials.answer_iff, hexpected] at hright
                  cases hright
              | some digest =>
                  dsimp only
                  split
                  · rename_i hdigest
                    refine .granted c password hpresents hout ?_
                    rw [Credentials.answer_iff, hexpected, hdigest]
                  · rename_i hdigest
                    refine .refused c password hpresents hout fun hright => ?_
                    rw [Credentials.answer_iff, hexpected] at hright
                    exact hdigest (Option.some.inj hright)

/-- The settings stay the same. -/
theorem settings_authenticate : (a.authenticate clock r).2.settings = a.settings := by
  have h := a.attempted clock r
  generalize a.authenticate clock r = result at h ⊢
  cases h <;> rfl

/-- A challenge tells the nonce that is issued with it, and no other. -/
theorem challengeText_inj {realm nonce nonce' : Text} {stale stale' : Bool}
    (h : challengeText realm nonce stale = challengeText realm nonce' stale') : nonce = nonce' := by
  -- The mark of a stale nonce ends in a letter, so it is no part of the text up to the closing quote.
  have hstale : ∀ t t' : Text, t ++ ['"'] ≠ t' ++ ", stale=true".toList := by
    intro t t' heq
    have hlast := congrArg List.getLast? heq
    have hmark : ", stale=true".toList = ", stale=tru".toList ++ ['e'] := rfl
    rw [hmark, ← List.append_assoc, List.getLast?_concat, List.getLast?_concat] at hlast
    cases hlast
  have hquote : "\"".toList = ['"'] := rfl
  unfold challengeText at h
  rw [hquote] at h
  have hfront := List.append_cancel_right h
  cases stale <;> cases stale'
  · exact List.append_cancel_left (List.append_cancel_right (List.append_cancel_right hfront))
  · rw [if_neg Bool.false_ne_true, if_pos rfl, List.append_nil] at hfront
    exact absurd hfront (hstale _ _)
  · rw [if_neg Bool.false_ne_true, if_pos rfl, List.append_nil] at hfront
    exact absurd hfront.symm (hstale _ _)
  · exact List.append_cancel_left (List.append_cancel_right (List.append_cancel_right hfront))

end Authenticator

end BorderProxy
