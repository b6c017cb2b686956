import BorderProxy.Proofs.Digest.Attempt

/-! Runs of an authenticator. Whether a nonce is good can be told from the calls alone: what was challenged
with it, when, and who presented it since. The nonces that are out are the good ones, so a call is
authorized exactly when it is entitled to it by the calls before. -/

namespace BorderProxy

/-- A call of an authenticator: when it was made, what it asked and what it was told. -/
structure AuthCall where
  time : Instant
  request : Request
  verdict : AuthVerdict

namespace AuthCall

/-- The call was told a nonce. -/
def Issues (realm nonce : Text) (c : AuthCall) : Prop :=
  ∃ stale, c.verdict =
    .challenge (.of .proxyAuthenticate (Authenticator.challengeText realm nonce stale))

instance (realm nonce : Text) (c : AuthCall) : Decidable (c.Issues realm nonce) :=
  inferInstanceAs (Decidable (∃ _, _))

/-- The call was authorized with a nonce. -/
def Grants (nonce : Text) (c : AuthCall) : Prop :=
  c.verdict = .authorized ∧
    ((c.request.headers.value? .proxyAuthorization).bind Credentials.read).map (·.nonce) = some nonce

instance (nonce : Text) (c : AuthCall) : Decidable (c.Grants nonce) :=
  inferInstanceAs (Decidable (_ ∧ _))

/-- The call presented a nonce, for the realm and a user of settings. -/
def Presents (s : AuthSettings) (nonce : Text) (c : AuthCall) : Prop :=
  ∃ credentials password, s.Presents c.request credentials password ∧ credentials.nonce = nonce

/-- A nonce is good at a moment, given the calls so far with the latest first: a call was told it less than
its life time before, and no call since then presented it while it was good, which takes it as far as the
digest. -/
def Good (s : AuthSettings) (nonce : Text) : Instant → List AuthCall → Prop
  | _, [] => False
  | now, c :: earlier =>
    (c.Issues s.realm nonce ∧ now.since c.time < Nonces.lifeTime) ∨
      (Good s nonce now earlier ∧ ¬ (c.Presents s nonce ∧ Good s nonce c.time earlier))

/-- The call is entitled to be authorized after the calls before it: it presents a good nonce and answers
it. -/
def Entitled (s : AuthSettings) (earlier : List AuthCall) (c : AuthCall) : Prop :=
  ∃ credentials password, s.Presents c.request credentials password ∧
    Good s credentials.nonce c.time earlier ∧
    credentials.Answer c.request.method s.realm password

theorem presents_iff {s : AuthSettings} {c : AuthCall} {credentials : Credentials} {password : Text}
    (h : s.Presents c.request credentials password) (nonce : Text) :
    c.Presents s nonce ↔ nonce = credentials.nonce := by
  constructor
  · rintro ⟨credentials', password', h', rfl⟩
    rw [(h.unique h').1]
  · exact fun heq => ⟨credentials, password, h, heq.symm⟩

theorem grants_iff {s : AuthSettings} {c : AuthCall} {credentials : Credentials} {password : Text}
    (h : s.Presents c.request credentials password) (nonce : Text) :
    c.Grants nonce ↔ c.verdict = .authorized ∧ nonce = credentials.nonce := by
  rw [Grants, h.read, Option.map_some, Option.some.injEq, eq_comm (a := nonce)]

/-- A good nonce is not older than the calls so far. -/
theorem Good.since_lt {s : AuthSettings} {nonce : Text} {now last : Instant} {calls : List AuthCall}
    (h : Good s nonce now calls) (hpast : ∀ c ∈ calls, c.time ≤ last) :
    now.since last < Nonces.lifeTime := by
  induction calls with
  | nil => exact h.elim
  | cons c earlier ih =>
      rcases h with ⟨-, hfresh⟩ | ⟨hgood, -⟩
      · have hle : now.since last ≤ now.since c.time := by
          have hc := hpast c List.mem_cons_self
          unfold Instant.since
          exact Int.toNat_le_toNat (Int.sub_le_sub_left hc now)
        exact Nat.lt_of_le_of_lt hle hfresh
      · exact ih hgood fun d hd => hpast d (List.mem_cons_of_mem _ hd)

/-- A nonce that a call was told stays good for its life time, whatever other calls are told and present,
until it is presented. -/
theorem good_of_unpresented {s : AuthSettings} {nonce : Text} {now : Instant} {c : AuthCall}
    (hissues : c.Issues s.realm nonce) (hfresh : now.since c.time < Nonces.lifeTime)
    {between : List AuthCall} (hbetween : ∀ d ∈ between, ¬ d.Presents s nonce) (earlier : List AuthCall) :
    Good s nonce now (between ++ c :: earlier) := by
  induction between with
  | nil => exact .inl ⟨hissues, hfresh⟩
  | cons d rest ih =>
      have hrest := ih fun e he => hbetween e (List.mem_cons_of_mem _ he)
      exact .inr ⟨hrest, fun h => hbetween d List.mem_cons_self h.1⟩

/-- Where only entitled calls are authorized, a nonce is never granted more often than it was issued: what
is granted is good before and spent after. -/
theorem countP_grants_le {s : AuthSettings} (nonce : Text) {calls : List AuthCall}
    (h : ∀ later c earlier, calls = later ++ c :: earlier →
      (c.verdict = .authorized ↔ c.Entitled s earlier)) :
    calls.countP (fun c => c.Grants nonce) ≤ calls.countP (fun c => c.Issues s.realm nonce) ∧
      ((∃ now, Good s nonce now calls) →
        calls.countP (fun c => c.Grants nonce) < calls.countP fun c => c.Issues s.realm nonce) := by
  induction calls with
  | nil => exact ⟨Nat.le_refl _, fun ⟨_, hgood⟩ => hgood.elim⟩
  | cons c earlier ih =>
      obtain ⟨hle, hlt⟩ := ih fun later d rest heq => h (c :: later) d rest (by rw [heq]; rfl)
      have hdecided := h [] c earlier rfl
      rw [List.countP_cons, List.countP_cons]
      by_cases hgrants : c.Grants nonce
      · -- The nonce was good, and by being presented it is so no longer.
        obtain ⟨credentials, password, hpresents, hgood, -⟩ := hdecided.mp hgrants.1
        rw [grants_iff hpresents] at hgrants
        obtain ⟨hverdict, rfl⟩ := hgrants
        have hbefore := hlt ⟨_, hgood⟩
        have hnew : ¬ c.Issues s.realm credentials.nonce := by
          rintro ⟨stale, hissues⟩
          rw [hverdict] at hissues
          cases hissues
        have hspent : ¬ ∃ now, Good s credentials.nonce now (c :: earlier) := by
          rintro ⟨now, ⟨hissues, -⟩ | ⟨-, hkept⟩⟩
          · exact hnew hissues
          · exact hkept ⟨(presents_iff hpresents _).mpr rfl, hgood⟩
        refine ⟨?_, fun hopen => absurd hopen hspent⟩
        split <;> omega
      · rw [if_neg (by simpa using hgrants)]
        by_cases hissues : c.Issues s.realm nonce
        · rw [if_pos (by simpa using hissues)]
          exact ⟨by omega, fun _ => by omega⟩
        · rw [if_neg (by simpa using hissues)]
          refine ⟨hle, fun ⟨now, hopen⟩ => ?_⟩
          rcases hopen with ⟨hnew, -⟩ | ⟨hkept, -⟩
          · exact absurd hnew hissues
          · exact hlt ⟨now, hkept⟩

end AuthCall

/-! One call. -/

namespace Authenticator

variable (a : Authenticator) (clock : Clock) (r : Request)

/-- A request as a call, with the verdict on it. -/
def callOf : AuthCall := ⟨clock.now, r, (a.authenticate clock r).1⟩

theorem issues_challenge_iff (stale : Bool) (nonce : Text) :
    (⟨clock.now, r, (a.challenge clock stale).1⟩ : AuthCall).Issues a.settings.realm nonce ↔
      nonce = (a.store.issue clock a.processId).1 := by
  constructor
  · rintro ⟨stale', h⟩
    have htext := congrArg Header.value (AuthVerdict.challenge.inj h)
    exact (challengeText_inj htext).symm
  · rintro rfl
    exact ⟨stale, rfl⟩

/-- A call puts the nonce out that it is told, and leaves the others out but for the one that it takes as
far as the digest. -/
theorem isOut_authenticate_iff {later : Instant} (h : clock.now ≤ later) (nonce : Text) :
    (a.authenticate clock r).2.store.IsOut later nonce ↔
      (a.callOf clock r).Issues a.settings.realm nonce ∧ later.since clock.now < Nonces.lifeTime ∨
        ¬ (a.callOf clock r).Issues a.settings.realm nonce ∧ a.store.IsOut later nonce ∧
          ¬ ((a.callOf clock r).Presents a.settings nonce ∧ a.store.IsOut clock.now nonce) := by
  have hattempted := a.attempted clock r
  unfold callOf
  generalize a.authenticate clock r = result at hattempted ⊢
  cases hattempted with
  | unpresented hnone =>
      have hpresents : ∀ verdict, ¬ (⟨clock.now, r, verdict⟩ : AuthCall).Presents a.settings nonce := by
        rintro verdict ⟨credentials, password, hpresents, -⟩
        exact hnone _ _ hpresents
      rw [issues_challenge_iff]
      simp only [challenge, Nonces.isOut_issue_iff h, hpresents, false_and, not_false_eq_true, and_true]
  | lapsed c password hpresents hout =>
      have hspent : ¬ (nonce = c.nonce ∧ a.store.IsOut clock.now nonce) := by
        rintro ⟨rfl, hopen⟩
        exact hout hopen
      rw [AuthCall.presents_iff hpresents, issues_challenge_iff { a with store := a.store.prune clock.now }]
      simp only [challenge, Nonces.isOut_issue_iff h, Nonces.isOut_prune_iff h, hspent, not_false_eq_true,
        and_true]
  | refused c password hpresents hout hwrong =>
      have hspent : nonce = c.nonce ∧ a.store.IsOut clock.now nonce ↔ nonce = c.nonce :=
        and_iff_left_of_imp fun heq => heq ▸ hout
      rw [AuthCall.presents_iff hpresents,
        issues_challenge_iff { a with store := (a.store.prune clock.now).spend c.nonce }, hspent]
      simp only [challenge, Nonces.isOut_issue_iff h, Nonces.isOut_spend_iff, Nonces.isOut_prune_iff h]
  | granted c password hpresents hout hright =>
      have hspent : nonce = c.nonce ∧ a.store.IsOut clock.now nonce ↔ nonce = c.nonce :=
        and_iff_left_of_imp fun heq => heq ▸ hout
      have hnew : ¬ (⟨clock.now, r, .authorized⟩ : AuthCall).Issues a.settings.realm nonce := by
        rintro ⟨stale, hissues⟩
        cases hissues
      rw [AuthCall.presents_iff hpresents, hspent]
      simp only [Nonces.isOut_spend_iff, Nonces.isOut_prune_iff h, hnew, false_and, false_or,
        not_false_eq_true, true_and]

/-- A call is authorized exactly when it presents a nonce that is out and answers it. -/
theorem authorized_iff :
    (a.authenticate clock r).1 = .authorized ↔
      ∃ c password, a.settings.Presents r c password ∧ a.store.IsOut clock.now c.nonce ∧
        c.Answer r.method a.settings.realm password := by
  have hattempted := a.attempted clock r
  generalize a.authenticate clock r = result at hattempted ⊢
  cases hattempted with
  | unpresented hnone =>
      refine ⟨fun h => (by cases h), ?_⟩
      rintro ⟨c, password, hpresents, -⟩
      exact absurd hpresents (hnone c password)
  | lapsed c password hpresents hout =>
      refine ⟨fun h => (by cases h), ?_⟩
      rintro ⟨c', password', hpresents', hout', -⟩
      obtain ⟨rfl, rfl⟩ := hpresents.unique hpresents'
      exact absurd hout' hout
  | refused c password hpresents hout hwrong =>
      refine ⟨fun h => (by cases h), ?_⟩
      rintro ⟨c', password', hpresents', -, hright⟩
      obtain ⟨rfl, rfl⟩ := hpresents.unique hpresents'
      exact absurd hright hwrong
  | granted c password hpresents hout hright =>
      exact ⟨fun _ => ⟨c, password, hpresents, hout, hright⟩, fun _ => rfl⟩

end Authenticator

/-! Many calls. -/

/-- What happens to an authenticator: it is called, or time passes. -/
inductive AuthEvent where
  | call (r : Request)
  | time (d : Duration)

/-- An authenticator with the time and the calls so far, the latest first. -/
structure AuthRun where
  authenticator : Authenticator
  clock : Clock
  calls : List AuthCall := []

namespace AuthRun

def step (run : AuthRun) : AuthEvent → AuthRun
  | .call r =>
    { run with
      authenticator := (run.authenticator.authenticate run.clock r).2
      calls := run.authenticator.callOf run.clock r :: run.calls }
  | .time d => { run with clock := run.clock.advance d }

/-- A run whose nonces that are out are the good ones, and in which each call was decided by what it was
entitled to. -/
structure Faithful (s : AuthSettings) (run : AuthRun) : Prop where
  settings : run.authenticator.settings = s
  past : ∀ c ∈ run.calls, c.time ≤ run.clock.now
  out : ∀ later nonce, run.clock.now ≤ later →
    (run.authenticator.store.IsOut later nonce ↔ AuthCall.Good s nonce later run.calls)
  decided : ∀ later c earlier, run.calls = later ++ c :: earlier →
    (c.verdict = .authorized ↔ c.Entitled s earlier)

variable {s : AuthSettings} {run : AuthRun}

theorem Faithful.call (h : run.Faithful s) (r : Request) : (run.step (.call r)).Faithful s := by
  have hsettings := h.settings
  refine ⟨(run.authenticator.settings_authenticate run.clock r).trans hsettings, ?_, ?_, ?_⟩
  · intro c hc
    rcases List.mem_cons.mp hc with rfl | hc
    · exact Int.le_refl _
    · exact h.past c hc
  · intro later nonce hlater
    show (run.authenticator.authenticate run.clock r).2.store.IsOut later nonce ↔ _
    rw [run.authenticator.isOut_authenticate_iff run.clock r hlater, h.out later nonce hlater,
      h.out run.clock.now nonce (Int.le_refl _), hsettings]
    -- A nonce that is told again was not good for longer than it is from now on.
    have hfresh : AuthCall.Good s nonce later run.calls →
        later.since run.clock.now < Nonces.lifeTime := fun hgood => hgood.since_lt h.past
    constructor
    · rintro (hnew | ⟨-, hkept⟩)
      · exact .inl hnew
      · exact .inr hkept
    · rintro (hnew | ⟨hgood, hkept⟩)
      · exact .inl hnew
      · by_cases hissues : (run.authenticator.callOf run.clock r).Issues s.realm nonce
        · exact .inl ⟨hissues, hfresh hgood⟩
        · exact .inr ⟨hissues, hgood, hkept⟩
  · intro later c earlier heq
    rcases List.cons_eq_append_iff.mp heq with ⟨rfl, hcons⟩ | ⟨rest, rfl, hrest⟩
    · obtain ⟨rfl, rfl⟩ := List.cons.inj hcons
      rw [Authenticator.callOf, run.authenticator.authorized_iff run.clock r, hsettings]
      simp only [AuthCall.Entitled, h.out run.clock.now _ (Int.le_refl _)]
    · exact h.decided rest c earlier hrest

theorem Faithful.time (h : run.Faithful s) (d : Duration) : (run.step (.time d)).Faithful s := by
  have hlater : run.clock.now ≤ run.clock.now + d := Int.le_add_of_nonneg_right (Int.natCast_nonneg d)
  exact ⟨h.settings, fun c hc => Int.le_trans (h.past c hc) hlater,
    fun later nonce hle => h.out later nonce (Int.le_trans hlater hle), h.decided⟩

theorem Faithful.steps (h : run.Faithful s) (events : List AuthEvent) :
    (events.foldl step run).Faithful s := by
  induction events generalizing run with
  | nil => exact h
  | cons event rest ih =>
      cases event with
      | call r => exact ih (h.call r)
      | time d => exact ih (h.time d)

/-- A run that begins, before any call. -/
def start (s : AuthSettings) (processId : Nat) (clock : Clock) : AuthRun :=
  { authenticator := { settings := s, processId := processId }, clock := clock }

theorem faithful_start (s : AuthSettings) (processId : Nat) (clock : Clock) :
    (start s processId clock).Faithful s where
  settings := rfl
  past c hc := by cases hc
  out later nonce _ := by simp [start, AuthCall.Good, Nonces.IsOut, Nonces.fresh]
  decided later c earlier h := by simp [start] at h

/-- In every run a call is authorized exactly when it is entitled to it by the calls before; no nonce is
granted more often than it was issued; and a nonce that is presented for the first time within its life
time, and answered, is granted whatever other clients were told in between. -/
theorem steps_decided (s : AuthSettings) (processId : Nat) (clock : Clock) (events : List AuthEvent) :
    let calls := (events.foldl step (start s processId clock)).calls
    (∀ later c earlier, calls = later ++ c :: earlier →
      (c.verdict = .authorized ↔ c.Entitled s earlier)) ∧
    (∀ nonce, calls.countP (fun c => c.Grants nonce) ≤ calls.countP fun c => c.Issues s.realm nonce) ∧
    ∀ later c between issuer earlier, calls = later ++ c :: (between ++ issuer :: earlier) →
      ∀ credentials password, s.Presents c.request credentials password →
        credentials.Answer c.request.method s.realm password →
        issuer.Issues s.realm credentials.nonce → c.time.since issuer.time < Nonces.lifeTime →
        (∀ other ∈ between, ¬ other.Presents s credentials.nonce) → c.verdict = .authorized := by
  have hfaithful := (faithful_start s processId clock).steps events
  refine ⟨hfaithful.decided, fun nonce => (AuthCall.countP_grants_le nonce hfaithful.decided).1, ?_⟩
  intro later c between issuer earlier heq credentials password hpresents hanswer hissues hfresh hbetween
  have hgood := AuthCall.good_of_unpresented hissues hfresh hbetween earlier
  exact (hfaithful.decided later c _ heq).mpr ⟨credentials, password, hpresents, hgood, hanswer⟩

/-! A client that is challenged and answers 299 seconds later. -/

namespace Login

def settings : AuthSettings := ⟨"home".toList, [⟨"alice".toList, "secret".toList⟩]⟩

def uri : Uri := ⟨some .sip, none, ⟨.domain "home".toList, none⟩, []⟩

def request (fields : Headers) : Request := ⟨.register, uri, .two, fields, []⟩

/-- The credentials, but for their digest. -/
def unsigned : Credentials :=
  { isDigest := true
    username := "alice".toList
    realm := "home".toList
    nonce := Nonces.nonceText 1 0 7
    uri := uri
    response := []
    algorithm := none
    protection := none }

def credentials : Credentials :=
  { unsigned with response := unsigned.digest .register "home".toList "secret".toList }

def field : Header :=
  .of .proxyAuthorization <|
    "Digest username=\"alice\", realm=\"home\", uri=\"sip:home\", nonce=\"".toList ++
      credentials.nonce ++ "\", response=".toList ++ credentials.response

def events : List AuthEvent :=
  [.call (request []), .time (.seconds 299), .call (request [field])]

end Login

open Login in
theorem steps_decided_login :
    ∃ c issuer, (events.foldl step (start settings 7 ⟨0, 0⟩)).calls = [c, issuer] ∧
      issuer.Issues settings.realm credentials.nonce ∧ c.verdict = .authorized := by
  have hpresents : settings.Presents (request [field]) credentials "secret".toList :=
    ⟨by decide +kernel, rfl, rfl, by decide +kernel⟩
  have hanswer : credentials.Answer .register settings.realm "secret".toList :=
    ⟨.inl rfl, .inl rfl, by decide +kernel⟩
  have hissues : ((start settings 7 ⟨0, 0⟩).authenticator.callOf ⟨0, 0⟩ (request [])).Issues
      settings.realm credentials.nonce := by decide +kernel
  refine ⟨_, _, rfl, hissues, ?_⟩
  exact (steps_decided settings 7 ⟨0, 0⟩ events).2.2 [] _ [] _ [] rfl credentials "secret".toList
    hpresents hanswer hissues (by decide +kernel) fun other hother => absurd hother List.not_mem_nil

end AuthRun

end BorderProxy
