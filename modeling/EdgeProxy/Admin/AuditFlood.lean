import EdgeProxy.Admin.Unauthenticated

/-! # What unauthenticated requests add to the audit ledger

A failed login is recorded once a minute at most. Setup requests and logins after a lockout are
recorded every time, whoever sends them.
-/

namespace EdgeProxy

open Rust List AuditIdentifier

section Texts

variable {α : Type}

theorem starts_separated {needle right : List α} {separator : α} (h : separator ∉ needle)
    (left : List α) (hstarts : needle <+: left ++ separator :: right) : needle <+: left := by
  have hleft : left ++ [separator] <+: left ++ separator :: right := by simp
  rcases prefix_or_prefix_of_prefix hstarts hleft with hneedle | hneedle
  · rcases prefix_concat_iff.mp hneedle with rfl | hneedle
    · exact absurd (by simp) h
    · exact hneedle
  · exact absurd (hneedle.subset (by simp)) h

theorem occurs_separated {needle left right : List α} {separator : α} (h : separator ∉ needle)
    (hoccurs : needle <:+: left ++ separator :: right) :
    needle <:+: left ∨ needle <:+: right := by
  induction left with
  | nil =>
    rcases infix_cons_iff.mp hoccurs with hstarts | hoccurs
    · exact .inl (starts_separated h [] hstarts).isInfix
    · exact .inr hoccurs
  | cons a left ih =>
    rcases infix_cons_iff.mp hoccurs with hstarts | hoccurs
    · exact .inl (starts_separated h (a :: left) hstarts).isInfix
    · exact (ih hoccurs).imp_left fun h => h.trans (suffix_cons a left).isInfix

theorem isAuditCharacter_of_parse {value : Text} {id : AuditIdentifier}
    (h : parse value = .ok id) {c : Char} (hc : c ∈ value) :
    isAuditCharacter c = true := by
  have hvalid := id.valid
  rw [parse_eq_ok h] at hvalid
  exact all_eq_true.mp (all_isAuditCharacter_of_validate hvalid) c hc

theorem jsonEscape_of_audit {value : Text} (h : ∀ c ∈ value, isAuditCharacter c = true) :
    jsonEscape value = value := by
  rw [jsonEscape]
  induction value with
  | nil => rfl
  | cons _ _ ih =>
    obtain ⟨hc, hvalue⟩ := forall_mem_cons.mp h
    rw [flatMap_cons, ih hvalue]
    split
    all_goals first
      | exact absurd hc (by decide)
      | rfl

theorem occurs_invalidCredentialsJson {needle message requestId : Text} (hquote : '"' ∉ needle)
    (h : needle <:+: invalidCredentialsJson message requestId) :
    needle <:+: invalidCredentialsHead ++ jsonEscape message ++ invalidCredentialsHint ∨
      needle <:+: jsonEscape requestId ∨ needle <:+: ['\x7d'] :=
  (occurs_separated hquote h).imp_right (occurs_separated hquote)

theorem invalid_credentials_no_lockout {requestId : Text} {id : AuditIdentifier}
    (h : parse requestId = .ok id) :
    ¬ "too many failed attempts".toList <:+:
      invalidCredentialsJson "invalid credentials".toList requestId := by
  have hquote : '"' ∉ "too many failed attempts".toList := by decide
  intro hoccurs
  rcases occurs_invalidCredentialsJson hquote hoccurs with hoccurs | hoccurs | hoccurs
  · revert hoccurs
    decide +kernel
  · have hrequest (c : Char) (hc : c ∈ requestId) : isAuditCharacter c = true :=
      isAuditCharacter_of_parse h hc
    have hspace : ' ' ∈ "too many failed attempts".toList := by decide
    rw [jsonEscape_of_audit hrequest] at hoccurs
    exact absurd (hrequest ' ' (hoccurs.subset hspace)) (by decide)
  · revert hoccurs
    decide

end Texts

section Sampling

def AuditRecord.time (record : AuditRecord) : ℕ := record.context.receivedAtEpochSeconds

def AuditRecord.within (start : ℕ) (record : AuditRecord) : Bool :=
  start ≤ record.time && record.time < start + authFailureAuditSampleIntervalSeconds

/-- Records that are a minute apart, none later than the last observation. -/
structure Spaced (records : List AuditRecord) (last : Option ℕ) : Prop where
  apart : records.Pairwise fun a b => a.time + authFailureAuditSampleIntervalSeconds ≤ b.time
  bounded : ∀ record ∈ records, ∃ time ∈ last, record.time ≤ time

variable {records : List AuditRecord} {last : Option ℕ}

theorem Spaced.countP_le (h : Spaced records last) (start : ℕ) :
    records.countP (·.within start) ≤ 1 := by
  have hfilter := h.apart.filter (·.within start)
  rw [countP_eq_length_filter]
  rcases hwithin : records.filter (·.within start) with _ | ⟨a, _ | ⟨b, rest⟩⟩
  · simp [hwithin]
  · simp [hwithin]
  · have hmem (record : AuditRecord) (hrecord : record ∈ a :: b :: rest) :
        record.within start = true := by
      rw [← hwithin] at hrecord
      exact (mem_filter.mp hrecord).2
    have ha := hmem a (by simp)
    have hb := hmem b (by simp)
    rw [hwithin] at hfilter
    have hab := (pairwise_cons.mp hfilter).1 b (by simp)
    simp only [AuditRecord.within, Bool.and_eq_true, decide_eq_true_eq] at ha hb
    omega

theorem Spaced.later (h : Spaced records last) {now : ℕ}
    (hfresh : ∀ time ∈ last, time + authFailureAuditSampleIntervalSeconds ≤ now)
    {record : Option AuditRecord} (htime : ∀ r ∈ record, r.time = now) :
    Spaced (records ++ record.toList) (some now) := by
  have hbefore (r : AuditRecord) (hr : r ∈ records) :
      r.time + authFailureAuditSampleIntervalSeconds ≤ now := by
    obtain ⟨time, htime, hle⟩ := h.bounded r hr
    exact le_trans (Nat.add_le_add_right hle _) (hfresh time htime)
  constructor
  · rw [pairwise_append]
    refine ⟨h.apart, ?_, fun a ha b hb => ?_⟩
    · rcases record with _ | r
      · exact .nil
      · simp
    · rw [htime b (Option.mem_toList.mp hb)]
      exact hbefore a ha
  · intro r hr
    refine ⟨now, rfl, ?_⟩
    rcases mem_append.mp hr with hr | hr
    · exact le_trans (Nat.le_add_right _ _) (hbefore r hr)
    · exact (htime r (Option.mem_toList.mp hr)).le

namespace AuthFailureAuditSampler

theorem shouldRecord_cases (target : AuditTargetId) (now : ℕ) (sampler : AuthFailureAuditSampler) :
    sampler.shouldRecord target now = (false, sampler) ∨
      (∀ time ∈ sampler.lookup target, time + authFailureAuditSampleIntervalSeconds ≤ now) ∧
        ∃ sampler', sampler.shouldRecord target now = (true, sampler') ∧
          sampler'.lookup target = some now := by
  rw [shouldRecord]
  split_ifs with hrecent
  · exact .inl rfl
  · refine .inr ⟨fun time htime => ?_, _, rfl, AList.lookup_insert _⟩
    rw [Option.mem_def.mp htime] at hrecent
    simp only [Option.any_some, authFailureAuditSampleIntervalSeconds] at hrecent ⊢
    have hold : ¬ now - time < 60 := fun hlt => hrecent (decide_eq_true hlt)
    omega

end AuthFailureAuditSampler

end Sampling

section Steps

variable {κ : Type} [SecretStore κ] {τ : StoreTypes} {request : AdminHttpRequest}
  {state : AdminState κ}

def AdminHttpRequest.HasPassword (request : AdminHttpRequest) (state : AdminState κ) : Prop :=
  ∃ authenticator ∈ state.authenticator,
    jsonStringField request.body "password_hash".toList = some authenticator.passwordHash

def AdminState.LockedOut (state : AdminState κ) : Prop :=
  ∃ authenticator ∈ state.authenticator,
    authenticator.maxFailedAttempts ≤ authenticator.failedAttempts

omit [SecretStore κ] in
theorem login_wrong {authenticator : AdminAuthenticator}
    (hsome : state.authenticator = some authenticator) (hpassword : ¬ request.HasPassword state)
    (hopen : ¬ state.LockedOut) :
    (handleLogin request authenticator state).1.statusCode ≠ 200 ∧
      ∀ error requestId, (handleLogin request authenticator state).1 = .error 401 error requestId →
        error.message = "invalid credentials" ∧ requestId = request.requestId := by
  rw [handleLogin]
  rcases hfield : jsonStringField request.body "password_hash".toList with _ | passwordHash
  · simp
  · have hopen : ¬ authenticator.failedAttempts ≥ authenticator.maxFailedAttempts :=
      fun hle => hopen ⟨authenticator, hsome, hle⟩
    have hwrong : passwordHash ≠ authenticator.passwordHash :=
      fun heq => hpassword ⟨authenticator, hsome, by rw [hfield, heq]⟩
    simp only [AdminAuthenticator.login, if_neg hopen, if_pos hwrong]
    refine ⟨by simp, fun error requestId h => ?_⟩
    cases h
    exact ⟨rfl, rfl⟩

omit [SecretStore κ] in
theorem logout_refused (hsession : ¬ request.Carries state.sessions) :
    (handleLogout request state).1.statusCode ≠ 200 := by
  rw [handleLogout]
  rcases hid : request.sessionId with _ | sessionId
  · simp
  · simp only
    rcases hrequire : requireSession state.sessions (some sessionId) with error | _
    · simp
    · simp only
      rcases hcsrf : requireCsrf state.sessions sessionId request.csrfToken with error | _
      · simp
      · refine absurd (carries_of_checks ?_ ?_) hsession
        · rw [hid]
          exact hrequire
        · rw [hid]
          exact hcsrf

theorem isPost_iff {path : Text} :
    (decide (request.method = .post) && decide (request.path = path)) = true ↔
      request.method = .post ∧ request.path = path := by
  rw [Bool.and_eq_true, decide_eq_true_iff, decide_eq_true_iff]

theorem not_other_path {path other : Text} (hpath : request.path = path) (hne : path ≠ other) :
    ¬ (request.method = .post ∧ request.path = other) :=
  fun h => hne (hpath.symm.trans h.2)

/-- What is observed of a login that fails before a lockout, and of a logout without a session. -/
structure Unobserved (request : AdminHttpRequest) (response : AdminHttpResponse) : Prop where
  login : isLoginRequest request = true → response.statusCode ≠ 200 ∧
    ∀ error requestId, response = .error 401 error requestId →
      error.message = "invalid credentials" ∧ requestId = request.requestId
  logout : isLogoutRequest request = true → response.statusCode ≠ 200

theorem unobserved (hsession : ¬ request.Carries state.sessions)
    (hpassword : ¬ request.HasPassword state)
    (hopen : isLoginRequest request = true → ¬ state.LockedOut) (dispatch : Dispatch) :
    Unobserved request (handleStatefulHttpRequest dispatch request state).1 := by
  constructor
  · intro hlogin
    have hpost := isPost_iff.mp hlogin
    rw [handleStatefulHttpRequest, if_neg (not_other_path hpost.2 (by decide)),
      if_pos hpost]
    rcases hsome : state.authenticator with _ | authenticator
    · simp [setupRequiredResponse]
    · exact login_wrong hsome hpassword (hopen hlogin)
  · intro hlogout
    have hpost := isPost_iff.mp hlogout
    rw [handleStatefulHttpRequest, if_neg (not_other_path hpost.2 (by decide)),
      if_neg (not_other_path hpost.2 (by decide)), if_pos hpost]
    split_ifs
    · simp [setupRequiredResponse]
    · exact logout_refused hsession

end Steps

section Recorded

variable {κ : Type} {τ : StoreTypes} {request : AdminHttpRequest} {response : AdminHttpResponse}
  {env : ConnectionEnv}

def bootstrapAdmin : AuditTargetId := ⟨"bootstrap-admin".toList, by decide⟩

theorem auditTargetBootstrapAdmin_eq : auditTargetBootstrapAdmin = some bootstrapAdmin := by
  rw [auditTargetBootstrapAdmin]
  exact congrArg Except.toOption (parse_value bootstrapAdmin)

inductive Observation (env : ConnectionEnv) (request : AdminHttpRequest)
    (sampler : AuthFailureAuditSampler) : Option AuditAction × AuthFailureAuditSampler → Prop
  | nothing : Observation env request sampler (none, sampler)
  | unrecordable (h : ∀ id, AuditIdentifier.parse request.requestId ≠ .ok id) :
      Observation env request sampler (some .adminLockout, sampler)
  | sampled (now : ℕ) (sampler' : AuthFailureAuditSampler) (hnow : env.now = some now)
      (hfresh : ∀ time ∈ sampler.lookup bootstrapAdmin,
        time + authFailureAuditSampleIntervalSeconds ≤ now)
      (hlast : sampler'.lookup bootstrapAdmin = some now) :
      Observation env request sampler (some .adminAuthFailureSampled, sampler')

theorem Unobserved.observation (h : Unobserved request response) (env : ConnectionEnv)
    (sampler : AuthFailureAuditSampler) :
    Observation env request sampler (observedAction env request response sampler) := by
  unfold observedAction
  split_ifs with hlogin hlogout
  · obtain ⟨hlogin, hstatus⟩ := Bool.and_eq_true_iff.mp hlogin
    exact absurd (of_decide_eq_true hstatus) (h.login hlogin).1
  · obtain ⟨hlogout, hstatus⟩ := Bool.and_eq_true_iff.mp hlogout
    exact absurd (of_decide_eq_true hstatus) (h.logout hlogout)
  clear hlogin hlogout
  split
  · next error requestId hlogin =>
    obtain ⟨hmessage, rfl⟩ := (h.login hlogin).2 error requestId rfl
    rw [hmessage]
    split_ifs with hlockout
    · exact .unrecordable fun id hid => invalid_credentials_no_lockout hid hlockout
    · rw [auditTargetBootstrapAdmin_eq]
      rcases hnow : env.now with _ | now
      · exact .nothing
      · rcases sampler.shouldRecord_cases bootstrapAdmin now with hrecent |
          ⟨hfresh, sampler', hrecord, hlast⟩
        · simp only [hrecent]
          exact .nothing
        · simp only [hrecord]
          exact .sampled now sampler' hnow hfresh hlast
  · exact .nothing

def AdminHttpServerState.records (server : AdminHttpServerState κ τ) : List AuditRecord :=
  (server.durableAudit.map (·.records)).getD []

def AdminHttpServerState.lastObserved (server : AdminHttpServerState κ τ) : Option ℕ :=
  server.authFailureAuditSampler.lookup bootstrapAdmin

/-- What one connection adds to the ledger: nothing, or an observation long enough after the
last. -/
inductive Recorded (server server' : AdminHttpServerState κ τ) : Prop
  | quiet (hrecords : server'.records = server.records)
      (hlast : server'.lastObserved = server.lastObserved)
  | sampled (now : ℕ) (record : Option AuditRecord)
      (hfresh : ∀ time ∈ server.lastObserved, time + authFailureAuditSampleIntervalSeconds ≤ now)
      (hlast : server'.lastObserved = some now) (htime : ∀ r ∈ record, r.time = now)
      (hrecords : server'.records = server.records ++ record.toList)

theorem adminAuditContext_eq_ok {context : AuditContext}
    (h : adminAuditContext env request = .ok context) :
    (∃ id, parse request.requestId = .ok id) ∧
      env.now = some context.receivedAtEpochSeconds := by
  rw [adminAuditContext] at h
  rcases hid : parse request.requestId with _ | id
  · simp [hid] at h
  · simp only [hid] at h
    generalize parse ("operation-".toList ++ request.requestId) = operation at h
    rcases operation with _ | operationId
    · simp at h
    · rcases hnow : env.now with _ | now
      · simp [hnow] at h
      · simp only [hnow] at h
        cases h
        exact ⟨⟨id, rfl⟩, rfl⟩

theorem recordSecurityObservation_records (fails : Option AppError)
    (input : AuditSecurityObservationInput) (audit : DurableAudit) :
    ∃ record : Option AuditRecord, (∀ r ∈ record, r.context = input.context) ∧
      (recordSecurityObservation (durablePorts fails) (appendRecord fails) input audit).2.records =
        audit.records ++ record.toList := by
  rw [recordSecurityObservation]
  split_ifs
  · exact ⟨none, by simp, (append_nil _).symm⟩
  · exact ⟨none, by simp, (append_nil _).symm⟩
  · rcases fails with _ | error
    · exact ⟨some input.record, fun r hr => Option.some.inj hr ▸ rfl, rfl⟩
    · exact ⟨none, by simp, (append_nil _).symm⟩

theorem Unobserved.recorded (h : Unobserved request response) (env : ConnectionEnv)
    (server : AdminHttpServerState κ τ) :
    Recorded server (recordAuthObservation env request response server) := by
  have hobservation := h.observation env server.authFailureAuditSampler
  unfold recordAuthObservation
  rcases haudit : server.durableAudit with _ | audit
  · exact .quiet rfl rfl
  simp only
  generalize observedAction env request response server.authFailureAuditSampler = observed
    at hobservation
  rw [auditTargetBootstrapAdmin_eq]
  have hsame : AdminHttpServerState.records { server with durableAudit := some audit } =
      server.records := by
    rw [← haudit]
  cases hobservation with
  | nothing => exact .quiet hsame rfl
  | unrecordable hid =>
    rcases hcontext : adminAuditContext env request with error | context
    · exact .quiet hsame rfl
    · obtain ⟨⟨id, hparse⟩, -⟩ := adminAuditContext_eq_ok hcontext
      exact absurd hparse (hid id)
  | sampled now _ hnow hfresh hlast =>
    rcases hcontext : adminAuditContext env request with error | context
    · refine .sampled now none hfresh hlast (by simp) ?_
      rw [Option.toList_none, append_nil]
      exact hsame
    · obtain ⟨-, htime⟩ := adminAuditContext_eq_ok hcontext
      obtain ⟨record, hcontexts, hrecords⟩ := recordSecurityObservation_records
        (env.appendFails 0) ⟨context, .adminAuthFailureSampled, bootstrapAdmin, .observed⟩ audit
      refine .sampled now record hfresh hlast (fun r hr => ?_) ?_
      · rw [AuditRecord.time, hcontexts r hr]
        exact Option.some.inj (htime.symm.trans hnow)
      · rw [← hsame]
        exact hrecords

end Recorded

section Runs

variable {κ : Type} [SecretStore κ] {τ : StoreTypes}

/-- The request carries neither a live session with its CSRF token nor the password. -/
structure Unprivileged (state : AdminState κ) (raw : Text) : Prop where
  session : ∀ request, parseAdminHttpRequest raw "admin-http".toList = .ok request →
    ¬ request.Carries state.sessions
  password : ∀ request, parseAdminHttpRequest raw "admin-http".toList = .ok request →
    ¬ request.HasPassword state

structure Sampled (state : AdminState κ) (raw : Text) : Prop where
  setup : ∀ request, parseAdminHttpRequest raw "admin-http".toList = .ok request →
    ¬ isSetupRequest request = true
  lockout : ∀ request, parseAdminHttpRequest raw "admin-http".toList = .ok request →
    isLoginRequest request = true → ¬ state.LockedOut

variable (handlers : AdminHandlers κ τ) (connections : List (ConnectionEnv × Text))

def AdminHttpServerState.after (server : AdminHttpServerState κ τ) : AdminHttpServerState κ τ :=
  connections.foldl
    (fun server connection => (handleAdminHttpStream handlers connection.1 connection.2 server).2)
    server

def Along (handlers : AdminHandlers κ τ) (P : AdminState κ → Text → Prop) :
    List (ConnectionEnv × Text) → AdminHttpServerState κ τ → Prop
  | [], _ => True
  | (env, raw) :: connections, server =>
    P server.admin raw ∧
      Along handlers P connections (handleAdminHttpStream handlers env raw server).2

variable {server : AdminHttpServerState κ τ}

theorem recorded_step (env : ConnectionEnv) {raw : Text}
    (hunprivileged : Unprivileged server.admin raw) (hsampled : Sampled server.admin raw) :
    Recorded server (handleAdminHttpStream handlers env raw server).2 := by
  rw [handleAdminHttpStream]
  split_ifs
  · exact .quiet rfl rfl
  rcases hrequest : parseAdminHttpRequest raw "admin-http".toList with error | request
  · exact .quiet rfl rfl
  simp only
  have hsession := hunprivileged.session request hrequest
  rcases handleAdminRequest_cases hsession handlers env with hsame | hunbound
  · rw [hsame]
    exact .quiet rfl rfl
  have hsetup : isSetupRequest request = false :=
    Bool.eq_false_iff.mpr (hsampled.setup request hrequest)
  rw [hunbound, handleUnbound, hsetup]
  have hobserved : Unobserved request (handleStateful handlers request server).1 :=
    unobserved hsession (hunprivileged.password request hrequest)
      (hsampled.lockout request hrequest) _
  rcases hobserved.recorded env (handleStateful handlers request server).2 with
    ⟨hrecords, hlast⟩ | ⟨now, record, hfresh, hlast, htime, hrecords⟩
  · exact .quiet hrecords hlast
  · exact .sampled now record hfresh hlast htime hrecords

theorem spaced_run (hunprivileged : Along handlers Unprivileged connections server)
    (hsampled : Along handlers Sampled connections server) {base appended : List AuditRecord}
    (hrecords : server.records = base ++ appended) (hspaced : Spaced appended server.lastObserved) :
    ∃ appended', (server.after handlers connections).records = base ++ appended' ∧
      Spaced appended' (server.after handlers connections).lastObserved := by
  induction connections generalizing server appended with
  | nil => exact ⟨appended, hrecords, hspaced⟩
  | cons connection _ ih =>
    obtain ⟨env, _⟩ := connection
    obtain ⟨hstep, hunprivileged⟩ := hunprivileged
    obtain ⟨hquiet, hsampled⟩ := hsampled
    rcases recorded_step handlers env hstep hquiet with
      ⟨hsame, hlast⟩ | ⟨now, record, hfresh, hlast, htime, hadded⟩
    · refine ih hunprivileged hsampled (hsame.trans hrecords) ?_
      rw [hlast]
      exact hspaced
    · have hadded := hadded.trans (by rw [hrecords, append_assoc])
      refine ih hunprivileged hsampled hadded ?_
      rw [hlast]
      exact hspaced.later hfresh htime

/-- Without setup requests and logins after a lockout, unauthenticated connections add one record
a minute at most. -/
theorem unauthenticated_records_sampled (handlers : AdminHandlers κ τ)
    (server : AdminHttpServerState κ τ) (connections : List (ConnectionEnv × Text))
    (hunprivileged : Along handlers Unprivileged connections server)
    (hsampled : Along handlers Sampled connections server) :
    ∃ appended, (server.after handlers connections).records = server.records ++ appended ∧
      ∀ start, appended.countP (·.within start) ≤ 1 := by
  have hbefore : Spaced [] server.lastObserved := ⟨.nil, by simp⟩
  obtain ⟨appended, hrecords, hspaced⟩ := spaced_run handlers connections hunprivileged hsampled
    (append_nil server.records).symm hbefore
  exact ⟨appended, hrecords, hspaced.countP_le⟩

end Runs

section Flood

variable {κ : Type} [SecretStore κ] {τ : StoreTypes} {server : AdminHttpServerState κ τ}
  {request : AdminHttpRequest} {env : ConnectionEnv}

theorem handleAdminRequest_setup (h : isSetupRequest request = true)
    (handlers : AdminHandlers κ τ) (env : ConnectionEnv) (server : AdminHttpServerState κ τ) :
    handleAdminRequest handlers env request server = handleUnbound handlers env request server := by
  obtain ⟨hmethod, hpath⟩ := isPost_iff.mp h
  have hget : (decide (request.method = .get)) = false := by
    rw [hmethod]
    rfl
  have hasset : (isStaticAdminAsset request || isProbeRequest request) = false := by
    rw [isStaticAdminAsset, isProbeRequest, hget]
    rfl
  have hread : isReadRequest request = false := by
    rw [isReadRequest, hget]
    rfl
  have htrust : isTrustBundleRequest request = false := by
    rw [isTrustBundleRequest, hmethod, hpath]
    decide
  have hobserve : isObservabilityRequest request = false := by
    rw [isObservabilityRequest, hget]
    rfl
  have hcertificate : isBoundCertificateMutationRequest request = false := by
    rw [isBoundCertificateMutationRequest, hmethod, hpath]
    decide
  have hlifecycle : isBoundLifecycleRequest request = false := by
    rw [isBoundLifecycleRequest, hmethod, hpath]
    decide
  rw [handleAdminRequest, hasset, if_neg Bool.false_ne_true,
    if_neg (not_other_path hpath (by decide)), hread, if_neg Bool.false_ne_true, htrust,
    hobserve]
  simp only [Bool.false_eq_true, if_false, hcertificate, hlifecycle]
  split
  · rfl
  · rfl

omit [SecretStore κ] in
theorem recordAuthObservation_setup (h : isSetupRequest request = true)
    (response : AdminHttpResponse) :
    recordAuthObservation env request response server = server := by
  obtain ⟨-, hpath⟩ := isPost_iff.mp h
  have hlogin : isLoginRequest request = false :=
    Bool.eq_false_iff.mpr fun h => not_other_path hpath (by decide) (isPost_iff.mp h)
  have hlogout : isLogoutRequest request = false :=
    Bool.eq_false_iff.mpr fun h => not_other_path hpath (by decide) (isPost_iff.mp h)
  have hnothing : observedAction env request response server.authFailureAuditSampler =
      (none, server.authFailureAuditSampler) := by
    unfold observedAction
    rw [hlogin, hlogout]
    rfl
  unfold recordAuthObservation
  rcases haudit : server.durableAudit with _ | audit
  · rfl
  · simp only [hnothing]
    rw [← haudit]

omit [SecretStore κ] in
theorem completing_refused (request : AdminHttpRequest) (operation : AuditPersistentOperationInput)
    (requestId : Text) (happends : ∀ n, env.appendFails n = none) {audit : DurableAudit}
    (haudit : server.durableAudit = some audit) :
    ∃ terminal : AuditRecord, terminal.context = operation.context ∧
      completing env request operation (fun _ => none)
        (setupAlreadyCompleteResponse requestId, server) =
      (setupAlreadyCompleteResponse requestId, { server with
        durableAudit := some { audit with records := audit.records ++ [terminal] } }) := by
  obtain ⟨code, hcode⟩ : ∃ code,
      stableErrorCode (setupAlreadyCompleteResponse requestId) = some code := by
    refine Option.isSome_iff_exists.mp ?_
    rw [stableErrorCode, setupAlreadyCompleteResponse, AdminHttpResponse.errorCode]
    decide
  have hcommitted : (setupAlreadyCompleteResponse requestId).committed = false := rfl
  refine ⟨recordForOperation operation .terminal (some .failed) none (some code), rfl, ?_⟩
  rw [completing]
  simp only [haudit, completeAuditedAdminResponse, hcommitted, hcode, happends]
  rfl

variable {records : List AuditRecord}

theorem handleUnbound_setup (h : isSetupRequest request = true) {context : AuditContext}
    (hcontext : adminAuditContext env request = .ok context)
    (happends : ∀ n, env.appendFails n = none)
    (haudit : server.durableAudit = some ⟨records, .healthy⟩)
    (hcomplete : server.admin.SetupComplete) (handlers : AdminHandlers κ τ) :
    ∃ intent terminal : AuditRecord, intent.context = context ∧ terminal.context = context ∧
      (handleUnbound handlers env request server).2 =
        { server with durableAudit := some ⟨records ++ [intent, terminal], .healthy⟩ } := by
  let operation : AuditPersistentOperationInput :=
    ⟨context, .adminSetup, .adminAccount, bootstrapAdmin, none⟩
  let intent := recordForOperation operation .intent none none none
  let begun : AdminHttpServerState κ τ :=
    { server with durableAudit := some ⟨records ++ [intent], .healthy⟩ }
  have hbegin : beginAuditOperation (durablePorts (env.appendFails 0))
      operation ⟨records, .healthy⟩ =
      (.ok ⟨⟩, ⟨records ++ [intent], .healthy⟩) := by
    rw [happends]
    rfl
  have hstateful : handleStateful handlers request begun =
      (setupAlreadyCompleteResponse request.requestId, begun) := by
    rw [handleStateful, handleStatefulHttpRequest, if_pos (isPost_iff.mp h),
      handleSetup_complete hcomplete]
  have hbegun : begun.durableAudit = some ⟨records ++ [intent], .healthy⟩ := rfl
  obtain ⟨terminal, hterminal, hcompleting⟩ :=
    completing_refused request operation request.requestId happends hbegun
  refine ⟨intent, terminal, rfl, hterminal, ?_⟩
  rw [handleUnbound, h, haudit]
  simp only [hcontext, auditTargetBootstrapAdmin_eq]
  rw [hbegin]
  change recordAuthObservation env request
    (completing env request operation (fun _ => none) (handleStateful handlers request begun)).1
    (completing env request operation (fun _ => none) (handleStateful handlers request begun)).2 = _
  rw [hstateful, hcompleting, recordAuthObservation_setup h, append_assoc]
  rfl

def setupAttempt : ConnectionEnv × Text :=
  (⟨some 0, fun _ => none⟩, "POST /api/v1/setup HTTP/1.1\r\n\r\n".toList)

theorem setupAttempt_parsed : ∃ request,
    parseAdminHttpRequest setupAttempt.2 "admin-http".toList = .ok request ∧
      isSetupRequest request = true ∧ request.sessionId = none ∧
        jsonStringField request.body "password_hash".toList = none ∧
          ∃ context, adminAuditContext setupAttempt.1 request = .ok context := by
  have hparsed : ((parseAdminHttpRequest setupAttempt.2 "admin-http".toList).toOption.any
      fun request => isSetupRequest request && request.sessionId.isNone &&
        (jsonStringField request.body "password_hash".toList).isNone &&
          (adminAuditContext setupAttempt.1 request).toOption.isSome) = true := by
    decide +kernel
  rcases hrequest : parseAdminHttpRequest setupAttempt.2 "admin-http".toList with error | request
  · rw [hrequest] at hparsed
    cases hparsed
  rw [hrequest] at hparsed
  simp only [Except.toOption, Option.any_some, Bool.and_eq_true, Option.isNone_iff_eq_none]
    at hparsed
  obtain ⟨⟨⟨hsetup, hsession⟩, hpassword⟩, hcontext⟩ := hparsed
  refine ⟨request, rfl, hsetup, hsession, hpassword, ?_⟩
  rcases hctx : adminAuditContext setupAttempt.1 request with error | context
  · simp [hctx] at hcontext
  · exact ⟨context, rfl⟩

omit [SecretStore κ] in
theorem setupAttempt_unprivileged (state : AdminState κ) : Unprivileged state setupAttempt.2 := by
  obtain ⟨_, hrequest, -, hsession, hpassword, -⟩ := setupAttempt_parsed
  constructor
  · rintro request' hrequest' ⟨sessionId, csrfToken, hid, -⟩
    cases hrequest.symm.trans hrequest'
    exact nomatch hsession.symm.trans hid
  · rintro request' hrequest' ⟨authenticator, -, hhash⟩
    cases hrequest.symm.trans hrequest'
    exact nomatch hpassword.symm.trans hhash

theorem setupAttempt_records (handlers : AdminHandlers κ τ)
    (haudit : server.durableAudit = some ⟨records, .healthy⟩)
    (hcomplete : server.admin.SetupComplete) :
    ∃ intent terminal : AuditRecord, intent.within 0 = true ∧ terminal.within 0 = true ∧
      (handleAdminHttpStream handlers setupAttempt.1 setupAttempt.2 server).2 =
        { server with durableAudit := some ⟨records ++ [intent, terminal], .healthy⟩ } := by
  obtain ⟨_, hrequest, hsetup, -, -, context, hcontext⟩ := setupAttempt_parsed
  obtain ⟨intent, terminal, hintent, hterminal, hafter⟩ := handleUnbound_setup hsetup hcontext
    (fun _ => rfl) haudit hcomplete handlers
  have htime : context.receivedAtEpochSeconds = 0 :=
    (Option.some.inj (adminAuditContext_eq_ok hcontext).2).symm
  have hwithin (record : AuditRecord) (hrecord : record.context = context) :
      record.within 0 = true := by
    rw [AuditRecord.within, AuditRecord.time, hrecord, htime]
    rfl
  refine ⟨intent, terminal, hwithin intent hintent, hwithin terminal hterminal, ?_⟩
  have hnonempty : ¬ setupAttempt.2.isEmpty = true := by decide
  rw [handleAdminHttpStream, if_neg hnonempty, hrequest]
  simp only
  rw [handleAdminRequest_setup hsetup, hafter]

theorem setupAttempts_flood (handlers : AdminHandlers κ τ) (n : ℕ)
    (haudit : server.durableAudit = some ⟨records, .healthy⟩)
    (hcomplete : server.admin.SetupComplete) :
    Along handlers Unprivileged (replicate n setupAttempt) server ∧
      ∃ appended, (server.after handlers (replicate n setupAttempt)).records =
        records ++ appended ∧ appended.countP (·.within 0) = 2 * n := by
  induction n generalizing server records with
  | zero =>
    refine ⟨trivial, [], ?_, rfl⟩
    rw [append_nil]
    simp [AdminHttpServerState.after, AdminHttpServerState.records, haudit]
  | succ _ ih =>
    obtain ⟨intent, terminal, hintent, hterminal, hafter⟩ :=
      setupAttempt_records handlers haudit hcomplete
    have hadmin : (handleAdminHttpStream handlers setupAttempt.1 setupAttempt.2 server).2.admin =
        server.admin := by rw [hafter]
    obtain ⟨halong, appended, hrecords, hcount⟩ :=
      ih (congrArg (·.durableAudit) hafter) (hadmin.symm ▸ hcomplete)
    refine ⟨⟨setupAttempt_unprivileged _, halong⟩, intent :: terminal :: appended, ?_, ?_⟩
    · exact hrecords.trans (append_assoc records [intent, terminal] appended)
    · rw [countP_cons_of_pos hintent, countP_cons_of_pos hterminal, hcount]
      omega

def auditedServer : AdminHttpServerState (List SecretRecord) countingStores :=
  { loggedInServer with durableAudit := some ⟨[], .healthy⟩ }

/-- No constant bounds what unauthenticated requests add within a minute. -/
theorem setup_requests_flood_ledger :
    auditedServer.admin.SetupComplete ∧ auditedServer.records = [] ∧
      ¬ ∃ bound : ℕ, ∀ connections, Along countingHandlers Unprivileged connections auditedServer →
        ∀ start, (auditedServer.after countingHandlers connections).records.countP
          (·.within start) ≤ bound := by
  have hcomplete : auditedServer.admin.SetupComplete := .inl rfl
  refine ⟨hcomplete, rfl, ?_⟩
  rintro ⟨bound, hbound⟩
  have haudit : auditedServer.durableAudit = some ⟨[], .healthy⟩ := rfl
  obtain ⟨halong, _, hrecords, hcount⟩ :=
    setupAttempts_flood countingHandlers (bound + 1) haudit hcomplete
  have hle := hbound _ halong 0
  rw [hrecords, nil_append, hcount] at hle
  omega

def loginAttempt : ConnectionEnv × Text :=
  (⟨some 0, fun _ => none⟩,
    "POST /api/v1/login HTTP/1.1\r\n\r\n\x7b\"password_hash\":\"wrong\"\x7d".toList)

omit [SecretStore κ] in
theorem loginAttempt_conditions {state : AdminState κ}
    (h : ∃ authenticator : AdminAuthenticator, state.authenticator = some authenticator ∧
      authenticator.passwordHash ≠ "wrong".toList ∧
        authenticator.failedAttempts < authenticator.maxFailedAttempts) :
    Unprivileged state loginAttempt.2 ∧ Sampled state loginAttempt.2 := by
  obtain ⟨_, hsome, hhash, hopen⟩ := h
  have hparsed : ((parseAdminHttpRequest loginAttempt.2 "admin-http".toList).toOption.any
      fun request => !isSetupRequest request && request.sessionId.isNone &&
        jsonStringField request.body "password_hash".toList = some "wrong".toList) = true := by
    decide +kernel
  have hrequests (request : AdminHttpRequest)
      (hrequest : parseAdminHttpRequest loginAttempt.2 "admin-http".toList = .ok request) :
      isSetupRequest request = false ∧ request.sessionId = none ∧
        jsonStringField request.body "password_hash".toList = some "wrong".toList := by
    rw [hrequest] at hparsed
    simp only [Except.toOption, Option.any_some, Bool.and_eq_true, Option.isNone_iff_eq_none,
      Bool.not_eq_true', decide_eq_true_iff] at hparsed
    exact ⟨hparsed.1.1, hparsed.1.2, hparsed.2⟩
  refine ⟨⟨?_, ?_⟩, ⟨?_, ?_⟩⟩
  · rintro request hrequest ⟨sessionId, csrfToken, hid, -⟩
    simp [(hrequests request hrequest).2.1] at hid
  · rintro request hrequest ⟨other, hother, hpassword⟩
    cases hsome.symm.trans hother
    exact hhash (Option.some.inj (hpassword.symm.trans (hrequests request hrequest).2.2))
  · intro request hrequest
    exact Bool.eq_false_iff.mp (hrequests request hrequest).1
  · rintro request hrequest - ⟨other, hother, hlocked⟩
    cases hsome.symm.trans hother
    exact absurd hlocked (Nat.not_le.mpr hopen)

/-- Two failed logins within a minute leave one record. -/
theorem failed_logins_sampled :
    let server := auditedServer.after countingHandlers [loginAttempt, loginAttempt]
    server.records.length = 1 ∧ ∃ appended, server.records = auditedServer.records ++ appended ∧
      ∀ start, appended.countP (·.within start) ≤ 1 := by
  have hfirst : Unprivileged auditedServer.admin loginAttempt.2 ∧ Sampled _ _ :=
    loginAttempt_conditions ⟨.new "hash".toList, rfl, by decide⟩
  have hsecond : Unprivileged (handleAdminHttpStream countingHandlers loginAttempt.1
      loginAttempt.2 auditedServer).2.admin loginAttempt.2 ∧ Sampled _ _ :=
    loginAttempt_conditions
      ⟨{ AdminAuthenticator.new "hash".toList with failedAttempts := 1 }, by decide +kernel⟩
  exact ⟨by decide +kernel, unauthenticated_records_sampled countingHandlers auditedServer
    [loginAttempt, loginAttempt] ⟨hfirst.1, hsecond.1, trivial⟩ ⟨hfirst.2, hsecond.2, trivial⟩⟩

end Flood

end EdgeProxy
