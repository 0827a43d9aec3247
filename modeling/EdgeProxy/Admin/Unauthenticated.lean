import EdgeProxy.Admin.Server

/-! # Requests without a session

A request that carries no live session with its CSRF token is refused by every handler that changes
something, or it gets as far as setup, login and logout. Once setup is complete, these change the
authenticator and the sessions at most, and they append to the audit ledger.
-/

namespace EdgeProxy

open Rust

section Refused

variable {κ : Type} {τ : StoreTypes} {server : AdminHttpServerState κ τ}
  {request : AdminHttpRequest}

/-- The request names a live session and has its CSRF token. -/
def AdminHttpRequest.Carries (request : AdminHttpRequest) (sessions : SessionStore) : Prop :=
  ∃ sessionId csrfToken, request.sessionId = some sessionId ∧
    request.csrfToken = some csrfToken ∧ sessions.lookup sessionId = some csrfToken

theorem carries_of_checks {sessions : SessionStore}
    (hsession : requireSession sessions request.sessionId = .ok ())
    (hcsrf : requireCsrf sessions (request.sessionId.getD []) request.csrfToken = .ok ()) :
    request.Carries sessions := by
  rcases hid : request.sessionId with _ | sessionId
  · rw [hid] at hsession
    cases hsession
  rcases htoken : request.csrfToken with _ | csrfToken
  · rw [htoken] at hcsrf
    cases hcsrf
  · rw [hid, htoken, requireCsrf] at hcsrf
    split at hcsrf
    · next hverify =>
      refine ⟨sessionId, csrfToken, hid, htoken, ?_⟩
      simpa [SessionStore.verifyCsrf, Option.any_eq_true] using hverify
    · cases hcsrf

def Refused (handler : AdminHandler κ τ) (request : AdminHttpRequest)
    (server : AdminHttpServerState κ τ) : Prop :=
  ∃ response, handler request server = (response, server) ∧ response.statusCode ≠ 200

variable (h : ¬ request.Carries server.admin.sessions)

include h

theorem checks_refuse :
    (∃ error, requireSession server.admin.sessions request.sessionId = .error error) ∨
      requireSession server.admin.sessions request.sessionId = .ok () ∧
        ∃ error, requireCsrf server.admin.sessions (request.sessionId.getD []) request.csrfToken =
          .error error := by
  rcases hsession : requireSession server.admin.sessions request.sessionId with error | _
  · exact .inl ⟨error, rfl⟩
  · rcases hcsrf : requireCsrf server.admin.sessions (request.sessionId.getD [])
      request.csrfToken with error | _
    · exact .inr ⟨rfl, error, rfl⟩
    · exact absurd (carries_of_checks hsession hcsrf) h

theorem refused_guarded (route : Bool) (handler : AdminHandler κ τ) :
    Refused (guarded route handler) request server := by
  unfold Refused guarded
  split_ifs
  · exact ⟨_, rfl, by simp⟩
  · rcases checks_refuse h with ⟨error, hsession⟩ | ⟨hsession, _, hcsrf⟩
    · exact ⟨_, by rw [hsession], by simp⟩
    · rw [hsession]
      simp only [hcsrf]
      exact ⟨_, rfl, by simp⟩

theorem refused_trustBundles (service : TrustBundleHandlers κ τ) :
    (service.handleTrustBundleHttp request server).2 = server := by
  unfold TrustBundleHandlers.handleTrustBundleHttp
  rcases checks_refuse h with ⟨error, hsession⟩ | ⟨hsession, _, hcsrf⟩
  · rw [hsession]
  · rw [hsession]
    simp only [hcsrf]
    split_ifs
    · rfl
    · rfl

theorem isAuthenticated_eq_false : isAuthenticated request server = false := by
  rw [isAuthenticated]
  rcases checks_refuse h with ⟨error, hsession⟩ | ⟨hsession, _, hcsrf⟩
  · rw [hsession]
    rfl
  · rw [hsession, hcsrf]
    rfl

theorem refused_certificate (mutation : MutationHandlers κ τ) :
    Refused mutation.handleCertificateMutation request server := by
  unfold Refused MutationHandlers.handleCertificateMutation
  split_ifs
  · exact refused_guarded h _ _
  · exact refused_guarded h _ _
  · exact refused_guarded h _ _

theorem refused_lifecycle (mutation : MutationHandlers κ τ) :
    Refused mutation.handleBoundLifecycleRequest request server := by
  unfold Refused MutationHandlers.handleBoundLifecycleRequest
  split_ifs
  · exact refused_guarded h _ _
  · exact refused_guarded h _ _
  · exact refused_guarded h _ _
  · exact refused_guarded h _ _
  · exact refused_guarded h _ _

variable {mutation : MutationHandlers κ τ}

theorem handleCertificate_refused (env : ConnectionEnv) :
    (mutation.handleCertificate env request server).2 = server := by
  obtain ⟨_, hrefused, -⟩ := refused_certificate h mutation
  unfold MutationHandlers.handleCertificate
  rcases server.durableAudit with _ | audit
  · simp [answered, hrefused]
  · simp [isAuthenticated_eq_false h, answered, hrefused]

theorem handleLifecycle_refused (env : ConnectionEnv) :
    (mutation.handleLifecycle env request server).2 = server := by
  obtain ⟨response, hrefused, hstatus⟩ := refused_lifecycle h mutation
  have haudited : mutation.handleAuditedLifecycleRequest env request server =
      (response, server) := by
    unfold MutationHandlers.handleAuditedLifecycleRequest
    rcases server.durableAudit with _ | audit
    · exact hrefused
    · simp [isAuthenticated_eq_false h, hrefused]
  simp [MutationHandlers.handleLifecycle, haudited, hstatus]

theorem handleAdminRequest_cases [SecretStore κ] (handlers : AdminHandlers κ τ)
    (env : ConnectionEnv) :
    (handleAdminRequest handlers env request server).2 = server ∨
      handleAdminRequest handlers env request server =
        handleUnbound handlers env request server := by
  rw [handleAdminRequest]
  split
  · exact .inl rfl
  split
  · rcases handlers.supportBundle with _ | collect
    · exact .inl rfl
    · obtain ⟨_, hrefused, -⟩ := refused_guarded h true collect
      refine .inl ?_
      simp only [answered, handleSupportBundleHttp, hrefused]
  split
  · exact .inl rfl
  split
  · exact .inl (refused_trustBundles h _)
  split
  · exact .inl rfl
  split
  · split
    · exact .inl (handleCertificate_refused h env)
    split
    · exact .inl (handleLifecycle_refused h env)
    · exact .inr rfl
  · exact .inr rfl

end Refused

section Unchanged

variable {κ : Type} [SecretStore κ] {τ : StoreTypes} {server : AdminHttpServerState κ τ}
  {request : AdminHttpRequest}

def AdminState.SetupComplete (state : AdminState κ) : Prop :=
  state.authenticator.isSome = true ∨
    ∃ record, SecretStore.loadSecret state.secrets "admin-password-hash".toList = .ok (some record)

structure AdminHttpServerState.Untouched (server server' : AdminHttpServerState κ τ) : Prop where
  stores : server'.stores = server.stores
  secrets : server'.admin.secrets = server.admin.secrets

theorem handleSetup_complete {state : AdminState κ} (h : state.SetupComplete)
    (request : AdminHttpRequest) :
    handleSetup request state = (setupAlreadyCompleteResponse request.requestId, state) := by
  rw [handleSetup]
  rcases hauthenticator : state.authenticator with _ | authenticator
  · rcases h with hsome | ⟨record, hrecord⟩
    · rw [hauthenticator] at hsome
      cases hsome
    · rw [hrecord]
      rfl
  · rfl

variable (env : ConnectionEnv) (request : AdminHttpRequest)

omit [SecretStore κ] in
theorem handleLogin_secrets (authenticator : AdminAuthenticator) (state : AdminState κ) :
    (handleLogin request authenticator state).2.secrets = state.secrets := by
  rw [handleLogin]
  rcases jsonStringField request.body "password_hash".toList with _ | passwordHash
  · rfl
  · simp only
    rcases AdminAuthenticator.login passwordHash (authenticator, state.sessions) with
      ⟨error | session, _⟩
    · rfl
    · rfl

omit [SecretStore κ] in
theorem handleLogout_secrets (state : AdminState κ) :
    (handleLogout request state).2.secrets = state.secrets := by
  rw [handleLogout]
  repeat' split
  all_goals rfl

theorem handleStatefulHttpRequest_secrets {state : AdminState κ} (h : state.SetupComplete)
    (dispatch : Dispatch) (request : AdminHttpRequest) :
    (handleStatefulHttpRequest dispatch request state).2.secrets = state.secrets := by
  unfold handleStatefulHttpRequest
  repeat' split
  · rw [handleSetup_complete h]
  · rfl
  · exact handleLogin_secrets request _ state
  · rfl
  · exact handleLogout_secrets request state
  · rfl
  · rfl

omit [SecretStore κ] in
theorem completing_eq
    (operation : AuditPersistentOperationInput) (revisionId : AdminHttpResponse → Option Text)
    (outcome : AdminHttpResponse × AdminHttpServerState κ τ) :
    ∃ durableAudit, (completing env request operation revisionId outcome).2 =
      { outcome.2 with durableAudit } := by
  rw [completing]
  rcases outcome.2.durableAudit with _ | audit
  · exact ⟨outcome.2.durableAudit, rfl⟩
  · exact ⟨_, rfl⟩

omit [SecretStore κ] in
theorem recordAuthObservation_eq
    (response : AdminHttpResponse) (server : AdminHttpServerState κ τ) :
    ∃ durableAudit authFailureAuditSampler, recordAuthObservation env request response server =
      { server with durableAudit, authFailureAuditSampler } := by
  rw [recordAuthObservation]
  rcases server.durableAudit with _ | audit
  · exact ⟨server.durableAudit, server.authFailureAuditSampler, rfl⟩
  · simp only
    split
    · exact ⟨_, _, rfl⟩
    · exact ⟨some audit, _, rfl⟩

theorem handleUnbound_eq (handlers : AdminHandlers κ τ) (env : ConnectionEnv)
    (request : AdminHttpRequest) (server : AdminHttpServerState κ τ) :
    ∃ admin durableAudit authFailureAuditSampler, (handleUnbound handlers env request server).2 =
        { server with admin, durableAudit, authFailureAuditSampler } ∧
      (admin = server.admin ∨
        ∃ dispatch, admin = (handleStatefulHttpRequest dispatch request server.admin).2) := by
  rw [handleUnbound]
  split
  · split
    · simp only
      split
      · exact ⟨_, _, _, rfl, .inl rfl⟩
      · next audit' _ =>
        obtain ⟨durableAudit, hcompleted⟩ := completing_eq env request _ (fun _ => none)
          (handleStateful handlers request { server with durableAudit := some audit' })
        simp only
        obtain ⟨durableAudit', sampler, hobserved⟩ := recordAuthObservation_eq env request _ _
        rw [hobserved, hcompleted]
        exact ⟨_, _, _, rfl, .inr ⟨_, rfl⟩⟩
    · exact ⟨_, _, _, rfl, .inl rfl⟩
  · obtain ⟨_, _, hobserved⟩ := recordAuthObservation_eq env request
      (handleStateful handlers request server).1 (handleStateful handlers request server).2
    simp only
    rw [hobserved]
    exact ⟨_, _, _, rfl, .inr ⟨_, rfl⟩⟩

/-- A connection whose request carries no live session with its CSRF token sends no command to the
core and changes none of the stores, once setup is complete. -/
theorem unauthenticated_request_untouched (handlers : AdminHandlers κ τ) (env : ConnectionEnv)
    (raw : Text) (server : AdminHttpServerState κ τ) (hsetup : server.admin.SetupComplete)
    (hsession : ∀ request, parseAdminHttpRequest raw "admin-http".toList = .ok request →
      ¬ request.Carries server.admin.sessions) :
    server.Untouched (handleAdminHttpStream handlers env raw server).2 := by
  rw [handleAdminHttpStream]
  split_ifs
  · exact ⟨rfl, rfl⟩
  rcases hrequest : parseAdminHttpRequest raw "admin-http".toList with error | request
  · exact ⟨rfl, rfl⟩
  simp only
  rcases handleAdminRequest_cases (hsession request hrequest) handlers env with hsame | hunbound
  · rw [hsame]
    exact ⟨rfl, rfl⟩
  obtain ⟨_, _, _, heq, hadmin⟩ :=
    handleUnbound_eq handlers env request server
  rw [hunbound, heq]
  refine ⟨rfl, ?_⟩
  rcases hadmin with rfl | ⟨dispatch, rfl⟩
  · rfl
  · exact handleStatefulHttpRequest_secrets hsetup dispatch request

abbrev countingStores : StoreTypes := ⟨ℕ, ℕ, ℕ, ℕ⟩

def loggedInServer : AdminHttpServerState (List SecretRecord) countingStores where
  admin := ⟨some (.new "hash".toList), .insertSession (numberedSession 1) ∅, []⟩
  stores := ⟨seedState, (0 : ℕ), (0 : ℕ), (0 : ℕ), (0 : ℕ)⟩
  durableAudit := none
  authFailureAuditSampler := ∅
  snapshot := seedSnapshot "active".toList
  activeSnapshot := seedSnapshot "active".toList

def countingHandler : AdminHandler (List SecretRecord) countingStores := fun _ server =>
  (jsonResponse 200 [] [], { server with stores.certificates := (1 : ℕ) })

def countingHandlers : AdminHandlers (List SecretRecord) countingStores where
  read := fun _ _ => jsonResponse 200 [] []
  supportBundle := some countingHandler
  trustBundles := some ⟨fun _ _ => jsonResponse 200 [] [], countingHandler, countingHandler⟩
  mutation := some {
    importCertificate := countingHandler
    issueCertificate := countingHandler
    renewCertificate := countingHandler
    createProxyHost := countingHandler
    updateProxyHost := countingHandler
    deleteProxyHost := countingHandler
    applyConfig := countingHandler
    rollbackConfig := countingHandler
    refreshAdminSnapshot := id
    lifecycleAuditOperation := fun _ _ _ => .error ⟨.internalBug, ""⟩
    responseRevisionId := fun _ => none }

/-- The session alone is not enough: the same request with its CSRF token does change the stores. -/
theorem request_without_csrf_untouched :
    let delete := "DELETE /api/v1/proxy-hosts/a HTTP/1.1\r\ncookie: sponzey_session=session-1\r\n"
    let env : ConnectionEnv := ⟨some 0, fun _ => none⟩
    loggedInServer.Untouched (handleAdminHttpStream countingHandlers env
        (delete ++ "\r\n").toList loggedInServer).2 ∧
      (handleAdminHttpStream countingHandlers env
        (delete ++ "x-csrf-token: csrf-1\r\n\r\n").toList loggedInServer).2.stores.certificates =
          (1 : ℕ) := by
  intro delete env
  have hparsed : ((parseAdminHttpRequest (delete ++ "\r\n").toList
      "admin-http".toList).toOption.bind (·.csrfToken)) = none := by
    decide +kernel
  refine ⟨unauthenticated_request_untouched countingHandlers env _ loggedInServer (.inl rfl) ?_, ?_⟩
  · rintro request hrequest ⟨sessionId, csrfToken, -, htoken, -⟩
    rw [hrequest] at hparsed
    exact nomatch htoken.symm.trans hparsed
  · decide +kernel

end Unchanged

end EdgeProxy
