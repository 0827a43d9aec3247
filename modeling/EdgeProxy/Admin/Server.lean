import EdgeProxy.Admin.Activation
import EdgeProxy.Admin.Session
import EdgeProxy.Audit.Operations
import EdgeProxy.Lib.Dictionary

/-! # The Admin server

`handle_admin_http_stream`: what one connection does to the server. The handlers check a request
before they do their work; the checks and the order of the routes are here, the work that comes
after the checks is a parameter, as are the answers of the routes that only read. The audit ledger
is seen through its port: it takes a record or refuses it.
-/

namespace EdgeProxy

open Rust

structure DurableAudit where
  records : List AuditRecord
  admission : AuditAdmissionState

abbrev AuditIo (α : Type) := Action DurableAudit AppError α

def appendRecord (fails : Option AppError) (record : AuditRecord) : AuditIo PUnit := fun audit =>
  match fails with
  | some error => (.error error, audit)
  | none => (.ok ⟨⟩, { audit with records := audit.records ++ [record] })

/-- Which head the ledger answers with is not looked at. -/
def durablePorts (fails : Option AppError) : AuditLedgerPorts DurableAudit PUnit where
  state := DurableAudit.admission
  replaceState admission audit := { audit with admission }
  appendIntent := appendRecord fails
  appendTerminal record _ := appendRecord fails record

def authFailureAuditSampleIntervalSeconds : ℕ := 60

def authFailureAuditMaxTargets : ℕ := 1024

abbrev AuthFailureAuditSampler := Dictionary AuditTargetId ℕ

namespace AuthFailureAuditSampler

/-- The entry that was recorded first; the name decides between two of the same second. -/
def oldest (sampler : AuthFailureAuditSampler) : Option AuditTargetId :=
  (sampler.entries.foldl (fun oldest entry =>
    match oldest with
    | none => some entry
    | some first =>
      if entry.2 < first.2 ∨ entry.2 = first.2 ∧ entry.1.value < first.1.value then some entry
      else some first) none).map (·.1)

def makeRoom (target : AuditTargetId) (sampler : AuthFailureAuditSampler) :
    AuthFailureAuditSampler :=
  if target ∉ sampler.keys ∧ authFailureAuditMaxTargets ≤ sampler.keys.length then
    match sampler.oldest with
    | none => sampler
    | some oldest => sampler.erase oldest
  else sampler

def shouldRecord (target : AuditTargetId) (now : ℕ) (sampler : AuthFailureAuditSampler) :
    Bool × AuthFailureAuditSampler :=
  if (sampler.lookup target).any (now - · < authFailureAuditSampleIntervalSeconds) then
    (false, sampler)
  else (true, (makeRoom target sampler).insert target now)

end AuthFailureAuditSampler

structure StoreTypes where
  certificates : Type
  trustBundles : Type
  http01Tokens : Type
  supportBundles : Type

structure AdminStores (τ : StoreTypes) where
  lifecycle : LifecycleState
  certificates : τ.certificates
  trustBundles : τ.trustBundles
  http01Tokens : τ.http01Tokens
  supportBundles : τ.supportBundles

structure AdminHttpServerState (κ : Type) (τ : StoreTypes) where
  admin : AdminState κ
  stores : AdminStores τ
  durableAudit : Option DurableAudit
  authFailureAuditSampler : AuthFailureAuditSampler
  snapshot : ConfigSnapshot
  activeSnapshot : ConfigSnapshot

/-- What the surroundings of one connection answer: the clock, which may be unusable, and the ledger
for each record of the connection. -/
structure ConnectionEnv where
  now : Option ℕ
  appendFails : ℕ → Option AppError

abbrev AdminHandler (κ : Type) (τ : StoreTypes) :=
  AdminHttpRequest → AdminHttpServerState κ τ → AdminHttpResponse × AdminHttpServerState κ τ

structure TrustBundleHandlers (κ : Type) (τ : StoreTypes) where
  list : AdminHttpRequest → AdminHttpServerState κ τ → AdminHttpResponse
  importBundle : AdminHandler κ τ
  delete : AdminHandler κ τ

/-- What is done for a mutation once it is authenticated, and how the audit ledger names it. -/
structure MutationHandlers (κ : Type) (τ : StoreTypes) where
  importCertificate : AdminHandler κ τ
  issueCertificate : AdminHandler κ τ
  renewCertificate : AdminHandler κ τ
  createProxyHost : AdminHandler κ τ
  updateProxyHost : AdminHandler κ τ
  deleteProxyHost : AdminHandler κ τ
  applyConfig : AdminHandler κ τ
  rollbackConfig : AdminHandler κ τ
  refreshAdminSnapshot : AdminHttpServerState κ τ → AdminHttpServerState κ τ
  lifecycleAuditOperation : AdminHttpRequest → AuditContext → AdminHttpServerState κ τ →
    Except AppError AuditPersistentOperationInput
  responseRevisionId : AdminHttpResponse → Option Text

/-- The routes that may or may not be configured, and the answers of those that only read. -/
structure AdminHandlers (κ : Type) (τ : StoreTypes) where
  read : AdminHttpRequest → AdminHttpServerState κ τ → AdminHttpResponse
  supportBundle : Option (AdminHandler κ τ)
  trustBundles : Option (TrustBundleHandlers κ τ)
  mutation : Option (MutationHandlers κ τ)

section Checks

variable {κ : Type} {τ : StoreTypes}

def guarded (route : Bool) (handler : AdminHandler κ τ) : AdminHandler κ τ := fun request server =>
  if !route then
    (.error 404 ⟨.adminRouteNotFound, "admin http route not found"⟩ request.requestId, server)
  else
    match requireSession server.admin.sessions request.sessionId with
    | .error error => (.error 401 error request.requestId, server)
    | .ok _ =>
      match requireCsrf server.admin.sessions (request.sessionId.getD []) request.csrfToken with
      | .error error => (.error 403 error request.requestId, server)
      | .ok _ => handler request server

namespace MutationHandlers

variable (mutation : MutationHandlers κ τ)

def handleCertificateImportHttp : AdminHandler κ τ := fun request =>
  guarded (request.method = .post) mutation.importCertificate request

def handleCertificateIssueHttpWithHttp01 : AdminHandler κ τ := fun request =>
  guarded (request.method = .post) mutation.issueCertificate request

def handleCertificateRenewHttp : AdminHandler κ τ := fun request =>
  guarded (request.method = .post) mutation.renewCertificate request

def handleProxyHostCreateHttp : AdminHandler κ τ := fun request =>
  guarded (request.method = .post ∧ request.path = "/api/v1/proxy-hosts".toList)
    mutation.createProxyHost request

def handleProxyHostUpdateHttp : AdminHandler κ τ := fun request =>
  guarded (request.method = .patch) mutation.updateProxyHost request

def handleProxyHostDeleteHttp : AdminHandler κ τ := fun request =>
  guarded (request.method = .delete) mutation.deleteProxyHost request

def handleConfigApplyHttp : AdminHandler κ τ := fun request =>
  guarded (request.method = .post ∧ request.path = "/api/v1/config/apply".toList)
    mutation.applyConfig request

def handleConfigRollbackHttp : AdminHandler κ τ := fun request =>
  guarded (request.method = .post ∧ request.path = "/api/v1/config/rollback".toList)
    mutation.rollbackConfig request

end MutationHandlers

/-- The collector's errors are answered like those of the checks if they have the same code. -/
def handleSupportBundleHttp (collect : AdminHandler κ τ) : AdminHandler κ τ := guarded true collect

/-- Listing the bundles needs no CSRF token. -/
def TrustBundleHandlers.handleTrustBundleHttp (service : TrustBundleHandlers κ τ) :
    AdminHandler κ τ := fun request server =>
  match requireSession server.admin.sessions request.sessionId with
  | .error error => (.error 401 error request.requestId, server)
  | .ok _ =>
    if request.method = .get then (service.list request server, server)
    else
      match requireCsrf server.admin.sessions (request.sessionId.getD []) request.csrfToken with
      | .error error => (.error 403 error request.requestId, server)
      | .ok _ =>
        if request.method = .post then service.importBundle request server
        else service.delete request server

end Checks

section Audited

variable {κ : Type} {τ : StoreTypes}

variable (env : ConnectionEnv) (request : AdminHttpRequest)
  (operation : AuditPersistentOperationInput)

def adminAuditContext : Except AppError AuditContext :=
  match AuditIdentifier.parse request.requestId with
  | .error _ => .error ⟨.auditRecordInvalid, "admin request id is not audit-safe"⟩
  | .ok requestId =>
    match AuditIdentifier.parse ("operation-".toList ++ request.requestId) with
    | .error _ => .error ⟨.auditRecordInvalid, "admin operation id is not audit-safe"⟩
    | .ok operationId =>
      match env.now with
      | none => .error ⟨.internalBug, "system clock is unavailable"⟩
      | some now => .ok ⟨operationId, requestId, .bootstrapAdmin, now⟩

/-- The status and the error of the response; it is rendered with other fields than an
`error_response`. -/
def auditFailureResponse (statusCode : ℕ) (error : AppError) : AdminHttpResponse :=
  .error statusCode error request.requestId

namespace AdminHttpResponse

def statusCode : AdminHttpResponse → ℕ
  | .json statusCode _ _ => statusCode
  | .error statusCode _ _ => statusCode

@[simp] theorem statusCode_error (code : ℕ) (failure : AppError) (requestId : Text) :
    (AdminHttpResponse.error code failure requestId).statusCode = code := rfl

def errorCode : AdminHttpResponse → Option ErrorCode
  | .json _ _ _ => none
  | .error _ failure _ => some failure.code

def committed (response : AdminHttpResponse) : Bool :=
  200 ≤ response.statusCode && response.statusCode < 300

end AdminHttpResponse

def stableErrorCode (response : AdminHttpResponse) : Option AuditStableErrorCode :=
  match AuditIdentifier.parse (response.errorCode.getD .internalBug).asStr.toList with
  | .ok code => some code
  | .error _ => (AuditIdentifier.parse ErrorCode.internalBug.asStr.toList).toOption

/-- Completes an operation that was begun; `revisionId` is the revision that the response names. -/
def completeAuditedAdminResponse (revisionId : Option Text)
    (response : AdminHttpResponse) (audit : DurableAudit) : AdminHttpResponse × DurableAudit :=
  match completeAuditOperation (durablePorts (env.appendFails 1))
      { operation
        expectedHead := ⟨⟩
        effectState := if response.committed then .committed else .rejected
        afterRevision := if response.committed then
          revisionId.bind fun id => (AuditIdentifier.parse id).toOption else none
        errorCode := if response.committed then none else stableErrorCode response } audit with
  | (.ok _, audit) => (response, audit)
  | (.error (error, _), audit) => (auditFailureResponse request 503 error, audit)

def completing (revisionId : AdminHttpResponse → Option Text)
    (outcome : AdminHttpResponse × AdminHttpServerState κ τ) :
    AdminHttpResponse × AdminHttpServerState κ τ :=
  match outcome.2.durableAudit with
  | none => outcome
  | some audit =>
    let (response, audit) := completeAuditedAdminResponse env request operation
      (revisionId outcome.1) outcome.1 audit
    (response, { outcome.2 with durableAudit := some audit })

def auditTargetBootstrapAdmin : Option AuditTargetId :=
  (AuditIdentifier.parse "bootstrap-admin".toList).toOption

end Audited

section Routes

variable {κ : Type} {τ : StoreTypes}

variable (request : AdminHttpRequest)

def isStaticAdminAsset : Bool :=
  request.method = .get &&
    ["/".toList, "/index.html".toList, "/styles.css".toList, "/app.js".toList].contains
      ((request.path.splitOn '?').headD request.path)

def isTrustBundleRequest : Bool :=
  (request.method = .get || request.method = .post) &&
      request.path = "/api/v1/trust-bundles".toList ||
    request.method = .delete && "/api/v1/trust-bundles/".toList.isPrefixOf request.path

def isObservabilityRequest : Bool :=
  request.method = .get &&
    (request.path = "/api/v1/certificates".toList ||
      "/api/v1/certificates/".toList.isPrefixOf request.path ||
      request.path = "/api/v1/logs/access".toList || request.path = "/api/v1/logs/errors".toList)

/-- The routes that are answered before the stateful ones and change nothing. -/
def isReadRequest : Bool :=
  request.method = .get &&
    (request.path = "/api/v1/upstream-health".toList ||
      "/api/v1/metrics".toList.isPrefixOf request.path || request.path = "/api/v1/audit".toList ||
      "/api/v1/audit?".toList.isPrefixOf request.path)

def isProbeRequest : Bool :=
  request.method = .get &&
    (request.path = "/api/v1/status".toList || request.path = "/api/v1/health/live".toList ||
      request.path = "/api/v1/health/ready".toList)

def isBoundCertificateMutationRequest : Bool :=
  request.method = .post && isCertificateMutationPath request.path

def isBoundLifecycleRequest : Bool :=
  request.method = .post && (request.path = "/api/v1/proxy-hosts".toList ||
      request.path = "/api/v1/config/apply".toList ||
      request.path = "/api/v1/config/rollback".toList) ||
    request.method = .delete && "/api/v1/proxy-hosts/".toList.isPrefixOf request.path ||
    request.method = .patch && "/api/v1/proxy-hosts/".toList.isPrefixOf request.path

def isAuthenticated (server : AdminHttpServerState κ τ) : Bool :=
  (requireSession server.admin.sessions request.sessionId).isOk &&
    (requireCsrf server.admin.sessions (request.sessionId.getD []) request.csrfToken).isOk

def answered (outcome : AdminHttpResponse × AdminHttpServerState κ τ) :
    Option AdminHttpResponse × AdminHttpServerState κ τ :=
  (some outcome.1, outcome.2)

namespace MutationHandlers

variable (mutation : MutationHandlers κ τ)

def handleCertificateMutation : AdminHandler κ τ := fun request =>
  if "/import".toList.isSuffixOf request.path then mutation.handleCertificateImportHttp request
  else if "/issue".toList.isSuffixOf request.path then
    mutation.handleCertificateIssueHttpWithHttp01 request
  else mutation.handleCertificateRenewHttp request

def handleBoundLifecycleRequest : AdminHandler κ τ := fun request =>
  if request.path = "/api/v1/proxy-hosts".toList then mutation.handleProxyHostCreateHttp request
  else if request.path = "/api/v1/config/rollback".toList then
    mutation.handleConfigRollbackHttp request
  else if request.path = "/api/v1/config/apply".toList then mutation.handleConfigApplyHttp request
  else if request.method = .delete then mutation.handleProxyHostDeleteHttp request
  else mutation.handleProxyHostUpdateHttp request

variable (env : ConnectionEnv) (path : Text)

def audited (operation : AuditPersistentOperationInput)
    (handler : AdminHandler κ τ) (audit : DurableAudit) : AdminHandler κ τ := fun request server =>
  match beginAuditOperation (durablePorts (env.appendFails 0)) operation audit with
  | (.error error, audit) =>
    (auditFailureResponse request 503 error, { server with durableAudit := some audit })
  | (.ok _, audit) =>
    completing env request operation mutation.responseRevisionId
      (handler request { server with durableAudit := some audit })

def handleAuditedLifecycleRequest : AdminHandler κ τ :=
  fun request server =>
    match server.durableAudit with
    | none => mutation.handleBoundLifecycleRequest request server
    | some audit =>
      if !isAuthenticated request server then mutation.handleBoundLifecycleRequest request server
      else
        match adminAuditContext env request >>=
            (mutation.lifecycleAuditOperation request · server) with
        | .error error => (auditFailureResponse request 400 error, server)
        | .ok operation =>
          mutation.audited env operation mutation.handleBoundLifecycleRequest audit request server

def certificateAction : AuditAction :=
  if "/renew".toList.isSuffixOf path then .certificateRenew
  else if "/import".toList.isSuffixOf path then .certificateImport
  else .certificateIssue

def certificateRefFromMutationPath : Text :=
  let suffix :=
    if "/renew".toList.isSuffixOf path then "/renew".toList
    else if "/import".toList.isSuffixOf path then "/import".toList
    else "/issue".toList
  (((stripPrefix "/api/v1/certificates/".toList path).bind (stripSuffix suffix ·)).filter
    (!·.isEmpty)).getD "unknown".toList

/-- A connection whose request or certificate cannot be recorded is closed. -/
def handleCertificate (request : AdminHttpRequest)
    (server : AdminHttpServerState κ τ) : Option AdminHttpResponse × AdminHttpServerState κ τ :=
  match server.durableAudit with
  | none => answered (mutation.handleCertificateMutation request server)
  | some audit =>
    if !isAuthenticated request server then
      answered (mutation.handleCertificateMutation request server)
    else
      match adminAuditContext env request,
          AuditIdentifier.parse (certificateRefFromMutationPath request.path) with
      | .ok context, .ok target =>
        answered (mutation.audited env
          ⟨context, certificateAction request.path, .certificate, target, none⟩
          mutation.handleCertificateMutation audit request server)
      | _, _ => (none, server)

def handleLifecycle : AdminHandler κ τ := fun request server =>
  let (response, server) :=
    mutation.handleAuditedLifecycleRequest env request server
  if response.statusCode = 200 then (response, mutation.refreshAdminSnapshot server)
  else (response, server)

end MutationHandlers

end Routes

section Stateful

variable {κ : Type} [SecretStore κ] {τ : StoreTypes}

@[irreducible] def invalidCredentialsHead : Text :=
  "\x7b\"code\":\"ADMIN_INVALID_CREDENTIALS\",\"message\":\"".toList

@[irreducible] def invalidCredentialsHint : Text :=
  "\",\"hint\":\"The admin credentials are invalid.\",\"request_id\":".toList

def invalidCredentialsJson (message requestId : Text) : Text :=
  invalidCredentialsHead ++ jsonEscape message ++ invalidCredentialsHint ++
    '"' :: (jsonEscape requestId ++ ['"', '\x7d'])

variable (handlers : AdminHandlers κ τ) (env : ConnectionEnv) (request : AdminHttpRequest)
  (response : AdminHttpResponse)

def isSetupRequest : Bool :=
  request.method = .post && request.path = "/api/v1/setup".toList

def isLoginRequest : Bool :=
  request.method = .post && request.path = "/api/v1/login".toList

def isLogoutRequest : Bool :=
  request.method = .post && request.path = "/api/v1/logout".toList

/-- What is observed of a response, and the sampler after it. A refused login is a lockout if its
body says so, which includes the id that the client chose for the request. -/
def observedAction (sampler : AuthFailureAuditSampler) :
    Option AuditAction × AuthFailureAuditSampler :=
  if isLoginRequest request && response.statusCode = 200 then (some .adminLoginSuccess, sampler)
  else if isLogoutRequest request && response.statusCode = 200 then (some .adminLogout, sampler)
  else
    match isLoginRequest request, response with
    | true, .error 401 error requestId =>
      if "too many failed attempts".toList <:+:
          invalidCredentialsJson error.message.toList requestId then
        (some .adminLockout, sampler)
      else
        match auditTargetBootstrapAdmin, env.now with
        | some target, some now =>
          let (record, sampler) := sampler.shouldRecord target now
          (if record then some .adminAuthFailureSampled else none, sampler)
        | _, _ => (none, sampler)
    | _, _ => (none, sampler)

def recordAuthObservation (server : AdminHttpServerState κ τ) : AdminHttpServerState κ τ :=
  match server.durableAudit with
  | none => server
  | some audit =>
    let (action, authFailureAuditSampler) :=
      observedAction env request response server.authFailureAuditSampler
    match action, adminAuditContext env request, auditTargetBootstrapAdmin with
    | some action, .ok context, some target =>
      { server with
        authFailureAuditSampler
        durableAudit := some
          (recordSecurityObservation (durablePorts (env.appendFails 0))
            (appendRecord (env.appendFails 0)) ⟨context, action, target, .observed⟩ audit).2 }
    | _, _, _ => { server with authFailureAuditSampler }

def handleStateful : AdminHandler κ τ := fun request server =>
  let outcome :=
    handleStatefulHttpRequest (fun request _ => handlers.read request server) request server.admin
  (outcome.1, { server with admin := outcome.2 })

/-- A setup request is audited before it is looked at; a connection whose request id cannot be
recorded is closed. -/
def handleUnbound
    (server : AdminHttpServerState κ τ) : Option AdminHttpResponse × AdminHttpServerState κ τ :=
  match isSetupRequest request, server.durableAudit with
  | true, some audit =>
    match adminAuditContext env request, auditTargetBootstrapAdmin with
    | .ok context, some target =>
      let operation := ⟨context, .adminSetup, .adminAccount, target, none⟩
      match beginAuditOperation (durablePorts (env.appendFails 0)) operation audit with
      | (.error error, audit) => (some (auditFailureResponse request 503 error),
          { server with durableAudit := some audit })
      | (.ok _, audit) =>
        let (response, server) := completing env request operation (fun _ => none)
          (handleStateful handlers request { server with durableAudit := some audit })
        (some response, recordAuthObservation env request response server)
    | _, _ => (none, server)
  | _, _ =>
    let (response, server) := handleStateful handlers request server
    (some response, recordAuthObservation env request response server)

end Stateful

section Stream

variable {κ : Type} [SecretStore κ] {τ : StoreTypes}

variable (handlers : AdminHandlers κ τ) (env : ConnectionEnv) (request : AdminHttpRequest)

def supportBundleUnavailable : AdminHttpResponse :=
  .error 503 ⟨.runtimeHealthUnavailable, "support bundle collector is not configured"⟩
    request.requestId

def handleAdminRequest (server : AdminHttpServerState κ τ) :
    Option AdminHttpResponse × AdminHttpServerState κ τ :=
  if isStaticAdminAsset request || isProbeRequest request then
    (some (handlers.read request server), server)
  else if request.method = .post ∧ request.path = "/api/v1/support-bundles".toList then
    match handlers.supportBundle with
    | none => (some (supportBundleUnavailable request), server)
    | some collect => answered (handleSupportBundleHttp collect request server)
  else if isReadRequest request then (some (handlers.read request server), server)
  else
    match isTrustBundleRequest request, handlers.trustBundles with
    | true, some service => answered (service.handleTrustBundleHttp request server)
    | _, _ =>
      if isObservabilityRequest request then (some (handlers.read request server), server)
      else
        match server.admin.authenticator, handlers.mutation with
        | some _, some mutation =>
          if isBoundCertificateMutationRequest request then
            mutation.handleCertificate env request server
          else if isBoundLifecycleRequest request then
            answered (mutation.handleLifecycle env request server)
          else handleUnbound handlers env request server
        | _, _ => handleUnbound handlers env request server

/-- One connection: a request that does not parse is answered with nothing. -/
def handleAdminHttpStream (raw : Text)
    (server : AdminHttpServerState κ τ) : Option AdminHttpResponse × AdminHttpServerState κ τ :=
  if raw.isEmpty then (none, server)
  else
    match parseAdminHttpRequest raw "admin-http".toList with
    | .error _ => (none, server)
    | .ok request => handleAdminRequest handlers env request server

end Stream

end EdgeProxy
