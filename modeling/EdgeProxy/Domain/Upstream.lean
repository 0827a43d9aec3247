import EdgeProxy.Lib.Utf8

/-! # Upstream endpoints and TLS policies

Errors of the domain crate, and the value types that name an upstream: the endpoint parsed from a
configured URL, the TLS server name, the `Host` authority sent upstream and the trust bundle
reference. Each is built by its `parse` function only.
-/

namespace EdgeProxy

open Rust List

inductive ErrorCode where
  | configAdminBindConflict | configAdminExternalBindWithoutAuth
  | configAcmeChallengeBlockedByRedirect | configHttp01WithoutHttpListener
  | configHttpsRouteCertificateMissing | configInvalidAcmeEmail | configInvalidBindAddress
  | configHealthCheckInvalidInterval | configHealthCheckInvalidPath
  | configHealthCheckInvalidStatusRange | configHealthCheckInvalidThreshold
  | configInvalidLoadBalancingPolicy | configInvalidLogMode | configResourceLimitInvalid
  | configRetryPolicyInvalid | configPassiveHealthPolicyInvalid | configInvalidUpstreamUrl
  | configTrustBundleRefInvalid | configTrustBundleNotFound | trustBundleInvalid
  | trustBundleAlreadyExists | trustBundleLimitExceeded | trustBundleReferenced
  | trustBundleStoreFailed | upstreamTlsUntrusted | upstreamTlsIdentityMismatch
  | upstreamTlsProfileInvalid | configTlsServerNameInvalid | configUpstreamHttpHostInvalid
  | configTlsPolicyInvalid | configClientAuthPolicyInvalid | configUpstreamIdDuplicate
  | configUpstreamIdRequired | configListenerDuplicate | configProductionAcmeRequiresOptIn
  | configCurrentRevisionInvalid | configCurrentRevisionMissing | configBootstrapSeedInvalid
  | configRevisionNotFound | configRouteDuplicate | configRouteMatchEmpty
  | configRouteMissingService | configSchemaVersionMissing | configServiceWithoutUpstream
  | configStoreFailed | configUnsafeUpstreamUrl | acmeChallengeFailed | acmeTermsNotAccepted
  | adminAuthRequired | adminCsrfRequired | adminEndpointNotImplemented | adminInvalidCredentials
  | adminRouteNotFound | adminSetupAlreadyComplete | adminSetupRequired | certificateExpired
  | certificateInvalid | certificateNotFound | certificateStoreFailed | httpConnectMethodRejected
  | httpHeaderTooLarge | httpMalformedRequest | httpRequestBodyTooLarge | httpRequestLineTooLarge
  | httpTransferEncodingContentLengthConflict | supportBundleBoundsExceeded
  | supportBundleReportInvalid | runtimeCommandRejected | runtimeHealthUnavailable
  | runtimeUpstreamBadGateway | runtimeUpstreamTimeout | resourcePayloadCapacityReached
  | resourceAllocationFailed | resourceAccountingInvariantFailed | tlsHandshakeFailed
  | tlsHandshakeTimeout | processCommandInvalid | processCommandNotImplemented | dataDirectoryBusy
  | dataDirectoryLockFailed | dataDirectoryLockStateInvalid | backupManifestInvalid
  | backupSchemaUnsupported | backupLimitExceeded | backupSecretInputInvalid | backupSourceInvalid
  | backupSourceChanged | backupDestinationUnsafe | backupDestinationExists
  | backupEncryptionFailed | backupWriteFailed | backupPublishFailed
  | backupStateTransitionInvalid | backupAuthenticationFailed | backupFormatInvalid
  | backupDigestMismatch | backupPathUnsafe | restoreTargetBusy | restoreTargetNotEmpty
  | restoreTargetUnsafe | restoreStageFailed | restoreConfigInvalid | restoreCertificateInvalid
  | restoreSecretInvalid | restorePreflightFailed | restoreCommitFailed | restoreRollbackFailed
  | restoreTransactionUnresolved | restoreTransactionAmbiguous | restorePlatformUnsupported
  | restoreStateTransitionInvalid | auditUnavailable | auditMutationBlocked | auditRecordInvalid
  | auditRecordTooLarge | auditCapacityReached | auditSequenceInvalid | auditChainMismatch
  | auditInteriorCorruption | auditTrailingFrameIncomplete | auditUnsupportedVersion
  | auditAppendFailed | auditSyncFailed | auditCursorInvalid | auditReconciliationUnknown
  | internalBug
  deriving DecidableEq

structure AppError where
  code : ErrorCode
  message : String
  deriving DecidableEq

structure ValidationError where
  code : ErrorCode
  message : String
  deriving DecidableEq

def invalidUpstreamUrl : ValidationError :=
  ⟨.configInvalidUpstreamUrl, "upstream URL must use HTTP with a literal IP address and valid port"⟩

variable (value : Text)

def parsePort : Except ValidationError Nat :=
  match parseU16 value with
  | none => .error invalidUpstreamUrl
  | some port => if port = 0 then .error invalidUpstreamUrl else .ok port

def parseOptionalPortWithDefault (suffix : Text) (defaultPort : Nat) : Except ValidationError Nat :=
  if suffix.isEmpty then .ok defaultPort
  else
    match stripPrefix [':'] suffix with
    | none => .error invalidUpstreamUrl
    | some port => parsePort port

def isIpv4Literal : Bool :=
  let octets := value.splitOn '.'
  octets.length == 4 && octets.all fun octet => !octet.isEmpty && (parseU8 octet).isSome

/-- The number of groups of one side of `::`, when all of them are well formed. -/
def ipv6Groups (part : Text) : Option Nat :=
  if part.isEmpty then some 0
  else
    let groups := part.splitOn ':'
    if groups.all fun group =>
        !group.isEmpty && byteLen group ≤ 4 && group.all fun c => (toDigit 16 c).isSome
    then some groups.length else none

def isIpv6Literal : Bool :=
  if value.isEmpty || value.contains '.' then false
  else
    match splitPair ':' ':' value with
    | [left] => ipv6Groups left == some 8
    | [left, right] =>
      match ipv6Groups left, ipv6Groups right with
      | some l, some r => l + r < 8
      | _, _ => false
    | _ => false

def validDnsName : Bool :=
  !value.isEmpty && byteLen value ≤ 253 && value.contains '.' &&
    (value.splitOn '.').all fun label =>
      !label.isEmpty && byteLen label ≤ 63 && label.head? != some '-' &&
        label.getLast? != some '-' && label.all fun c => isAsciiAlphanumeric c || c == '-'

structure TrustBundleRef where
  value : Text
  deriving DecidableEq

def TrustBundleRef.parse : Except ValidationError TrustBundleRef :=
  if value.isEmpty || byteLen value > 64 || value == ".".toList || value == "..".toList ||
      !value.all (fun c => isAsciiAlphanumeric c || c == '-' || c == '_')
  then .error ⟨.configTrustBundleRefInvalid, "trust bundle reference is invalid"⟩
  else .ok ⟨value⟩

structure TlsServerName where
  value : Text
  deriving DecidableEq

def TlsServerName.parse : Except ValidationError TlsServerName :=
  let normalized := toAsciiLowercase (trimEndMatches '.' value)
  if isIpv4Literal normalized || isIpv6Literal normalized || !validDnsName normalized
  then .error ⟨.configTlsServerNameInvalid, "TLS server name must be a valid DNS name"⟩
  else .ok ⟨normalized⟩

structure UpstreamHttpHost where
  value : Text
  deriving DecidableEq

def invalidUpstreamHttpHost : ValidationError :=
  ⟨.configUpstreamHttpHostInvalid, "upstream HTTP Host authority is invalid"⟩

def UpstreamHttpHost.parse : Except ValidationError UpstreamHttpHost :=
  if value.isEmpty || byteLen value > 255 || value.any (fun c => isControl c || isWhitespace c) ||
      value.any (fun c => c == '@' || c == '/' || c == '?' || c == '#')
  then .error invalidUpstreamHttpHost
  else
    match rsplitOnce ':' value with
    | some (host, port) =>
      if host.contains ':' then .error invalidUpstreamHttpHost
      else if !validDnsName (toAsciiLowercase host) || !(parsePort port).isOk
      then .error invalidUpstreamHttpHost
      else .ok ⟨toAsciiLowercase value⟩
    | none =>
      if !validDnsName (toAsciiLowercase value) then .error invalidUpstreamHttpHost
      else .ok ⟨toAsciiLowercase value⟩

theorem toLower_eq_or (c : Char) : c.toLower = c ∨ isAsciiAlphanumeric c.toLower = true := by
  rcases toLower_cases c with h | ⟨h, hlower⟩
  · exact .inl h
  · have ha : 'a' ≤ c.toLower := UInt32.le_iff_toNat_le.mpr (by change 97 ≤ c.toLower.toNat; omega)
    have hz : c.toLower ≤ 'z' := UInt32.le_iff_toNat_le.mpr (by change c.toLower.toNat ≤ 122; omega)
    simp [isAsciiAlphanumeric, ha, hz]

theorem not_isWhitespace_toLower {c : Char} (h : isWhitespace c = false ∧ isControl c = false) :
    isWhitespace c.toLower = false ∧ isControl c.toLower = false := by
  rcases toLower_eq_or c with hc | hc
  · rwa [hc]
  · exact not_isWhitespace_of_isAsciiAlphanumeric hc

variable {value : Text}

theorem UpstreamHttpHost.parse_ok {host : UpstreamHttpHost}
    (h : UpstreamHttpHost.parse value = .ok host) :
    host.value ≠ [] ∧ ∀ c ∈ host.value, isWhitespace c = false ∧ isControl c = false := by
  have hlower : (value ≠ [] ∧ ∀ c ∈ value, isWhitespace c = false ∧ isControl c = false) ∧
      host.value = toAsciiLowercase value := by
    unfold UpstreamHttpHost.parse at h
    split at h
    · cases h
    · next hv =>
      simp only [Bool.or_eq_true, any_eq_true, not_or, not_exists, not_and,
        Bool.not_eq_true] at hv
      refine ⟨⟨?_, fun c hc => ?_⟩, ?_⟩
      · simpa using hv.1.1.1
      · exact (hv.1.2 c hc).symm
      · split at h <;> split_ifs at h <;> cases h <;> rfl
  obtain ⟨⟨hne, hchars⟩, hvalue⟩ := hlower
  rw [hvalue]
  refine ⟨by simpa [toAsciiLowercase] using hne, fun c hc => ?_⟩
  obtain ⟨d, hd, rfl⟩ := mem_map.mp hc
  exact not_isWhitespace_toLower (hchars d hd)

inductive UpstreamScheme where
  | http | https
  deriving DecidableEq

def UpstreamScheme.asStr : UpstreamScheme → Text
  | .http => "http".toList
  | .https => "https".toList

def UpstreamScheme.defaultPort : UpstreamScheme → Nat
  | .http => 80
  | .https => 443

structure UpstreamEndpoint where
  scheme : UpstreamScheme
  host : Text
  port : Nat
  basePath : Text
  ipv6 : Bool
  deriving DecidableEq

namespace UpstreamEndpoint

def stripScheme (value : Text) : Option (UpstreamScheme × Text) :=
  match stripPrefix "http://".toList value with
  | some remainder => some (.http, remainder)
  | none => (stripPrefix "https://".toList value).map fun remainder => (.https, remainder)

/-- The authority and the base path, which keeps its slash. -/
def splitBasePath (remainder : Text) : Text × Text :=
  match splitOnce '/' remainder with
  | some (authority, path) => (authority, '/' :: path)
  | none => (remainder, [])

/-- The host, the port and whether the host is an IPv6 literal. -/
def parseAuthority (authority : Text) (defaultPort : Nat) :
    Except ValidationError (Text × Nat × Bool) :=
  match stripPrefix ['['] authority with
  | some bracketed =>
    match splitOnce ']' bracketed with
    | none => .error invalidUpstreamUrl
    | some (host, suffix) =>
      if !isIpv6Literal host then .error invalidUpstreamUrl
      else (parseOptionalPortWithDefault suffix defaultPort).map fun port =>
        (toAsciiLowercase host, port, true)
  | none =>
    match rsplitOnce ':' authority with
    | some (host, port) =>
      if host.contains ':' then .error invalidUpstreamUrl
      else
        match parsePort port with
        | .error e => .error e
        | .ok port =>
          if isIpv4Literal host then .ok (host, port, false) else .error invalidUpstreamUrl
    | none =>
      if isIpv4Literal authority then .ok (authority, defaultPort, false)
      else .error invalidUpstreamUrl

def parse (value : Text) : Except ValidationError UpstreamEndpoint :=
  if value.any isControl || value.any (fun c => c == '?' || c == '#' || c == '@') then
    .error invalidUpstreamUrl
  else
    match stripScheme value with
    | none => .error invalidUpstreamUrl
    | some (scheme, remainder) =>
      if (splitBasePath remainder).1.isEmpty then .error invalidUpstreamUrl
      else
        (parseAuthority (splitBasePath remainder).1 scheme.defaultPort).map
          fun (host, port, ipv6) =>
          { scheme, host, port, basePath := (splitBasePath remainder).2, ipv6 }

/-- What `join_path` puts before the request path: nothing for the root. -/
def pathPrefix (e : UpstreamEndpoint) : Text :=
  if e.basePath.isEmpty || e.basePath == ['/'] then [] else trimEndMatches '/' e.basePath

def joinPath (e : UpstreamEndpoint) (requestPath : Text) : Text :=
  if e.basePath.isEmpty || e.basePath == ['/'] then requestPath
  else
    trimEndMatches '/' e.basePath ++
      if requestPath.head? == some '/' then requestPath else '/' :: requestPath

theorem stripScheme_suffix {remainder : Text} {scheme : UpstreamScheme}
    (h : stripScheme value = some (scheme, remainder)) : ∀ c ∈ remainder, c ∈ value := by
  unfold stripScheme at h
  split at h
  · next r hr =>
    obtain ⟨-, rfl⟩ := Prod.mk.inj (Option.some.inj h)
    rw [stripPrefix_eq_some hr]
    exact fun c hc => mem_append_right _ hc
  · next hr =>
    obtain ⟨_, hr, heq⟩ := Option.map_eq_some_iff.mp h
    obtain ⟨-, rfl⟩ := Prod.mk.inj heq
    rw [stripPrefix_eq_some hr]
    exact fun c hc => mem_append_right _ hc

theorem splitBasePath_snd (remainder : Text) :
    ((splitBasePath remainder).2 = [] ∨ (splitBasePath remainder).2.head? = some '/') ∧
      ∀ c ∈ (splitBasePath remainder).2, c ∈ remainder := by
  unfold splitBasePath
  split
  · next authority path h =>
    obtain ⟨rfl, -⟩ := splitOnce_eq_some h
    exact ⟨.inr rfl, fun c hc => mem_append_right _ hc⟩
  · exact ⟨.inl rfl, by simp⟩

theorem parse_basePath {e : UpstreamEndpoint} (h : parse value = .ok e) :
    (e.basePath = [] ∨ e.basePath.head? = some '/') ∧ ∀ c ∈ e.basePath, isControl c = false := by
  unfold parse at h
  split_ifs at h with hv
  simp only [Bool.or_eq_true, any_eq_true, not_or, not_exists, not_and, Bool.not_eq_true] at hv
  split at h
  · cases h
  · next scheme remainder hs =>
    split_ifs at h with ha
    cases hauth : parseAuthority (splitBasePath remainder).1 scheme.defaultPort with
    | error => simp [hauth, Except.map] at h
    | ok =>
      simp only [hauth, Except.map, Except.ok.injEq] at h
      subst h
      obtain ⟨hhead, hmem⟩ := splitBasePath_snd remainder
      exact ⟨hhead, fun c hc => hv.1 c (stripScheme_suffix hs c (hmem c hc))⟩

end UpstreamEndpoint

inductive UpstreamTlsPolicy where
  | disabled
  | serverAuthenticated (serverName : TlsServerName) (httpHost : UpstreamHttpHost)
      (trustBundleRef : TrustBundleRef)
  deriving DecidableEq

inductive ReplayMethod where
  | get | head | other
  deriving DecidableEq

structure RetryPolicy where
  enabled : Bool
  maxRetries : ℕ
  maxReplayBytes : ℕ
  deriving DecidableEq

inductive RetryFailureKind where
  | connect | connectTimeout | write | read | readTimeout | resetBeforeResponse

structure RetryInput where
  policy : RetryPolicy
  method : ReplayMethod
  bodyBytes : ℕ
  requestBytesWritten : ℕ
  responseStarted : Bool
  attemptsUsed : ℕ
  replayReserved : Bool
  failure : RetryFailureKind

inductive RetryDenialReason where
  | disabled | methodNotReplayable | bodyPresent | requestWriteStarted | responseStarted
  | retryBudgetExhausted | replayBudgetExhausted
  deriving DecidableEq

inductive RetryDecision where
  | retry
  | doNotRetry (reason : RetryDenialReason)
  deriving DecidableEq

/-- Every kind of failure is retryable, so the source's last check never denies. -/
def evaluateRetry (input : RetryInput) : RetryDecision :=
  if !input.policy.enabled then .doNotRetry .disabled
  else if input.method = .other then .doNotRetry .methodNotReplayable
  else if input.bodyBytes ≠ 0 then .doNotRetry .bodyPresent
  else if input.requestBytesWritten ≠ 0 then .doNotRetry .requestWriteStarted
  else if input.responseStarted then .doNotRetry .responseStarted
  else if input.attemptsUsed ≥ input.policy.maxRetries then .doNotRetry .retryBudgetExhausted
  else if !input.replayReserved then .doNotRetry .replayBudgetExhausted
  else .retry

end EdgeProxy
