import EdgeProxy.Domain.Upstream

/-! # The names of the error codes

The stable texts under which error codes are shown and recorded.
-/

namespace EdgeProxy

namespace ErrorCode

def asStr : ErrorCode → String
  | configAdminBindConflict => "CONFIG_ADMIN_BIND_CONFLICT"
  | configAdminExternalBindWithoutAuth => "CONFIG_ADMIN_EXTERNAL_BIND_WITHOUT_AUTH"
  | configAcmeChallengeBlockedByRedirect => "CONFIG_ACME_CHALLENGE_BLOCKED_BY_REDIRECT"
  | configHttp01WithoutHttpListener => "CONFIG_HTTP01_WITHOUT_HTTP_LISTENER"
  | configHttpsRouteCertificateMissing => "CONFIG_HTTPS_ROUTE_CERTIFICATE_MISSING"
  | configInvalidAcmeEmail => "CONFIG_INVALID_ACME_EMAIL"
  | configInvalidBindAddress => "CONFIG_INVALID_BIND_ADDRESS"
  | configHealthCheckInvalidInterval => "CONFIG_HEALTH_CHECK_INVALID_INTERVAL"
  | configHealthCheckInvalidPath => "CONFIG_HEALTH_CHECK_INVALID_PATH"
  | configHealthCheckInvalidStatusRange => "CONFIG_HEALTH_CHECK_INVALID_STATUS_RANGE"
  | configHealthCheckInvalidThreshold => "CONFIG_HEALTH_CHECK_INVALID_THRESHOLD"
  | configInvalidLoadBalancingPolicy => "CONFIG_INVALID_LOAD_BALANCING_POLICY"
  | configInvalidLogMode => "CONFIG_INVALID_LOG_MODE"
  | configResourceLimitInvalid => "CONFIG_RESOURCE_LIMIT_INVALID"
  | configRetryPolicyInvalid => "CONFIG_RETRY_POLICY_INVALID"
  | configPassiveHealthPolicyInvalid => "CONFIG_PASSIVE_HEALTH_POLICY_INVALID"
  | configInvalidUpstreamUrl => "CONFIG_INVALID_UPSTREAM_URL"
  | configTrustBundleRefInvalid => "CONFIG_TRUST_BUNDLE_REF_INVALID"
  | configTrustBundleNotFound => "CONFIG_TRUST_BUNDLE_NOT_FOUND"
  | trustBundleInvalid => "TRUST_BUNDLE_INVALID"
  | trustBundleAlreadyExists => "TRUST_BUNDLE_ALREADY_EXISTS"
  | trustBundleLimitExceeded => "TRUST_BUNDLE_LIMIT_EXCEEDED"
  | trustBundleReferenced => "TRUST_BUNDLE_REFERENCED"
  | trustBundleStoreFailed => "TRUST_BUNDLE_STORE_FAILED"
  | upstreamTlsUntrusted => "UPSTREAM_TLS_UNTRUSTED"
  | upstreamTlsIdentityMismatch => "UPSTREAM_TLS_IDENTITY_MISMATCH"
  | upstreamTlsProfileInvalid => "UPSTREAM_TLS_PROFILE_INVALID"
  | configTlsServerNameInvalid => "CONFIG_TLS_SERVER_NAME_INVALID"
  | configUpstreamHttpHostInvalid => "CONFIG_UPSTREAM_HTTP_HOST_INVALID"
  | configTlsPolicyInvalid => "CONFIG_TLS_POLICY_INVALID"
  | configClientAuthPolicyInvalid => "CONFIG_CLIENT_AUTH_POLICY_INVALID"
  | configUpstreamIdDuplicate => "CONFIG_UPSTREAM_ID_DUPLICATE"
  | configUpstreamIdRequired => "CONFIG_UPSTREAM_ID_REQUIRED"
  | configListenerDuplicate => "CONFIG_LISTENER_DUPLICATE"
  | configProductionAcmeRequiresOptIn => "CONFIG_PRODUCTION_ACME_REQUIRES_OPT_IN"
  | configCurrentRevisionInvalid => "CONFIG_CURRENT_REVISION_INVALID"
  | configCurrentRevisionMissing => "CONFIG_CURRENT_REVISION_MISSING"
  | configBootstrapSeedInvalid => "CONFIG_BOOTSTRAP_SEED_INVALID"
  | configRevisionNotFound => "CONFIG_REVISION_NOT_FOUND"
  | configRouteDuplicate => "CONFIG_ROUTE_DUPLICATE"
  | configRouteMatchEmpty => "CONFIG_ROUTE_MATCH_EMPTY"
  | configRouteMissingService => "CONFIG_ROUTE_MISSING_SERVICE"
  | configSchemaVersionMissing => "CONFIG_SCHEMA_VERSION_MISSING"
  | configServiceWithoutUpstream => "CONFIG_SERVICE_WITHOUT_UPSTREAM"
  | configStoreFailed => "CONFIG_STORE_FAILED"
  | configUnsafeUpstreamUrl => "CONFIG_UNSAFE_UPSTREAM_URL"
  | acmeChallengeFailed => "ACME_CHALLENGE_FAILED"
  | acmeTermsNotAccepted => "ACME_TERMS_NOT_ACCEPTED"
  | adminAuthRequired => "ADMIN_AUTH_REQUIRED"
  | adminCsrfRequired => "ADMIN_CSRF_REQUIRED"
  | adminEndpointNotImplemented => "ADMIN_ENDPOINT_NOT_IMPLEMENTED"
  | adminInvalidCredentials => "ADMIN_INVALID_CREDENTIALS"
  | adminRouteNotFound => "ADMIN_ROUTE_NOT_FOUND"
  | adminSetupAlreadyComplete => "ADMIN_SETUP_ALREADY_COMPLETE"
  | adminSetupRequired => "ADMIN_SETUP_REQUIRED"
  | certificateExpired => "CERTIFICATE_EXPIRED"
  | certificateInvalid => "CERTIFICATE_INVALID"
  | certificateNotFound => "CERTIFICATE_NOT_FOUND"
  | certificateStoreFailed => "CERTIFICATE_STORE_FAILED"
  | httpConnectMethodRejected => "HTTP_CONNECT_METHOD_REJECTED"
  | httpHeaderTooLarge => "HTTP_HEADER_TOO_LARGE"
  | httpMalformedRequest => "HTTP_MALFORMED_REQUEST"
  | httpRequestBodyTooLarge => "HTTP_REQUEST_BODY_TOO_LARGE"
  | httpRequestLineTooLarge => "HTTP_REQUEST_LINE_TOO_LARGE"
  | httpTransferEncodingContentLengthConflict => "HTTP_TRANSFER_ENCODING_CONTENT_LENGTH_CONFLICT"
  | supportBundleBoundsExceeded => "SUPPORT_BUNDLE_BOUNDS_EXCEEDED"
  | supportBundleReportInvalid => "SUPPORT_BUNDLE_REPORT_INVALID"
  | runtimeCommandRejected => "RUNTIME_COMMAND_REJECTED"
  | runtimeHealthUnavailable => "RUNTIME_HEALTH_UNAVAILABLE"
  | runtimeUpstreamBadGateway => "RUNTIME_UPSTREAM_BAD_GATEWAY"
  | runtimeUpstreamTimeout => "RUNTIME_UPSTREAM_TIMEOUT"
  | resourcePayloadCapacityReached => "RESOURCE_PAYLOAD_CAPACITY_REACHED"
  | resourceAllocationFailed => "RESOURCE_ALLOCATION_FAILED"
  | resourceAccountingInvariantFailed => "RESOURCE_ACCOUNTING_INVARIANT_FAILED"
  | tlsHandshakeFailed => "TLS_HANDSHAKE_FAILED"
  | tlsHandshakeTimeout => "TLS_HANDSHAKE_TIMEOUT"
  | processCommandInvalid => "PROCESS_COMMAND_INVALID"
  | processCommandNotImplemented => "PROCESS_COMMAND_NOT_IMPLEMENTED"
  | dataDirectoryBusy => "DATA_DIRECTORY_BUSY"
  | dataDirectoryLockFailed => "DATA_DIRECTORY_LOCK_FAILED"
  | dataDirectoryLockStateInvalid => "DATA_DIRECTORY_LOCK_STATE_INVALID"
  | backupManifestInvalid => "BACKUP_MANIFEST_INVALID"
  | backupSchemaUnsupported => "BACKUP_SCHEMA_UNSUPPORTED"
  | backupLimitExceeded => "BACKUP_LIMIT_EXCEEDED"
  | backupSecretInputInvalid => "BACKUP_SECRET_INPUT_INVALID"
  | backupSourceInvalid => "BACKUP_SOURCE_INVALID"
  | backupSourceChanged => "BACKUP_SOURCE_CHANGED"
  | backupDestinationUnsafe => "BACKUP_DESTINATION_UNSAFE"
  | backupDestinationExists => "BACKUP_DESTINATION_EXISTS"
  | backupEncryptionFailed => "BACKUP_ENCRYPTION_FAILED"
  | backupWriteFailed => "BACKUP_WRITE_FAILED"
  | backupPublishFailed => "BACKUP_PUBLISH_FAILED"
  | backupStateTransitionInvalid => "BACKUP_STATE_TRANSITION_INVALID"
  | backupAuthenticationFailed => "BACKUP_AUTHENTICATION_FAILED"
  | backupFormatInvalid => "BACKUP_FORMAT_INVALID"
  | backupDigestMismatch => "BACKUP_DIGEST_MISMATCH"
  | backupPathUnsafe => "BACKUP_PATH_UNSAFE"
  | restoreTargetBusy => "RESTORE_TARGET_BUSY"
  | restoreTargetNotEmpty => "RESTORE_TARGET_NOT_EMPTY"
  | restoreTargetUnsafe => "RESTORE_TARGET_UNSAFE"
  | restoreStageFailed => "RESTORE_STAGE_FAILED"
  | restoreConfigInvalid => "RESTORE_CONFIG_INVALID"
  | restoreCertificateInvalid => "RESTORE_CERTIFICATE_INVALID"
  | restoreSecretInvalid => "RESTORE_SECRET_INVALID"
  | restorePreflightFailed => "RESTORE_PREFLIGHT_FAILED"
  | restoreCommitFailed => "RESTORE_COMMIT_FAILED"
  | restoreRollbackFailed => "RESTORE_ROLLBACK_FAILED"
  | restoreTransactionUnresolved => "RESTORE_TRANSACTION_UNRESOLVED"
  | restoreTransactionAmbiguous => "RESTORE_TRANSACTION_AMBIGUOUS"
  | restorePlatformUnsupported => "RESTORE_PLATFORM_UNSUPPORTED"
  | restoreStateTransitionInvalid => "RESTORE_STATE_TRANSITION_INVALID"
  | auditUnavailable => "AUDIT_UNAVAILABLE"
  | auditMutationBlocked => "AUDIT_MUTATION_BLOCKED"
  | auditRecordInvalid => "AUDIT_RECORD_INVALID"
  | auditRecordTooLarge => "AUDIT_RECORD_TOO_LARGE"
  | auditCapacityReached => "AUDIT_CAPACITY_REACHED"
  | auditSequenceInvalid => "AUDIT_SEQUENCE_INVALID"
  | auditChainMismatch => "AUDIT_CHAIN_MISMATCH"
  | auditInteriorCorruption => "AUDIT_INTERIOR_CORRUPTION"
  | auditTrailingFrameIncomplete => "AUDIT_TRAILING_FRAME_INCOMPLETE"
  | auditUnsupportedVersion => "AUDIT_UNSUPPORTED_VERSION"
  | auditAppendFailed => "AUDIT_APPEND_FAILED"
  | auditSyncFailed => "AUDIT_SYNC_FAILED"
  | auditCursorInvalid => "AUDIT_CURSOR_INVALID"
  | auditReconciliationUnknown => "AUDIT_RECONCILIATION_UNKNOWN"
  | internalBug => "INTERNAL_BUG"

end ErrorCode

end EdgeProxy
