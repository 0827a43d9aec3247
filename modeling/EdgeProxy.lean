import EdgeProxy.Admin.AuditFlood
import EdgeProxy.Admin.CertificateMetadata
import EdgeProxy.Admin.Startup
import EdgeProxy.Audit.Canonical
import EdgeProxy.Audit.Crash
import EdgeProxy.Audit.Evidence
import EdgeProxy.Audit.Mutation
import EdgeProxy.Core.Coherence
import EdgeProxy.Core.FailClosed
import EdgeProxy.Core.Fencing
import EdgeProxy.Core.LocalResponses
import EdgeProxy.Core.LogSampler
import EdgeProxy.Core.Pressure
import EdgeProxy.Core.TlsSession
import EdgeProxy.Health.Ciphertext
import EdgeProxy.Http.Outbound
import EdgeProxy.Http.Relay
import EdgeProxy.Http.RequestBuffer
import EdgeProxy.Restore.Progress
import EdgeProxy.Runtime.TunnelFifo
import EdgeProxy.Switch.Atomic
import EdgeProxy.Upgrade.Recovery
