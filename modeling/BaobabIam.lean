import BaobabIam.Federation.BrokerOnce
import BaobabIam.Federation.ConsumeRuns
import BaobabIam.Federation.OidcPruning
import BaobabIam.Federation.OidcRuns
import BaobabIam.Federation.PostgresStorage
import BaobabIam.Federation.SamlShape
import BaobabIam.Federation.SnapshotDigest
import BaobabIam.Federation.SupervisedContexts
import BaobabIam.Federation.TrustContainment
import BaobabIam.Federation.TrustProposals
import BaobabIam.Federation.TrustReads
import BaobabIam.Migration.BatchRuns
import BaobabIam.Migration.ContainmentRuns
import BaobabIam.Migration.Contention
import BaobabIam.Migration.MemoryRuns
import BaobabIam.Migration.ProviderCalls
import BaobabIam.Migration.Readiness
import BaobabIam.Migration.Rollback
import BaobabIam.NativeBff.LoginRuns
import BaobabIam.TokenProfile.Consent
import BaobabIam.Ory.Documents
import BaobabIam.Ory.HandoffRuns
import BaobabIam.Ory.Scopes
import BaobabIam.Ory.TrustedIssuers
import BaobabIam.BundleEncoding
import BaobabIam.DerivedKeys
import BaobabIam.Qualification.Deadline
import BaobabIam.Qualification.EvidenceGate
import BaobabIam.Qualification.Receipt
import BaobabIam.WireFormats
import BaobabIam.WorkloadResource.Sets
