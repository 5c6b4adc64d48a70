import LibXmtp.Associations.Recovery
import LibXmtp.Associations.ReplayFreedom
import LibXmtp.Associations.Legacy
import LibXmtp.Associations.SignatureText
import LibXmtp.Associations.Ecdsa
import LibXmtp.Associations.Revocation
import LibXmtp.Associations.ChainBinding
import LibXmtp.Associations.Builder
import LibXmtp.Mls.AssociationStateDiff
import LibXmtp.Mls.KeyRotationRuns
import LibXmtp.Groups.ValidateProposal
import LibXmtp.Data.TlsMapHistory
import LibXmtp.Data.TlsSetHash
import LibXmtp.AppData.RegistryWrites
import LibXmtp.AppData.SuperAdminList
import LibXmtp.AppData.Convergence
import LibXmtp.AppData.Coverage
import LibXmtp.D14n.ChildRecovery
import LibXmtp.D14n.OrderAscending
import LibXmtp.D14n.OrderTermination
import LibXmtp.AppData.MigratedPermissions
import LibXmtp.AppData.PolicyAgreement
import LibXmtp.Groups.PolicyRoundTrip
import LibXmtp.Groups.MessageIds
import LibXmtp.Groups.IntentRuns
import LibXmtp.Groups.MessageAtomicity
import LibXmtp.Groups.PendingMembership
import LibXmtp.Groups.HonestCommitLog
import LibXmtp.Groups.ForkCheck
import LibXmtp.AppData.PermissionUpdates
import LibXmtp.AppData.BootstrapDictionary
import LibXmtp.Messages.DeletionOrder
import LibXmtp.Groups.WelcomeCoverage
import LibXmtp.Groups.WelcomeSafety
import LibXmtp.Groups.SelfRemoveRuns
import LibXmtp.Groups.LeaveMemberships
import LibXmtp.Archive.Completeness
import LibXmtp.Archive.RoundTrip
import LibXmtp.Subscriptions.CatchUpRuns
import LibXmtp.D14n.Resolve
import LibXmtp.Groups.DmConsent
import LibXmtp.D14n.Dependents
import LibXmtp.Mls.CursorStore
import LibXmtp.Archive.Termination
import LibXmtp.Messages.StitchedDeletions
import LibXmtp.D14n.CutoverRuns
import LibXmtp.AppData.MembershipPolicies
import LibXmtp.AppData.MembershipDelta
import LibXmtp.Bidi.WireCoverage
import LibXmtp.Types.ClockOrdering
import LibXmtp.Mls.KeyPackageSweepRuns
import LibXmtp.Groups.UnreadGroups
import LibXmtp.Bidi.ConnectionOrder
import LibXmtp.AppData.BootstrapReads
import LibXmtp.Bidi.V3Connection
import LibXmtp.AppData.MetadataReads
import LibXmtp.Db.ProposalQueue
import LibXmtp.Groups.CommitAgreement
