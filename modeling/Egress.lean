import Egress.Embedding.Interface
import Egress.Main
import Egress.Proofs.Rotation
import Egress.Proofs.DecisionMemo
import Egress.Proofs.Descriptors
import Egress.Proofs.Negotiation
import Egress.Proofs.ProxyReply
import Egress.Proofs.Reachable
import Egress.Proofs.Bare
import Egress.Proofs.NamedDial
import Egress.Proofs.NameRoute
import Egress.Proofs.DirectTargets
import Egress.Proofs.Replacement
import Egress.Proofs.Swap
import Egress.Proofs.Eviction
import Egress.Proofs.KeptAnswers
import Egress.Proofs.AddressText
import Egress.Proofs.DecisionKeys
import Egress.Proofs.Talk
import Egress.Proofs.Disclosure
import Egress.Proofs.Accounting
import Egress.Proofs.NumericGrammar
import Egress.Proofs.RuleHistory
import Egress.Proofs.EmbeddedRun
import Egress.Proofs.NameBuffers
import Egress.Proofs.OwnAddresses
import Egress.Proofs.Candidates
import Egress.Proofs.Verdicts
import Egress.Proofs.Unbound
import Egress.Proofs.ExemptCalls
import Egress.Proofs.RequestFormat
import Egress.Proofs.StoredAddresses
import Egress.Proofs.DomainLabels
import Egress.Proofs.ExemptNetworks
import Egress.Proofs.Waiting
import Egress.Proofs.Receiving
import Egress.Proofs.Sending
import Egress.Proofs.HostCase
import Egress.Proofs.Spacing
import Egress.Proofs.ResolvedSlots
import Egress.Proofs.MappedTargets
import Egress.Proofs.Passes
import Egress.Proofs.Arguments
import Egress.Proofs.Wildcards
import Egress.Proofs.Printed
import Egress.Proofs.CheckedRoute
