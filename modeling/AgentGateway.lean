import AgentGateway.Gateway.Transport
import AgentGateway.Invocation.Solo
import AgentGateway.Main
import AgentGateway.Proofs.Correlation
import AgentGateway.Proofs.Reports
import AgentGateway.Proofs.Ended
import AgentGateway.Proofs.Awaited
import AgentGateway.Proofs.Course
import AgentGateway.Proofs.Cutting
import AgentGateway.Proofs.Meaning
import AgentGateway.Proofs.Release
import AgentGateway.Proofs.Deadline
import AgentGateway.Proofs.Admission
import AgentGateway.Proofs.Streaming
import AgentGateway.Proofs.Fulfilment
import AgentGateway.Proofs.Windows
import AgentGateway.Proofs.Retrying
import AgentGateway.Proofs.Lifecycle
import AgentGateway.Proofs.Ownership
import AgentGateway.Proofs.Listing
import AgentGateway.Proofs.Advancing
import AgentGateway.Proofs.Reencoding
import AgentGateway.Proofs.Paging
import AgentGateway.Proofs.Replies
import AgentGateway.Proofs.Overtaking
import AgentGateway.Proofs.Consistency
import AgentGateway.Proofs.Conversation
import AgentGateway.Proofs.Indexing
import AgentGateway.Proofs.Arrivals
import AgentGateway.Proofs.Isolation
import AgentGateway.Proofs.Settings
import AgentGateway.Proofs.Payloads
import AgentGateway.Proofs.Refusals
import AgentGateway.Proofs.Headers
import AgentGateway.Proofs.Checks
import AgentGateway.Proofs.Telling
import AgentGateway.Proofs.Eviction
import AgentGateway.Proofs.Gate
import AgentGateway.Proofs.Configuration
import AgentGateway.Proofs.Withdrawal
