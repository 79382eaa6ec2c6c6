import AgentOAuth.Lib.Transition
import AgentOAuth.Lib.Interleaving
import AgentOAuth.Lib.Effect
import AgentOAuth.Lib.Words
import AgentOAuth.Lib.Derivation
import AgentOAuth.Lib.Table
import AgentOAuth.Lib.Binary64
import AgentOAuth.Model.Errors
import AgentOAuth.Model.Text
import AgentOAuth.Model.Registration
import AgentOAuth.Model.Forms
import AgentOAuth.Model.Scopes
import AgentOAuth.Model.Delegation
import AgentOAuth.Model.Tokens
import AgentOAuth.Model.PythonText
import AgentOAuth.Model.Storage
import AgentOAuth.Model.ClientAuth
import AgentOAuth.Model.Grants
import AgentOAuth.Model.Keys
import AgentOAuth.Model.KeyStore
import AgentOAuth.Model.Migrations
import AgentOAuth.Model.Pipeline
import AgentOAuth.Model.Routes
import AgentOAuth.Model.World
import AgentOAuth.Model.TokenBook
import AgentOAuth.Proofs.Issue
import AgentOAuth.Proofs.Lineage
import AgentOAuth.Proofs.ActorRegistration
import AgentOAuth.Proofs.Authentication
import AgentOAuth.Proofs.Parties
import AgentOAuth.Proofs.Ledger
import AgentOAuth.Proofs.SingleUse
import AgentOAuth.Proofs.TaskTrees
import AgentOAuth.Model.Config
import AgentOAuth.Model.Metadata
import AgentOAuth.Model.Startup
import AgentOAuth.Model.ResourceVerifier
import AgentOAuth.Proofs.DepthCap
import AgentOAuth.Proofs.MayAct
import AgentOAuth.Proofs.ExtraClaims
import AgentOAuth.Proofs.RequestData
import AgentOAuth.Lib.Noninterference
import AgentOAuth.Proofs.ForeignAssertions
import AgentOAuth.Proofs.VerifierParity
import AgentOAuth.Proofs.SharedKey
import AgentOAuth.Proofs.MigrateOnce
import AgentOAuth.Proofs.Restarts
import AgentOAuth.Model.ClaimsObjects
import AgentOAuth.Proofs.Attenuation
import AgentOAuth.Proofs.NestChain
import AgentOAuth.Proofs.Discovery
import AgentOAuth.Proofs.ExchangeErrors
import AgentOAuth.Proofs.FormClientId
import AgentOAuth.Proofs.MintVerify
import AgentOAuth.Proofs.ReadBack
import AgentOAuth.Proofs.UniformRefusal
import AgentOAuth.Lib.Loop
import AgentOAuth.Lib.Digits
import AgentOAuth.Model.ResourceServer
import AgentOAuth.Proofs.ScopeStrings
import AgentOAuth.Proofs.ChainGraphs
import AgentOAuth.Proofs.PublishedKey
import AgentOAuth.Proofs.ForcedRefresh
import AgentOAuth.Proofs.RegisteredMethod
import AgentOAuth.Lib.Script
import AgentOAuth.Lib.Workload
import AgentOAuth.Lib.Reduction
import AgentOAuth.Model.Statements
import AgentOAuth.Proofs.Movers
import AgentOAuth.Proofs.Serializable
import AgentOAuth.Proofs.WriteAhead
import AgentOAuth.Proofs.Authority
import AgentOAuth.Proofs.Withdrawal
import AgentOAuth.Proofs.Reports
import AgentOAuth.Model.VerifierThreads
import AgentOAuth.Proofs.SingleFlight
import AgentOAuth.Proofs.LoneThread
import AgentOAuth.Proofs.Correspondence
import AgentOAuth.Model.Repositories
import AgentOAuth.Proofs.Repositories
import AgentOAuth.Lib.Confinement
import AgentOAuth.Proofs.Isolation
import AgentOAuth.Proofs.Entitlement
import AgentOAuth.Proofs.IdealTokens
import AgentOAuth.Proofs.Obtained
