import ScopeChain.Arena
import ScopeChain.Command
import ScopeChain.Equality
import ScopeChain.ErrorReport
import ScopeChain.Event
import ScopeChain.Fault
import ScopeChain.Insertion
import ScopeChain.KeyFunction
import ScopeChain.Lookup
import ScopeChain.Number
import ScopeChain.Objects
import ScopeChain.Operation
import ScopeChain.Rendering
import ScopeChain.ScopeMap
import ScopeChain.Session
import ScopeChain.Store
import ScopeChain.Text.Printable
import ScopeChain.Text.Quoted
import ScopeChain.Value
import ScopeChain.Walk
import ScopeChain.Proofs.Runs
import ScopeChain.Proofs.Paths
import ScopeChain.Proofs.Linking
import ScopeChain.Proofs.Views
import ScopeChain.Proofs.SharedScopes
import ScopeChain.Proofs.Sessions
import ScopeChain.Proofs.Buckets
import ScopeChain.Proofs.Reinsertion
import ScopeChain.Proofs.Stack
import ScopeChain.Proofs.StackRefinement
import ScopeChain.Proofs.Splicing
import ScopeChain.Proofs.DepthCount
import ScopeChain.Proofs.Distinct
import ScopeChain.Proofs.Disambiguation
import ScopeChain.Proofs.Slots
import ScopeChain.Proofs.WalkSteps
import ScopeChain.Proofs.LiveWalks
import ScopeChain.Proofs.Visibility
import ScopeChain.Proofs.Brackets
import ScopeChain.Proofs.ScopedBlocks
import ScopeChain.Proofs.LockStep
import ScopeChain.Proofs.Rearrangement
import ScopeChain.Proofs.Commuting
import ScopeChain.Proofs.SuspendedWalks
import ScopeChain.Proofs.Failures
import ScopeChain.Proofs.NodeSettings
import ScopeChain.Proofs.Settings
import ScopeChain.Proofs.PreparedKeys
import ScopeChain.Proofs.Rejections
import ScopeChain.Proofs.Listings
import ScopeChain.Proofs.Narrowing
import ScopeChain.Proofs.OwnSettings
import ScopeChain.Proofs.Membership
import ScopeChain.Proofs.HandlePrograms
import ScopeChain.Proofs.JournalLines
import ScopeChain.Proofs.JournalTrace
import ScopeChain.Proofs.UnseenAttributes
import ScopeChain.Proofs.QuotedForms
import ScopeChain.Proofs.QuotedTexts
