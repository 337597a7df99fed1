import Canopee.Results.Recipients
import Canopee.Results.Reconciliation
import Canopee.Results.VerifiedMap
import Canopee.Results.Binding
import Canopee.Results.Untracked
import Canopee.Results.Deletion
import Canopee.Results.Replay
import Canopee.Results.Revocation
import Canopee.Results.Resolution
import Canopee.Results.Household
import Canopee.Results.Anchored
import Canopee.Results.Advance
import Canopee.Results.Mirror
import Canopee.Results.Unsharing
import Canopee.Results.Backing
import Canopee.Results.Grant
import Canopee.Results.Sealing
import Canopee.Results.ReadBack
import Canopee.Results.Encrypted
import Canopee.Results.Ledger
import Canopee.Results.Adoption
import Canopee.Results.KeyBackup
import Canopee.Results.PairingSession
import Canopee.Results.PairingAgreement
import Canopee.Results.Frames
import Canopee.Results.AppPointer
import Canopee.Results.Peers
import Canopee.Results.Replies
import Canopee.Results.PairingBursts
import Canopee.Results.Subscriptions
import Canopee.Results.ResponseFraming
import Canopee.Results.LocalServing
import Canopee.Results.RequestFraming
import Canopee.Results.GatewayCommands
import Canopee.Results.JunkFiles
import Canopee.Results.Providers
import Canopee.Results.Dangling
import Canopee.Results.Sweep
import Canopee.Results.Immutable
import Canopee.Results.Usernames
import Canopee.Results.Labels
import Canopee.Results.Tearing
import Canopee.Results.OneIdentity
import Canopee.Results.ServeSessions
import Canopee.Results.Ranges
import Canopee.Results.Decisions
import Canopee.Results.PointerBinding
import Canopee.Results.Registration
import Canopee.Results.Removal
import Canopee.Results.Interleaving
import Canopee.Results.Addresses
import Canopee.Cli.Publish
import Canopee.Results.LinkCheck
import Canopee.Results.OpenByName
import Canopee.Runtime.Puts
import Canopee.Results.Framing
import Canopee.Results.LoopbackOrigin
import Canopee.Results.Views
import Canopee.Results.KeyEnvelopes
import Canopee.Results.Replication
import Canopee.Results.LanAddress
import Canopee.Results.LeastRecent
import Canopee.Results.Visibility
import Canopee.Cli.FetchApp
import Canopee.Cli.Sharing
import Canopee.Edge.Forward
import Canopee.Gateway.Accept
import Canopee.Lib.HttpStream
import Canopee.Lib.Lease
import Canopee.Node.Delivery
import Canopee.Results.Admission
import Canopee.Results.Browsing
import Canopee.Results.Delivery
import Canopee.Results.Exchange
import Canopee.Results.Revalidation
import Canopee.Results.Routing
