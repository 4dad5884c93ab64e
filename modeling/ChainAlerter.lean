import ChainAlerter.Library.ParentTree
import ChainAlerter.Library.EventRun
import ChainAlerter.Library.BoundedVec
import ChainAlerter.Library.GreedyChain
import ChainAlerter.Model.Types
import ChainAlerter.Model.HeaderCache
import ChainAlerter.Model.BlockTree
import ChainAlerter.Model.TreeRoute
import ChainAlerter.Model.Listener
import ChainAlerter.Abstract.Tracker
import ChainAlerter.Abstract.Source
import ChainAlerter.Abstract.Departure
import ChainAlerter.Model.World
import ChainAlerter.Proofs.Tracks
import ChainAlerter.Model.Alert
import ChainAlerter.Model.StallAndReorg
import ChainAlerter.Model.Slots
import ChainAlerter.Proofs.World
import ChainAlerter.Proofs.Agreement
import ChainAlerter.Proofs.Broadcast
import ChainAlerter.Proofs.ReorgAlerts
import ChainAlerter.Proofs.DeepReorg
import ChainAlerter.Proofs.Truthful
import ChainAlerter.Proofs.Survival
import ChainAlerter.Proofs.Reconnect
import ChainAlerter.Proofs.SlotHistory
import ChainAlerter.Proofs.SlotPanics
import ChainAlerter.Library.StallTrace
import ChainAlerter.Proofs.Recovery
import ChainAlerter.Proofs.SlotWindow
import ChainAlerter.Proofs.SlotGaps
import ChainAlerter.Library.Timer
import ChainAlerter.Proofs.Stalls
import ChainAlerter.Proofs.CacheDepth
import ChainAlerter.Library.Passes
import ChainAlerter.Model.Events
import ChainAlerter.Proofs.Events
import ChainAlerter.Proofs.RouteRefetch
import ChainAlerter.Library.BroadcastChannel
import ChainAlerter.Model.Process
import ChainAlerter.Proofs.Monitors
import ChainAlerter.Library.GroupIndex
import ChainAlerter.Library.WhileLoop
import ChainAlerter.Proofs.CacheMaps
import ChainAlerter.Proofs.ChainStalls
import ChainAlerter.Proofs.SlotRuns
import ChainAlerter.Library.DecimalText
import ChainAlerter.Model.MdFormat
import ChainAlerter.Model.Slack
import ChainAlerter.Proofs.Amounts
import ChainAlerter.Library.Mailbox
import ChainAlerter.Model.Alerter
import ChainAlerter.Proofs.AlerterSteps
import ChainAlerter.Proofs.Delivery
import ChainAlerter.Library.LineText
import ChainAlerter.Proofs.Texts
import ChainAlerter.Model.Deployment
import ChainAlerter.Proofs.Deployment
import ChainAlerter.Proofs.PostedReorgs
import ChainAlerter.Proofs.PostedEvents
import ChainAlerter.Proofs.PostedSlots
import ChainAlerter.Proofs.NoPanics
import ChainAlerter.Proofs.PostedDeepReorg
import ChainAlerter.Proofs.CatchUp
import ChainAlerter.Model.Main
import ChainAlerter.Proofs.Supervision
import ChainAlerter.Proofs.Configured
import ChainAlerter.Proofs.Endurance
