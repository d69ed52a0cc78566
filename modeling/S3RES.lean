import S3RES.Voter.VoteQueue
import S3RES.VoterD.Masking
import S3RES.VoterD.Blocking
import S3RES.VoterD.Budget
import S3RES.VoterD.Watchdog
import S3RES.VoterD.Fields
import S3RES.VoterD.Overruns
import S3RES.VoterM.SingleRound
import S3RES.VoterM.QuadRound
import S3RES.VoterM.QuadRuns
import S3RES.TimerPairs
import S3RES.PipeArguments
import S3RES.PipeScanners
import S3RES.PipeTypes
import S3RES.CommTypes.MapUpdate
import S3RES.Mapping.Obstacles
import S3RES.Mapping.Overflow
import S3RES.Mapping.Placing
import S3RES.Foundations.BestFirst
import S3RES.AStar.Lists
import S3RES.AStar.Bounds
import S3RES.AStar.Paths
import S3RES.AStar.Shortest
import S3RES.VoterD.Bookkeeping
import S3RES.VoterD.Conservation
import S3RES.VoterM.Awaiting
import S3RES.VoterM.Diagnosis
import S3RES.Foundations.Recorder
import S3RES.VoterM.Provenance
import S3RES.VoterM.Histories
import S3RES.VoterM.Restarting
import S3RES.Voter.FdServer
import S3RES.VoterS.Forwarding
import S3RES.Voter.CounterWrap
import S3RES.Voter.Losses
import S3RES.Voter.Balance
import S3RES.VoterD.Pinning
import S3RES.AStar.Safety
import S3RES.AStar.Accesses
import S3RES.Foundations.Heap
import S3RES.Mapping.NodeHeap
import S3RES.AStar.Addresses
import S3RES.AStar.Ownership
import S3RES.AStar.Lifetimes
import S3RES.AStar.Refinement
import S3RES.Plumber.Graph
import S3RES.Plumber.Parsing
import S3RES.Plumber.Launching
import S3RES.CommTypes.Messages
import S3RES.Controllers.ArtPot
import S3RES.Controllers.Driving
import S3RES.AStar.Waypoints
import S3RES.Controllers.Navigation
import S3RES.Foundations.Circulation
import S3RES.Controllers.CommandLoop
import S3RES.TasLib.Force
import S3RES.Mapping.Agreement
import S3RES.VoterD.Rewiring
import S3RES.VoterD.Descriptors
import S3RES.VoterM.Rewiring
import S3RES.Plumber.Layout
import S3RES.VoterM.Arguments
import S3RES.CommTypes.MsgBuffer
import S3RES.Controllers.Logger
