import FeedPoller.Main
import FeedPoller.Poll.Shown
import FeedPoller.Settings.Encode
import FeedPoller.Simulation.Daemon
import FeedPoller.Simulation.Play
import FeedPoller.Simulation.TokenFile
import FeedPoller.Proofs.Poll.Marks
import FeedPoller.Proofs.Poll.Overlap
import FeedPoller.Proofs.Poll.Coherence
import FeedPoller.Proofs.Poll.Starts
import FeedPoller.Proofs.Simulation.Clock
import FeedPoller.Proofs.Poll.Disposal
import FeedPoller.Proofs.Feed.Fetching
import FeedPoller.Proofs.Report.Nesting
import FeedPoller.Proofs.Isolation.Keys
import FeedPoller.Proofs.Poll.Handles
import FeedPoller.Proofs.Session.Following
import FeedPoller.Proofs.Settings.Limits
import FeedPoller.Auth.System
import FeedPoller.Session.Foreground
import FeedPoller.Proofs.Auth.Token
import FeedPoller.Proofs.Auth.Watching
import FeedPoller.Proofs.Daemon.Launch
import FeedPoller.Proofs.Poll.Rhythm
import FeedPoller.Proofs.Poll.Refresh
import FeedPoller.Proofs.Session.Foreground
import FeedPoller.Proofs.Poll.Pauses
import FeedPoller.Proofs.Poll.Requests
import FeedPoller.Proofs.Poll.Timetable
import FeedPoller.Proofs.Poll.Reopening
import FeedPoller.Proofs.Poll.Admission
import FeedPoller.Proofs.Poll.Tallies
import FeedPoller.Proofs.Feed.Removal
import FeedPoller.Proofs.Feed.Flags
import FeedPoller.Proofs.Feed.Summary
import FeedPoller.Proofs.Feed.Authorization
import FeedPoller.Proofs.Health.Transitions
import FeedPoller.Proofs.Report.Reprint
