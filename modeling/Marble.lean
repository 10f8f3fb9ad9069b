import Marble.Element
import Marble.Json.Reader
import Marble.LogFilter
import Marble.Proofs.Agreement
import Marble.Proofs.Airing
import Marble.Proofs.Beats
import Marble.Proofs.Bindings
import Marble.Proofs.Bookings
import Marble.Proofs.Broadcast
import Marble.Proofs.Building
import Marble.Proofs.Caseless
import Marble.Proofs.Changes
import Marble.Proofs.ClockHistory
import Marble.Proofs.ColdRuns
import Marble.Proofs.Columns
import Marble.Proofs.Company
import Marble.Proofs.Compilation
import Marble.Proofs.Concatenation
import Marble.Proofs.Differences
import Marble.Proofs.DispatchOrder
import Marble.Proofs.Draining
import Marble.Proofs.Effects
import Marble.Proofs.ElementWise
import Marble.Proofs.Ending
import Marble.Proofs.Enrolment
import Marble.Proofs.ExitPaths
import Marble.Proofs.Expectation
import Marble.Proofs.Faults
import Marble.Proofs.Guards
import Marble.Proofs.HotRun
import Marble.Proofs.Independence
import Marble.Proofs.Interference
import Marble.Proofs.Invocations
import Marble.Proofs.JsonForms
import Marble.Proofs.Judgement
import Marble.Proofs.Lifecycle
import Marble.Proofs.Mirror
import Marble.Proofs.Multicast
import Marble.Proofs.Phases
import Marble.Proofs.Pipelines
import Marble.Proofs.Postponing
import Marble.Proofs.Punctuality
import Marble.Proofs.Reachable
import Marble.Proofs.Recording
import Marble.Proofs.Recovery
import Marble.Proofs.Refinement
import Marble.Proofs.Refusal
import Marble.Proofs.Release
import Marble.Proofs.Resolution
import Marble.Proofs.RoundTrip
import Marble.Proofs.Run
import Marble.Proofs.Scripts
import Marble.Proofs.StackDiscipline
import Marble.Proofs.Stamping
import Marble.Proofs.Stepwise
import Marble.Proofs.Subscribe
import Marble.Proofs.Telling
import Marble.Proofs.Temperatures
import Marble.Proofs.Tenure
import Marble.Proofs.TimedRun
import Marble.Proofs.Timeline
import Marble.Proofs.Turns
import Marble.Proofs.Verdict
import Marble.Proofs.Watch
import Marble.Scenario.Answer
import Marble.Settings.Environment
import Marble.Proofs.Clockwork
