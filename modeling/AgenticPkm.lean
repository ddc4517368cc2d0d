import AgenticPkm.AgentMemory.Materialization
import AgenticPkm.Builderops.CompiledRuns
import AgenticPkm.Builderops.Compiler.Order
import AgenticPkm.Builderops.ControlPlane.Offers
import AgenticPkm.Builderops.Reducer.Acknowledgement
import AgenticPkm.Builderops.Reducer.Identity
import AgenticPkm.Builderops.Reducer.Independence
import AgenticPkm.Builderops.Reducer.Materialize
import AgenticPkm.Builderops.Reducer.Progress
import AgenticPkm.Dispatcher.Cleanup
import AgenticPkm.Dispatcher.CodexVerdict
import AgenticPkm.Dispatcher.Exclusive
import AgenticPkm.Dispatcher.ReadyScan
import AgenticPkm.Episodes.Crash
import AgenticPkm.Episodes.Redelivery
import AgenticPkm.Episodes.Sessions
import AgenticPkm.Heimdal.CandidateProjection
import AgenticPkm.Heimdal.MeetingBlocks
import AgenticPkm.Heimdal.MeetingFinalization
import AgenticPkm.Heimdal.MeetingGaps
import AgenticPkm.Heimdal.RevocationErasure
import AgenticPkm.Heimdal.TimeSpend
import AgenticPkm.Outbox.Accounted
import AgenticPkm.Outbox.EventLog
import AgenticPkm.StandingQuestions.Timestamps
