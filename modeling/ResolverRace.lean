import ResolverRace.Main
import ResolverRace.Probe.Script
import ResolverRace.Proofs.Race.Outcome
import ResolverRace.Proofs.Service.LivePool
import ResolverRace.Proofs.Service.Restart
import ResolverRace.Proofs.Session.Protocol
import ResolverRace.Proofs.Race.Workers
import ResolverRace.Proofs.Address.Canonical
import ResolverRace.Proofs.Address.Denoted
import ResolverRace.Proofs.Session.History
import ResolverRace.Proofs.Session.CatchUp
import ResolverRace.Proofs.Service.Acknowledged
import ResolverRace.Proofs.Pool.Places
import ResolverRace.Proofs.Service.Honoured
import ResolverRace.Proofs.Session.Recorded
import ResolverRace.Service.Interleaving
import ResolverRace.Proofs.Service.Deeds
import ResolverRace.Proofs.Service.Calls
import ResolverRace.Proofs.Service.Sticks
import ResolverRace.Proofs.Session.Filed
import ResolverRace.Proofs.Service.FailedSwitch
import ResolverRace.Proofs.Service.OtherHandle
import ResolverRace.Proofs.Service.SelectedAgain
import ResolverRace.Proofs.Service.Replayed
import ResolverRace.Proofs.Service.Demotions
import ResolverRace.Proofs.Service.RejectedStart
import ResolverRace.Proofs.Store.TwoHandles
import ResolverRace.Proofs.Race.Discipline
import ResolverRace.Proofs.Pool.Changes
import ResolverRace.Proofs.Service.Startup
import ResolverRace.Proofs.Service.Isolation
import ResolverRace.Proofs.Address.Grammar
import ResolverRace.Proofs.Store.Refinement
import ResolverRace.Proofs.CommandLine.Processes
import ResolverRace.Proofs.Source.Builtin
import ResolverRace.Proofs.Source.Editing
import ResolverRace.Proofs.Race.Sequential
import ResolverRace.Proofs.Race.Rounds
import ResolverRace.Proofs.Race.Runner
import ResolverRace.Proofs.Service.Spared
import ResolverRace.Proofs.Store.Behind
import ResolverRace.Proofs.Probe.Verdict
import ResolverRace.Proofs.Pool.Algebra
import ResolverRace.Proofs.Source.Entries
