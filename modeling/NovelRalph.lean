import NovelRalph.State.Document
import NovelRalph.State.AtomicWrite
import NovelRalph.State.Validate
import NovelRalph.State.DiskPaths
import NovelRalph.State.WordCount
import NovelRalph.State.CompileModel
import NovelRalph.State.DiskEvidence
import NovelRalph.State.Reconcile
import NovelRalph.Commands.Mutators
import NovelRalph.Commands.Gates
import NovelRalph.Commands.Recount
import NovelRalph.Commands.SetChapters
import NovelRalph.Commands.Reconcile
import NovelRalph.Commands.Check
import NovelRalph.Commands.GateReadings
import NovelRalph.Commands.Init
import NovelRalph.Commands.Bracket
import NovelRalph.System.World
import NovelRalph.System.Runs
import NovelRalph.System.Lifecycle
import NovelRalph.System.GateDeadlock
import NovelRalph.System.Refusal
import NovelRalph.System.Frame
import NovelRalph.System.CleanCheck
import NovelRalph.System.Story
import NovelRalph.State.Agreement
import NovelRalph.State.Bijection
import NovelRalph.State.BlockerNotes
import NovelRalph.State.Relaxation
import NovelRalph.State.Precedence
import NovelRalph.System.Standing
import NovelRalph.System.Rounds
import NovelRalph.System.Reruns
import NovelRalph.System.Settling
import NovelRalph.System.CrashRecovery
import NovelRalph.System.ChapterDirs
import NovelRalph.System.TornChapters
import NovelRalph.System.ChapterNames
import NovelRalph.System.DoneContract
import NovelRalph.System.FreshCompile
import NovelRalph.System.ByteFreshness
import NovelRalph.System.OneCount
import NovelRalph.Loader.Grammar
import NovelRalph.Loader.LedgerVerdict
import NovelRalph.System.Footprint
import NovelRalph.System.Resolution
import NovelRalph.System.Disclosure
import NovelRalph.System.TwoRecounts
import NovelRalph.System.Escapes
import NovelRalph.Untyped.Containment
import NovelRalph.Base.Json
import NovelRalph.Contract.Envelope
import NovelRalph.Contract.Runner
import NovelRalph.Surface.Operations
import NovelRalph.Surface.Serialises
import NovelRalph.Surface.Novel
import NovelRalph.Surface.Verdicts
import NovelRalph.Base.KeyPath
import NovelRalph.System.Journal
import NovelRalph.System.Records
import NovelRalph.System.OwnTurns
import NovelRalph.Surface.Sessions
import NovelRalph.System.Machine
import NovelRalph.System.Completion
import NovelRalph.Base.Restart
import NovelRalph.System.TornInit
import NovelRalph.Base.Rounding
import NovelRalph.Commands.DoubleReadings
import NovelRalph.System.ExactMachine
import NovelRalph.Commands.PackVerdict
import NovelRalph.Untyped.Document
import NovelRalph.Untyped.Mutators
import NovelRalph.Untyped.Refusal
