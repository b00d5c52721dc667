import Lox.Disk.Tree
import Lox.Main
import Lox.Native.Host
import Lox.Proofs.Grammar.Acceptance
import Lox.Proofs.Session.Watch
import Lox.Proofs.Syntax.RoundTrip
import Lox.Syntax.Build
import Lox.Proofs.Rename.Addressed
import Lox.Proofs.Rename.Apart
import Lox.Proofs.Rename.Member
import Lox.Proofs.Lines.Grammar
import Lox.Proofs.Lines.Run
import Lox.Proofs.Lines.Scope
import Lox.Proofs.Rename.Eval
import Lox.Proofs.Run.Arity
import Lox.Proofs.Session.Checked
import Lox.Proofs.Session.Gate
import Lox.Proofs.Session.Join
import Lox.Proofs.Session.Rename
import Lox.Proofs.Session.Super
import Lox.Proofs.Run.Congruence
import Lox.Proofs.Session.Format
import Lox.Proofs.Session.Limit
import Lox.Proofs.Run.Graph
import Lox.Proofs.Run.Upkeep
import Lox.Proofs.Run.Output
import Lox.Proofs.Session.Graph
import Lox.Proofs.Session.Output
import Lox.Proofs.Pool.Step
import Lox.Proofs.Pool.Handle
import Lox.Proofs.Pool.Life
import Lox.Proofs.Pool.Rest
import Lox.Proofs.Pool.Callers
import Lox.Proofs.Pool.Serial
import Lox.Proofs.Pool.Context
import Lox.Proofs.Pool.Bounded
import Lox.Proofs.Pool.Lifecycle
import Lox.Proofs.Session.Globals
import Lox.Proofs.Lexical.Errors
import Lox.Proofs.Lexical.Address
import Lox.Proofs.Grammar.Bounds
import Lox.Proofs.Fixture.Schedule
import Lox.Proofs.Source.Partition
import Lox.Proofs.Grammar.Resume
import Lox.Proofs.Session.Depth
import Lox.Proofs.Session.Receiver
import Lox.Proofs.Frames.Nearest
import Lox.Proofs.Source.Respace
import Lox.Proofs.Source.Stray
import Lox.Proofs.Syntax.Unambiguous
import Lox.Proofs.Lexical.Stacks
import Lox.Proofs.Config.Start
import Lox.Proofs.Config.Nearest
