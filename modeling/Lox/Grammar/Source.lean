import Lox.Grammar.Program
import Lox.Source.Scan
import Lox.Syntax.Format

/-!
From text to tree, and back again.
-/

namespace Lox.Grammar

/-- What is wrong with a text: parsing is only tried on a text that scans. -/
inductive SourceError where
  | scan (errors : List Source.ScanError)
  | parse (errors : List SyntaxError)

def SourceError.description : SourceError → String
  | .scan errors => String.intercalate "\n" (errors.map (·.description))
  | .parse errors => String.intercalate "\n" (errors.map (·.description))

def parseSource (text : String) : Except SourceError Program :=
  let scanned := Source.scan text
  if scanned.errors.isEmpty then
    let parsed := parse scanned.tokens
    if parsed.errors.isEmpty then .ok parsed.program else .error (.parse parsed.errors)
  else .error (.scan scanned.errors)

/-- The program's own text parses to a program that looks the same. -/
def isStable (p : Program) : Bool :=
  match parseSource p.format with
  | .ok q => q.sexpr = p.sexpr && q.format = p.format
  | .error _ => false

end Lox.Grammar
