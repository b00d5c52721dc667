import Lox.Cli.Flags
import Lox.Cli.Repl
import Lox.Project
import Lox.Syntax.Dump
import Lox.Syntax.Sexpr

/-!
The commands.
-/

namespace Lox.Cli

def version : String := "lox-cli 0.1.0-dev"

def usage : String :=
  String.join
    (["Usage:", "  lox [script.lox]", "  lox run [--config path] [script.lox]", "  lox -e <source>",
      "  lox repl [--config path]", "  lox test [--config path] [fixture-dir]",
      "  lox check <script.lox>", "  lox ast [--json] <script.lox>", "  lox --version"].map (· ++ "\n"))

/-- What a command comes to: it is done, or a dialog begins. -/
inductive Plan where
  | done (outcome : Outcome)
  | dialog (d : Dialog)

def configFlag : Flag :=
  { name := "config", takesValue := true, help := "path to lox.yml or lox.toml" }

def jsonFlag : Flag :=
  { name := "json", takesValue := false, help := "print the syntax tree as JSON" }

def command (name : String) (more : List Flag) : Command :=
  { name := "lox " ++ name, flags := configFlag :: more }

/-- The outcome of a command whose flags are wrong. -/
def flagOutcome (c : Command) (e : FlagError) : Outcome :=
  { exit := exitUsage, stderr := e.message ++ c.usage }

def configOutcome (e : Project.Error) : Outcome :=
  .complaint exitFailure ("failed to load config: " ++ e.message)

/-! ### Reports on fixtures -/

/-- Further lines of a mismatch are indented like the first. -/
def indented (s : String) : String :=
  String.join (s.toList.map fun c => if c = '\n' then "\n  " else c.toString)

def resultText (r : Fixture.Result) : String :=
  if r.passed then "ok   " ++ r.fixture.name ++ "\n"
  else
    "FAIL " ++ r.fixture.name ++ " (" ++ r.fixture.path ++ ")\n"
      ++ (match r.error with
        | some e => "  error: " ++ e.message ++ "\n"
        | none => "")
      ++ String.join (r.mismatches.map fun s => "  " ++ indented s ++ "\n")

def resultsOutcome (results : List Fixture.Result) : Outcome :=
  let failed := results.countP (!·.passed)
  { exit := if failed = 0 then exitOk else exitFailure
    stdout := String.join (results.map resultText) ++ toString (results.length - failed)
      ++ " passed, " ++ toString failed ++ " failed\n" }

section

variable {m : Type → Type} [Monad m] (disk : Disk m) (replies : Natives)

/-- The settings that a command works with: those it names, or the nearest. -/
def settings (path dir : String) : m (Except Project.Error Config) :=
  if path = "" then Project.loadNearestConfig disk dir else Project.loadConfig disk path

/-- Goes on with a session, if there can be one. -/
def withSession (c : Config) (go : Session → m Plan) : m Plan :=
  match c.session replies {} with
  | .ok s => go s
  | .error failure => return .done (.complaint exitFailure failure.message)

def runPath (c : Config) (path : String) : m Plan :=
  withSession replies c fun s => do
    let (s, failure) ← Project.runFile disk s path
    return .done (.ofRun s failure)

def dialog (c : Config) : m Plan :=
  withSession replies c fun s => return .dialog (.start s c.prompt)

/-- Without a command: the project's entry, or a dialog where it has none. -/
def runDefault : m Plan := do
  match ← settings disk "" "." with
  | .error e => return .done (configOutcome e)
  | .ok c => if c.entry = "" then dialog replies c else runPath disk replies c c.entryPath

/-- Goes on with what follows the flags. -/
def withFlags (c : Command) (args : List String) (go : Given → m Plan) : m Plan :=
  match readFlags c [] args with
  | .error e => return .done (flagOutcome c e)
  | .ok given => go given

def usageError (line : String) : m Plan := return .done (.complaint exitUsage line)

def runScript (args : List String) : m Plan :=
  withFlags (command "run" []) args fun given => do
    match given.rest with
    | _ :: _ :: _ => usageError "lox run accepts at most one script"
    | rest =>
      let script := rest.headD ""
      let dir := if rest.isEmpty then "." else Path.dir script
      match ← settings disk (given.value "config") dir with
      | .error e => return .done (configOutcome e)
      | .ok c =>
        let path := if script = "" then c.entryPath else script
        if path = "" then usageError "lox run requires a script (no entry configured)"
        else runPath disk replies c path

def runEval (args : List String) : m Plan :=
  match args with
  | [source] => do
    match ← settings disk "" "." with
    | .error e => return .done (configOutcome e)
    | .ok c =>
      withSession replies c fun s =>
        let (s, failure) := s.run source
        return .done (.ofRun s failure)
  | _ => usageError "lox -e requires exactly one source argument"

def runRepl (args : List String) : m Plan :=
  withFlags (command "repl" []) args fun given => do
    if given.rest.isEmpty then
      match ← settings disk (given.value "config") "." with
      | .error e => return .done (configOutcome e)
      | .ok c => dialog replies c
    else usageError "lox repl takes no arguments"

def runTest (args : List String) : m Plan :=
  withFlags (command "test" []) args fun given => do
    match given.rest with
    | _ :: _ :: _ => usageError "lox test accepts at most one directory"
    | rest =>
      match ← settings disk (given.value "config") "." with
      | .error e => return .done (configOutcome e)
      | .ok c =>
        let dir := rest.headD ""
        let dir := if dir = "" then c.fixturesPath else dir
        match ← Project.loadFixtures disk dir with
        | .error e => return .done (.complaint exitFailure e.message)
        | .ok fixtures =>
          return .done (resultsOutcome
            (Fixture.runAll (.ofParallelism c.parallelism) fixtures c replies))

/-- Goes on with the one script that a command takes. -/
def withScript (name : String) (given : Given) (go : String → String → Outcome) : m Plan := do
  match given.rest with
  | [path] =>
    match ← disk.read path with
    | .error e =>
      return .done (.complaint exitFailure ("read " ++ path ++ ": " ++ e.reading path))
    | .ok bytes => return .done (go path (Text.ofBytes bytes))
  | _ => usageError ("lox " ++ name ++ " requires exactly one script")

def checkOutcome (path source : String) : Outcome :=
  match validate source with
  | .error ds => let (exit, stderr) := report (some (.reported ds)); { exit, stderr }
  | .ok _ => { stdout := path ++ ": ok\n" }

def runCheck (args : List String) : m Plan :=
  withFlags (command "check" []) args fun given => withScript disk "check" given checkOutcome

def treeOutcome (json : Bool) (source : String) : Outcome :=
  match check source with
  | .error ds => let (exit, stderr) := report (some (.reported ds)); { exit, stderr }
  | .ok p => { stdout := (if json then p.dump.indented 0 else p.sexpr) ++ "\n" }

def runTree (args : List String) : m Plan :=
  withFlags (command "ast" [jsonFlag]) args fun given =>
    withScript disk "ast" given fun _ source => treeOutcome (given.isOn "json") source

/-- Whether a first argument names a script: by its suffix, or because it is a file. -/
def isScript (arg : String) : m Bool := do
  if Config.isScript arg then return true
  match ← disk.isDir arg with
  | .ok isDir => return !isDir
  | .error _ => return false

def unknownCommand (name : String) : Outcome :=
  { exit := exitUsage, stderr := "lox: unknown command " ++ Text.quoted name ++ "\n" ++ usage }

/-- What a list of arguments comes to. -/
def plan (args : List String) : m Plan :=
  match args with
  | [] => runDefault disk replies
  | first :: rest =>
    if first = "--help" ∨ first = "-h" ∨ first = "help" then
      return .done { stdout := usage }
    else if first = "--version" ∨ first = "-V" ∨ first = "version" then
      return .done { stdout := version ++ "\n" }
    else if first = "-e" ∨ first = "--eval" then runEval disk replies rest
    else if first = "run" then runScript disk replies rest
    else if first = "repl" then runRepl disk replies rest
    else if first = "test" then runTest disk replies rest
    else if first = "ast" then runTree disk rest
    else if first = "check" then runCheck disk rest
    else do
      if ← isScript disk first then
        runScript disk replies args
      else
        return .done (unknownCommand first)

/-- Carries out a command on a whole input. -/
def run (args : List String) (input : ByteArray) : m Outcome := do
  match ← plan disk replies args with
  | .done outcome => return outcome
  | .dialog d => return d.run (inputLines input.toList)

end

end Lox.Cli
