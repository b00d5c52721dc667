import Lox.Bindings
import Lox.Text.Quoted

/-!
Flags of commands. Flags come first; the first argument that is none ends them, and so do two
dashes alone.
-/

namespace Lox.Cli

structure Flag where
  name : String
  /-- Whether a value goes with it; without one it is just on or off. -/
  takesValue : Bool
  help : String

/-- A command with its flags, in the order of their names. -/
structure Command where
  name : String
  flags : List Flag

inductive FlagError where
  | help
  | badSyntax (arg : String)
  | undefined (name : String)
  | noValue (name : String)
  | badSwitch (value name : String)
deriving DecidableEq

/-- What is said about a flag in front of the usage; nothing where only help is asked for. -/
def FlagError.message : FlagError → String
  | help => ""
  | badSyntax arg => "bad flag syntax: " ++ arg ++ "\n"
  | undefined name => "flag provided but not defined: -" ++ name ++ "\n"
  | noValue name => "flag needs an argument: -" ++ name ++ "\n"
  | badSwitch value name =>
    "invalid boolean value " ++ Text.quoted value ++ " for -" ++ name ++ ": parse error\n"

def Flag.usage (f : Flag) : String :=
  "  -" ++ f.name ++ (if f.takesValue then " string" else "") ++ "\n    \t" ++ f.help ++ "\n"

def Command.usage (c : Command) : String :=
  "Usage of " ++ c.name ++ ":\n" ++ String.join (c.flags.map Flag.usage)

/-- What an argument says. -/
inductive Arg where
  | plain
  /-- Two dashes alone. -/
  | stop
  | bad
  | flag (name : String) (value : Option String)

/-- Splits a flag at its first equals sign; its name has at least one character. -/
def splitFlag (cs : List Char) : Arg :=
  match cs with
  | [] => .bad
  | c :: rest =>
    if c = '-' ∨ c = '=' then .bad
    else
      let name := String.ofList (c :: rest.takeWhile (· ≠ '='))
      match rest.dropWhile (· ≠ '=') with
      | [] => .flag name none
      | _ :: value => .flag name (some (String.ofList value))

def classify (arg : String) : Arg :=
  match arg.toList with
  | ['-', '-'] => .stop
  | '-' :: '-' :: rest => splitFlag rest
  | '-' :: c :: rest => splitFlag (c :: rest)
  | _ => .plain

/-- The words for on and off. -/
def switch? (value : String) : Option Bool :=
  if ["1", "t", "T", "TRUE", "true", "True"].contains value then some true
  else if ["0", "f", "F", "FALSE", "false", "False"].contains value then some false
  else none

/-- The flags that were given, and the arguments after them. A switch has the value of its word. -/
structure Given where
  values : Bindings String := []
  rest : List String := []

def Given.value (g : Given) (name : String) : String := (Bindings.get? name g.values).getD ""

def Given.isOn (g : Given) (name : String) : Bool := g.value name = "true"

/-- Reads flags off the front of the arguments. -/
def readFlags (c : Command) (values : Bindings String) : List String → Except FlagError Given
  | [] => .ok { values }
  | arg :: rest =>
    match classify arg with
    | .plain => .ok { values, rest := arg :: rest }
    | .stop => .ok { values, rest }
    | .bad => .error (.badSyntax arg)
    | .flag name given =>
      match c.flags.find? (·.name = name) with
      | none => .error (if name = "help" ∨ name = "h" then .help else .undefined name)
      | some flag =>
        if flag.takesValue then
          match given with
          | some value => readFlags c (Bindings.insert name value values) rest
          | none =>
            match rest with
            | value :: rest => readFlags c (Bindings.insert name value values) rest
            | [] => .error (.noValue name)
        else
          match given with
          | none => readFlags c (Bindings.insert name "true" values) rest
          | some value =>
            match switch? value with
            | some on =>
              readFlags c (Bindings.insert name (if on then "true" else "false") values) rest
            | none => .error (.badSwitch value name)

end Lox.Cli
