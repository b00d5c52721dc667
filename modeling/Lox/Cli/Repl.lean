import Lox.Cli.Outcome
import Lox.Text.Blank
import Lox.Text.Utf8

/-!
Programs line by line, all in one session.
-/

namespace Lox.Cli

/-- The longest line that is read. -/
def maxLine : Nat := 65535

def tooLong : String := "read input: bufio.Scanner: token too long"

/-- A carriage return before the line end does not belong to the line. -/
def withoutReturn (line : List UInt8) : List UInt8 :=
  if line.getLast? = some 13 then line.dropLast else line

/-- The lines of an input; the last one may lack its line end. -/
def inputLines : List UInt8 → List (List UInt8)
  | [] => []
  | b :: rest =>
    if b = 10 then [] :: inputLines rest
    else
      match inputLines rest with
      | [] => [[b]]
      | line :: lines => (b :: line) :: lines

/-- A session at work, and what it has said. -/
structure Dialog where
  session : Session
  prompt : String
  stdout : String
  stderr : String

/-- Before the first line. -/
def Dialog.start (session : Session) (prompt : String) : Dialog :=
  { session, prompt, stdout := prompt, stderr := "" }

/-- Runs a line, and asks for the next one. A blank line is passed over. -/
def Dialog.answer (d : Dialog) (line : List UInt8) : Dialog :=
  let text := Text.ofBytes ⟨(withoutReturn line).toArray⟩
  if Text.isAllBlank text then { d with stdout := d.stdout ++ d.prompt }
  else
    let before := d.session.world.printed.size
    let (session, failure) := d.session.run text
    { d with
      session
      stdout := d.stdout ++ session.outputSince before ++ d.prompt
      stderr := d.stderr ++ (report failure).2 }

/-- At the end of the input, or before a line that is too long. -/
def Dialog.finish (d : Dialog) (ended : Bool) : Outcome :=
  { exit := if ended then exitOk else exitFailure
    stdout := d.stdout ++ "\n"
    stderr := d.stderr ++ (if ended then "" else tooLong ++ "\n") }

def Dialog.run (d : Dialog) : List (List UInt8) → Outcome
  | [] => d.finish true
  | line :: rest =>
    if maxLine < line.length then d.finish false else (d.answer line).run rest

end Lox.Cli
