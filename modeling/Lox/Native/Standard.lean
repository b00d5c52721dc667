import Lox.Native.Reply

/-!
The natives that every project may turn on.
-/

namespace Lox.Native

/-- The seconds on the host's clock. -/
def clock : Native := { name := "clock", arity := 0 }

def standard : List Native := [clock]

/-- The names of the standard natives, in order. -/
def standardNames : List String := standard.map (·.name)

def standard? (name : String) : Option Native := standard.find? (·.name = name)

/-- A native that nobody answers for. -/
def unanswered (name : String) : Reply := .fail ("native '" ++ name ++ "' is not available")

/-- The standard natives on a clock, which may show something else at each call. -/
def clockReplies (shows : Nat → Float) : Natives := fun before name _ =>
  if name = clock.name then .answer (.number (shows before)) else unanswered name

/-- The standard natives when the clock shows `now`. -/
def standardReplies (now : Float) : Natives := clockReplies fun _ => now

end Lox.Native
