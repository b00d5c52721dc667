import Lox.Bindings

/-!
Frames: the scopes of a running program. A frame holds the names of one scope and knows the frame
around it. Frames are numbered in the order of their making, and a frame is made inside one that is
there already, so going outward always ends.
-/

namespace Lox

structure Frame (α : Type) where
  bindings : Bindings α := []
  parent : Option Nat := none

/-- All frames made so far; the number of a frame is its place. -/
structure Frames (α : Type) where
  all : Array (Frame α) := #[]

namespace Frames

variable {α : Type}

/-- The frame around all others, which is made first. -/
def root : Nat := 0

def size (fs : Frames α) : Nat := fs.all.size

/-- Makes a frame; its number is the size before. -/
def push (fs : Frames α) (parent : Option Nat) (bindings : Bindings α) : Frames α :=
  ⟨fs.all.push { bindings, parent }⟩

def parent? (fs : Frames α) (e : Nat) : Option Nat := fs.all[e]?.bind (·.parent)

def bindings (fs : Frames α) (e : Nat) : Bindings α := (fs.all[e]?.map (·.bindings)).getD []

/-- What a name stands for in one frame, without those around it. -/
def own? (fs : Frames α) (e : Nat) (name : String) : Option α := Bindings.get? name (fs.bindings e)

/-- Sets a name in one frame. -/
def define (fs : Frames α) (e : Nat) (name : String) (a : α) : Frames α :=
  ⟨fs.all.modify e fun f => { f with bindings := Bindings.insert name a f.bindings }⟩

def keys (fs : Frames α) (e : Nat) : List String := Bindings.keys (fs.bindings e)

/-! ### By name: the nearest frame that binds it -/

/-- A frame and those around it, going outward. -/
def outward (fs : Frames α) (e : Nat) : List Nat :=
  match fs.parent? e with
  | none => [e]
  | some p => if p < e then e :: fs.outward p else [e]

/-- The nearest frame that binds a name. -/
def nearest? (fs : Frames α) (e : Nat) (name : String) : Option Nat :=
  (fs.outward e).find? fun i => (fs.own? i name).isSome

def get? (fs : Frames α) (e : Nat) (name : String) : Option α :=
  (fs.nearest? e name).bind (fs.own? · name)

/-- Changes what a name stands for where it is bound. -/
def assign? (fs : Frames α) (e : Nat) (name : String) (a : α) : Option (Frames α) :=
  (fs.nearest? e name).map (fs.define · name a)

/-! ### By distance: the frame so many steps outward -/

def stepsOut? (fs : Frames α) (e : Nat) : Nat → Option Nat
  | 0 => some e
  | d + 1 =>
    match fs.parent? e with
    | none => none
    | some p => fs.stepsOut? p d

/-- The frame `d` steps outward; a negative distance stays where it is. -/
def ancestor? (fs : Frames α) (e : Nat) (d : Int) : Option Nat := fs.stepsOut? e d.toNat

/-- The frame `d` steps outward, if it binds the name. -/
def frameAt? (fs : Frames α) (e : Nat) (d : Int) (name : String) : Option Nat :=
  (fs.ancestor? e d).filter fun i => (fs.own? i name).isSome

def getAt? (fs : Frames α) (e : Nat) (d : Int) (name : String) : Option α :=
  (fs.ancestor? e d).bind (fs.own? · name)

def assignAt? (fs : Frames α) (e : Nat) (d : Int) (name : String) (a : α) : Option (Frames α) :=
  (fs.frameAt? e d name).map (fs.define · name a)

end Frames

end Lox
