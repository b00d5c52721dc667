import Lox.Proofs.Lines.Tree
import Lox.Proofs.Native.Given
import Lox.Run.World

/-!
Worlds on other lines. Functions and classes carry the trees they were made from; with those moved,
a world looks the same: what is bound, what prints and what a host sees does not change.
-/

namespace Lox

/-! ### Values under names -/

namespace Bindings

variable {α β : Type} (f : α → β)

/-- The same names with other values. -/
def onValues (bindings : Bindings α) : Bindings β := bindings.map fun b => (b.1, f b.2)

/-- A binding is found under its name, changed. -/
theorem get?_onValues (name : String) (bindings : Bindings α) :
    get? name (onValues f bindings) = (get? name bindings).map f := by
  induction bindings with
  | nil => rfl
  | cons b rest ih =>
    change get? name ((b.1, f b.2) :: onValues f rest) = (get? name ((b.1, b.2) :: rest)).map f
    rw [get?_cons, get?_cons]
    split
    · rfl
    · exact ih

/-- Binding a changed value is changing what the binding makes. -/
theorem insert_onValues (name : String) (a : α) (bindings : Bindings α) :
    insert name (f a) (onValues f bindings) = onValues f (insert name a bindings) := by
  induction bindings with
  | nil => rfl
  | cons b rest ih =>
    change insert name (f a) ((b.1, f b.2) :: onValues f rest) = _
    rw [insert, insert]
    split
    · rfl
    · rw [ih]
      rfl

end Bindings

/-- A change at one place of an array commutes with one at all places. -/
theorem map_modify {α β : Type} {f : α → β} {g : α → α} {g' : β → β} (h : ∀ a, f (g a) = g' (f a))
    (xs : Array α) (i : Nat) : (xs.modify i g).map f = (xs.map f).modify i g' := by
  apply Array.ext_getElem?
  intro j
  rw [Array.getElem?_map, Array.getElem?_modify, Array.getElem?_modify, Array.getElem?_map]
  split
  · rw [Option.map_map, Option.map_map]
    congr 1
    exact funext h
  · rfl

namespace Frames

variable {α β : Type} (f : α → β) (fs : Frames α)

/-- The same frames with other values. -/
def onValues : Frames β :=
  ⟨fs.all.map fun frame => { bindings := frame.bindings.onValues f, parent := frame.parent }⟩

@[simp] theorem size_onValues : (fs.onValues f).size = fs.size := by
  simp [onValues, size]

@[simp] theorem parent?_onValues (e : Nat) : (fs.onValues f).parent? e = fs.parent? e := by
  unfold parent? onValues
  rw [Array.getElem?_map]
  cases fs.all[e]? <;> rfl

@[simp] theorem bindings_onValues (e : Nat) :
    (fs.onValues f).bindings e = (fs.bindings e).onValues f := by
  unfold Frames.bindings onValues
  rw [Array.getElem?_map]
  cases fs.all[e]? <;> rfl

@[simp] theorem own?_onValues (e : Nat) (name : String) :
    (fs.onValues f).own? e name = (fs.own? e name).map f := by
  rw [own?, bindings_onValues, Bindings.get?_onValues]
  rfl

/-- The way outward does not depend on what the frames hold. -/
theorem outward_onValues (e : Nat) : (fs.onValues f).outward e = fs.outward e := by
  induction e using Nat.strongRecOn with
  | _ e ih =>
    rw [outward, outward, parent?_onValues]
    split
    · rfl
    · split
      · next inside => rw [ih _ inside]
      · rfl

/-- The nearest frame with a name does not depend on what the frames hold. -/
theorem nearest?_onValues (e : Nat) (name : String) :
    (fs.onValues f).nearest? e name = fs.nearest? e name := by
  unfold nearest?
  rw [outward_onValues]
  simp only [own?_onValues, Option.isSome_map]

/-- A name is looked up in the same frame, and its value is changed. -/
@[simp] theorem get?_onValues (e : Nat) (name : String) :
    (fs.onValues f).get? e name = (fs.get? e name).map f := by
  unfold get?
  rw [nearest?_onValues]
  cases fs.nearest? e name with
  | none => rfl
  | some e => exact own?_onValues f fs e name

theorem stepsOut?_onValues (e d : Nat) : (fs.onValues f).stepsOut? e d = fs.stepsOut? e d := by
  induction d generalizing e with
  | zero => rfl
  | succ d ih =>
    rw [stepsOut?, stepsOut?, parent?_onValues]
    split
    · rfl
    · exact ih _

/-- A distance leads to the same frame, or to the same mistake. -/
theorem frameAt?_onValues (e : Nat) (d : Int) (name : String) :
    (fs.onValues f).frameAt? e d name = fs.frameAt? e d name := by
  unfold frameAt? ancestor?
  rw [stepsOut?_onValues]
  simp only [own?_onValues, Option.isSome_map]

/-- At a distance the same name is found, changed. -/
@[simp] theorem getAt?_onValues (e : Nat) (d : Int) (name : String) :
    (fs.onValues f).getAt? e d name = (fs.getAt? e d name).map f := by
  unfold getAt? ancestor?
  rw [stepsOut?_onValues]
  cases fs.stepsOut? e d.toNat with
  | none => rfl
  | some e => exact own?_onValues f fs e name

/-- A new frame with changed values is the new frame, changed. -/
theorem push_onValues (parent : Option Nat) (bindings : Bindings α) :
    (fs.onValues f).push parent (bindings.onValues f) = (fs.push parent bindings).onValues f := by
  simp [push, onValues]

/-- Defining a changed value is changing what the definition makes. -/
theorem define_onValues (e : Nat) (name : String) (a : α) :
    (fs.onValues f).define e name (f a) = (fs.define e name a).onValues f := by
  unfold define onValues
  dsimp only
  rw [map_modify]
  intro frame
  rw [Bindings.insert_onValues]

end Frames

/-! ### Values -/

def Closure.move (φ : Nat → Nat) (f : Closure) : Closure :=
  { f with params := f.params.map (Token.move φ), body := Stmt.moveAll φ f.body }

def Class.move (φ : Nat → Nat) : Class → Class
  | ⟨id, name, none, methods⟩ => ⟨id, name, none, methods.onValues (Closure.move φ)⟩
  | ⟨id, name, some c, methods⟩ => ⟨id, name, some (c.move φ), methods.onValues (Closure.move φ)⟩

/-- The value with its trees on other lines. -/
def Value.move (φ : Nat → Nat) : Value → Value
  | .function f => .function (f.move φ)
  | .classObj c => .classObj (c.move φ)
  | .object id c => .object id (c.move φ)
  | v => v

def Callable.move (φ : Nat → Nat) : Callable → Callable
  | .function f => .function (f.move φ)
  | .native f => .native f
  | .classObj c => .classObj (c.move φ)

def World.move (φ : Nat → Nat) (w : World) : World :=
  { w with
    frames := w.frames.onValues (Value.move φ)
    objects := w.objects.map (Bindings.onValues (Value.move φ)) }

/-- What was printed has no lines to move. -/
@[simp] theorem World.printed_move (φ : Nat → Nat) (w : World) :
    (w.move φ).printed = w.printed := rfl

@[simp] theorem World.depth_move (φ : Nat → Nat) (w : World) : (w.move φ).depth = w.depth := rfl

def Stop.move (φ : Nat → Nat) : Stop → Stop
  | .raised token fault => .raised (token.move φ) fault
  | stop => stop

def Problem.move (φ : Nat → Nat) (p : Problem) : Problem := { p with token := p.token.map (·.move φ) }

/-- A native is shown no more of a problem than whether it has a place. -/
theorem Problem.mishap_move (φ : Nat → Nat) (p : Problem) : (p.move φ).mishap = p.mishap := by
  obtain ⟨token, fault⟩ := p
  cases token <;> rfl

/-- The stop a problem comes to says the moved line. -/
theorem Problem.stop_move (φ : Nat → Nat) (p : Problem) : (p.move φ).stop = p.stop.move φ := by
  obtain ⟨token, fault⟩ := p
  cases token <;> rfl

section Looks

variable (φ : Nat → Nat)

@[simp] theorem Class.id_move (c : Class) : (c.move φ).id = c.id := by
  obtain ⟨_, _, _ | _, _⟩ := c <;> rfl

@[simp] theorem Class.name_move (c : Class) : (c.move φ).name = c.name := by
  obtain ⟨_, _, _ | _, _⟩ := c <;> rfl

/-- Methods are found in the same class. -/
theorem Class.method?_move (name : String) : (c : Class) →
    (c.move φ).method? name = (c.method? name).map (Closure.move φ)
  | ⟨_, _, none, methods⟩ => Bindings.get?_onValues _ name methods
  | ⟨_, _, some c, methods⟩ => by
    rw [Class.move, Class.method?, Class.method?, Bindings.get?_onValues, c.method?_move name]
    cases Bindings.get? name methods <;> rfl

@[simp] theorem Callable.arity_move (f : Callable) : (f.move φ).arity = f.arity := by
  cases f with
  | function f => simp [Callable.move, Callable.arity, Closure.move]
  | native f => rfl
  | classObj c =>
    simp only [Callable.move, Callable.arity, Class.method?_move, Option.map_map]
    cases c.method? initName <;> simp [Closure.move]

/-- No token stands in a number, a string, a truth value, `nil` or a native. -/
@[simp] theorem Value.isPlain_move (v : Value) : (v.move φ).isPlain = v.isPlain := by
  cases v <;> rfl

/-- A plain value has no tokens to move. -/
theorem Value.move_of_isPlain {v : Value} (h : v.isPlain = true) : v.move φ = v := by
  cases v <;> first | rfl | cases h

@[simp] theorem Value.kind_move (v : Value) : (v.move φ).kind = v.kind := by
  cases v <;> rfl

/-- Values print alike: no line is printed. -/
@[simp] theorem Value.text_move (v : Value) : (v.move φ).text = v.text := by
  cases v <;> simp [Value.move, Value.text, Closure.move]

/-- What counts as true does not depend on lines. -/
@[simp] theorem Value.isTruthy_move (v : Value) : (v.move φ).isTruthy = v.isTruthy := by
  cases v <;> rfl

/-- Equality compares classes, instances and functions by their numbers, so it does not read lines.
-/
@[simp] theorem Value.equals_move (v v' : Value) :
    (v.move φ).equals (v'.move φ) = v.equals v' := by
  cases v <;> cases v' <;> simp [Value.move, Value.equals, Closure.move]

/-- What can be called can be called with its tokens moved. -/
theorem Value.callable?_move (v : Value) :
    (v.move φ).callable? = v.callable?.map (Callable.move φ) := by
  cases v <;> rfl

theorem Callable.value_move (f : Callable) : (f.move φ).value = f.value.move φ := by
  cases f <;> rfl

/-- A host takes a value and the one on other lines for the same. -/
theorem likeness_move : Likeness fun v v' => v' = v.move φ where
  plain v plain := (v.move_of_isPlain φ plain).symm
  alike v v' h := by
    rw [h]
    cases v with
    | function f => simp [Value.move, Value.appearance, Callable.arity, Closure.move]
    | classObj c =>
      have arity := Callable.arity_move φ (.classObj c)
      simp only [Callable.move] at arity
      simp [Value.move, Value.appearance, arity]
    | object id c => simp [Value.move, Value.appearance]
    | _ => rfl

/-- A callable is described by its name, so its lines do not show. -/
theorem Callable.description_move (f : Callable) : (f.move φ).description = f.description := by
  apply Callable.description_eq
  exact (likeness_move φ).alike _ _ (f.value_move φ)

end Looks

/-! ### One move after another -/

theorem Bindings.onValues_id {α : Type} {f : α → α} (h : f = id) (bindings : Bindings α) :
    bindings.onValues f = bindings := by
  rw [h]
  exact List.map_id bindings

/-- Changing values twice is changing them once. -/
theorem Bindings.onValues_onValues {α β γ : Type} (f : α → β) (g : β → γ)
    (bindings : Bindings α) :
    (bindings.onValues f).onValues g = bindings.onValues (g ∘ f) := by
  unfold Bindings.onValues
  rw [List.map_map]
  rfl

theorem closure_move_id : Closure.move id = id := by
  funext f
  simp only [Closure.move, Token.moves_id, Stmt.moveAll_id, id]

/-- Closures move in two steps as in one. -/
theorem Closure.move_comp (φ ψ : Nat → Nat) :
    Closure.move ψ ∘ Closure.move φ = Closure.move (ψ ∘ φ) := by
  funext f
  simp only [Closure.move, Token.moves_moves, Stmt.moveAll_moveAll, Function.comp]

theorem class_move_id : (c : Class) → c.move id = c
  | ⟨_, _, none, _⟩ => by rw [Class.move, Bindings.onValues_id closure_move_id]
  | ⟨_, _, some c, _⟩ => by rw [Class.move, class_move_id c, Bindings.onValues_id closure_move_id]

/-- A class moves in two steps as in one, with the classes above it. -/
theorem Class.move_move (φ ψ : Nat → Nat) : (c : Class) → (c.move φ).move ψ = c.move (ψ ∘ φ)
  | ⟨_, _, none, _⟩ => by
    simp only [Class.move, Bindings.onValues_onValues, Closure.move_comp]
  | ⟨_, _, some c, _⟩ => by
    simp only [Class.move, Bindings.onValues_onValues, Closure.move_comp, c.move_move]

/-- Moving every line to itself changes no value. -/
theorem Value.move_id : Value.move id = id := by
  funext v
  cases v with
  | function f => exact congrArg Value.function (congrFun closure_move_id f)
  | classObj c | object _ c => simp [Value.move, class_move_id]
  | _ => rfl

/-- Values move in two steps as in one. -/
theorem Value.move_comp (φ ψ : Nat → Nat) : Value.move ψ ∘ Value.move φ = Value.move (ψ ∘ φ) := by
  funext v
  cases v with
  | function f => exact congrArg Value.function (congrFun (Closure.move_comp φ ψ) f)
  | classObj c | object _ c => simp [Value.move, c.move_move]
  | _ => rfl

end Lox
