import Lox.Run.Member

/-!
What the operations on frames do to the names bound in each frame and to the frames around it, and
what the frames of calls, classes and instances bind.
-/

namespace Lox

/-! ### Bindings of new frames -/

/-- There is one value in a list of one. -/
theorem Bindings.eq_of_get?_single {α : Type} {name other : String} {a b : α}
    (h : get? other [(name, a)] = some b) : b = a := by
  rw [get?_cons] at h
  split at h
  · cases h
    rfl
  · cases h

/-- A name in the frame of a call stands for an argument, or for what it stood for before. -/
theorem Run.mem_of_get?_bindArgs {params : List Token} {args : List Value}
    {bindings : Bindings Value} {x : String} {v : Value}
    (h : Bindings.get? x (bindArgs params args bindings) = some v) :
    v ∈ args ∨ Bindings.get? x bindings = some v := by
  -- parameter by parameter: each takes the next argument, and a later one may shadow it
  induction params generalizing args bindings with
  | nil =>
    rw [bindArgs] at h
    · exact .inr h
    · simp
  | cons p params ih =>
    cases args with
    | nil =>
      rw [bindArgs] at h
      · exact .inr h
      · simp
    | cons w args =>
      rcases ih h with mem | old
      · exact .inl (List.mem_cons_of_mem _ mem)
      · rw [Bindings.get?_insert] at old
        split at old
        · cases old
          exact .inl List.mem_cons_self
        · exact .inr old

/-! ### Operations on frames -/

namespace Frames

variable {α : Type} (fs : Frames α)

@[simp] theorem size_push (parent : Option Nat) (bindings : Bindings α) :
    (fs.push parent bindings).size = fs.size + 1 := by
  simp [push, size]

@[simp] theorem size_define (e : Nat) (name : String) (a : α) :
    (fs.define e name a).size = fs.size := by
  simp [define, size]

/-- The names of a new frame are those that it is made with. -/
theorem own?_push (parent : Option Nat) (bindings : Bindings α) (e : Nat) (name : String) :
    (fs.push parent bindings).own? e name =
      if e = fs.size then Bindings.get? name bindings else fs.own? e name := by
  unfold own? Frames.bindings push size
  rw [Array.getElem?_push]
  split <;> simp

/-- A new frame has the parent that it is made with. -/
theorem parent?_push (parent : Option Nat) (bindings : Bindings α) (e : Nat) :
    (fs.push parent bindings).parent? e = if e = fs.size then parent else fs.parent? e := by
  unfold parent? push size
  rw [Array.getElem?_push]
  split <;> simp

/-- To bind a name moves no frame. -/
@[simp] theorem parent?_define (e : Nat) (name : String) (a : α) (e' : Nat) :
    (fs.define e name a).parent? e' = fs.parent? e' := by
  unfold parent? define
  rw [Array.getElem?_modify]
  split
  · cases fs.all[e']? <;> rfl
  · rfl

/-- To bind a name changes that name in that frame and nothing else. -/
theorem own?_define (e : Nat) (name : String) (a : α) (e' : Nat) (name' : String) :
    (fs.define e name a).own? e' name' =
      if e' = e ∧ e < fs.size ∧ name' = name then some a else fs.own? e' name' := by
  unfold own? Frames.bindings define size
  rw [Array.getElem?_modify]
  by_cases h : e = e'
  · subst h
    by_cases bound : e < fs.all.size
    · simp [bound, Bindings.get?_insert]
    · simp [bound]
  · simp [h, Ne.symm h]

/-- A frame that is not there binds nothing. -/
theorem own?_eq_none {e : Nat} (h : fs.size ≤ e) (name : String) : fs.own? e name = none := by
  unfold own? Frames.bindings
  rw [Array.getElem?_eq_none h]
  rfl

/-- Only a frame that is there has a parent. -/
theorem lt_size_of_parent? {e parent : Nat} (h : fs.parent? e = some parent) : e < fs.size := by
  refine Nat.lt_of_not_le fun outside => ?_
  unfold parent? at h
  rw [Array.getElem?_eq_none outside] at h
  cases h

/-- One step further out. -/
theorem stepsOut?_succ {e out parent : Nat} {d : Nat} (h : fs.stepsOut? e d = some out)
    (hparent : fs.parent? out = some parent) : fs.stepsOut? e (d + 1) = some parent := by
  induction d generalizing e with
  | zero =>
    cases h
    rw [stepsOut?, hparent]
    rfl
  | succ d ih =>
    rw [stepsOut?] at h
    rw [stepsOut?]
    split at h
    · cases h
    · next step => exact ih h

/-! ### What is found is bound -/

/-- What is found so many frames outward is bound somewhere. -/
theorem own?_of_getAt? {e : Nat} {hops : Int} {name : String} {a : α}
    (h : fs.getAt? e hops name = some a) : ∃ e, fs.own? e name = some a := by
  obtain ⟨out, -, found⟩ := Option.bind_eq_some_iff.mp h
  exact ⟨out, found⟩

/-- What is found going outward is bound somewhere. -/
theorem own?_of_get? {e : Nat} {name : String} {a : α} (h : fs.get? e name = some a) :
    ∃ e, fs.own? e name = some a := by
  obtain ⟨out, -, found⟩ := Option.bind_eq_some_iff.mp h
  exact ⟨out, found⟩

end Frames

end Lox
