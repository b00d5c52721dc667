import Lox.Proofs.Scope.Place

/-!
Contexts that belong to a place: their scopes are the scopes around it, and a name that is still
without its value is one whose initializer the place is inside of.
-/

namespace Lox.Scope

/-- The place lies inside the value that a variable of the scope is declared with. -/
def InInitializer (π : Place) (name : String) (scope decl : Place) : Prop :=
  (.initializer name :: decl) <:+ π ∧ (enclosing decl).head? = some scope

theorem InInitializer.cons {π : Place} {name : String} {scope decl : Place}
    (h : InInitializer π name scope decl) (step : Step) :
    InInitializer (step :: π) name scope decl :=
  ⟨h.1.trans (List.suffix_cons ..), h.2⟩

/-- The context is one at the place. -/
structure Context.At (c : Context) (π : Place) : Prop where
  places : c.scopes.map (·.place) = enclosing π
  unfinished : ∀ scope ∈ c.scopes, ∀ name, Bindings.get? name scope.names = some false →
    ∃ decl, InInitializer π name scope.place decl

/-- No name is without its value. -/
def Finished (names : Names) : Prop := ∀ name, Bindings.get? name names ≠ some false

theorem finished_nil : Finished [] := fun _ h => by cases h

/-- One more name that is ready. -/
theorem Finished.insert {names : Names} (h : Finished names) (name : String) :
    Finished (Bindings.insert name true names) := by
  intro other unfinished
  rw [Bindings.get?_insert] at unfinished
  split at unfinished
  · cases unfinished
  · exact h other unfinished

theorem finished_paramNames (params : List Token) {names : Names} (h : Finished names) :
    Finished (Context.paramNames params names) := by
  induction params generalizing names with
  | nil => exact h
  | cons p rest ih => exact ih (h.insert p.lexeme)

namespace Context

variable {c : Context} {π : Place}

theorem At.top (run : Nat) : At {} [.program run] := ⟨rfl, by simp⟩

/-- A step that opens no scope. -/
theorem At.step (h : c.At π) (step : Step) (opens : step.opens = false) : c.At (step :: π) := by
  constructor
  · rw [h.places, enclosing, if_neg (by simp [opens])]
  · intro scope hscope name unfinished
    obtain ⟨decl, hdecl⟩ := h.unfinished scope hscope name unfinished
    exact ⟨decl, hdecl.cons step⟩

theorem At.part (h : c.At π) (i : Nat) : c.At (.part i :: π) := h.step _ rfl

/-- A step that opens a scope. -/
theorem At.enter (h : c.At π) (step : Step) (opens : step.opens = true) {names : Names}
    (finished : Finished names) : (c.enter (step :: π) names).At (step :: π) := by
  constructor
  · rw [enclosing, if_pos opens, ← h.places]
    rfl
  · intro scope hscope name unfinished
    rcases List.mem_cons.mp hscope with rfl | hscope
    · exact absurd unfinished (finished name)
    · obtain ⟨decl, hdecl⟩ := h.unfinished scope hscope name unfinished
      exact ⟨decl, hdecl.cons step⟩

/-- Inside the body of a function the scope of its parameters is innermost. -/
theorem At.function (h : c.At π) (kind : Body) (params : List Token) :
    (c.function kind π params).At (.body :: π) := by
  have entered := h.enter .body rfl (finished_paramNames params finished_nil)
  exact ⟨entered.places, entered.unfinished⟩

theorem finished_single (name : String) : Finished [(name, true)] :=
  finished_nil.insert name

theorem At.base (h : c.At π) : (c.base π).At (.this :: π) := by
  have entered := h.enter .this rfl (finished_single "this")
  exact ⟨entered.places, entered.unfinished⟩

/-- Inside a class with a superclass, `this` is innermost and `super` right outside of it. -/
theorem At.derived (h : c.At π) : (c.derived π).At (.this :: .super :: π) := by
  have entered := (h.enter .super rfl (finished_single "super")).enter .this rfl
    (finished_single "this")
  exact ⟨entered.places, entered.unfinished⟩

theorem At.mark_true (h : c.At π) (name : String) : (c.mark name true).At π := by
  obtain ⟨scopes, body, family⟩ := c
  cases scopes with
  | nil => exact h
  | cons s rest =>
    refine ⟨h.places, fun scope hscope other unfinished => ?_⟩
    rcases List.mem_cons.mp hscope with rfl | hscope
    · dsimp only at unfinished
      rw [Bindings.get?_insert] at unfinished
      split at unfinished
      · cases unfinished
      · exact h.unfinished s List.mem_cons_self other unfinished
    · exact h.unfinished scope (List.mem_cons_of_mem _ hscope) other unfinished

/-- Inside the initializer of a variable its name is without a value. -/
theorem At.initializer (h : c.At π) (name : String) :
    (c.mark name false).At (.initializer name :: π) := by
  obtain ⟨scopes, body, family⟩ := c
  cases scopes with
  | nil => exact h.step _ rfl
  | cons s rest =>
    refine ⟨h.places, fun scope hscope other unfinished => ?_⟩
    have known (scope : LocalScope) (hscope : scope ∈ s :: rest)
        (unfinished : Bindings.get? other scope.names = some false) :
        ∃ decl, InInitializer (.initializer name :: π) other scope.place decl := by
      obtain ⟨decl, hdecl⟩ := h.unfinished scope hscope other unfinished
      exact ⟨decl, hdecl.cons _⟩
    rcases List.mem_cons.mp hscope with rfl | hscope
    · dsimp only at unfinished ⊢
      rw [Bindings.get?_insert] at unfinished
      split at unfinished
      · next heq =>
        subst heq
        refine ⟨π, List.suffix_refl _, ?_⟩
        rw [← h.places]
        rfl
      · exact known s List.mem_cons_self unfinished
    · exact known scope (List.mem_cons_of_mem _ hscope) unfinished

/-! ### Names that differ from the one that is marked -/

/-- Marking a name changes no distance to another. -/
theorem hops?_mark {name other : String} (done : Bool) (ne : other ≠ name)
    (scopes : List LocalScope) {body : Option Body} {family : Option Family} :
    hops? (Context.mark ⟨scopes, body, family⟩ name done).names other =
      hops? (Context.names ⟨scopes, body, family⟩) other := by
  cases scopes with
  | nil => rfl
  | cons s rest =>
    have binds : Bindings.binds other (Bindings.insert name done s.names) =
        Bindings.binds other s.names := by
      rw [Bindings.binds, Bindings.get?_insert, if_neg ne, Bindings.binds]
    simp only [hops?, Context.names, mark, List.map_cons, List.findIdx?_cons, binds]

/-- A name that is not the one declared is read as it was before. -/
theorem Reads.of_mark {name : String} {done : Bool} {ref : Reference}
    (h : (c.mark name done).Reads ref) (ne : ref.name.lexeme ≠ name) : c.Reads ref := by
  obtain ⟨scopes, body, family⟩ := c
  obtain ⟨unread, refers⟩ := h
  refine ⟨?_, ?_⟩
  · cases scopes with
    | nil => exact unread
    | cons s rest =>
      have same : Bindings.get? ref.name.lexeme
          (Context.mark ⟨s :: rest, body, family⟩ name done).innermost =
            Bindings.get? ref.name.lexeme (Context.innermost ⟨s :: rest, body, family⟩) := by
        show Bindings.get? _ (Bindings.insert name done s.names) = Bindings.get? _ s.names
        rw [Bindings.get?_insert, if_neg ne]
      rwa [same] at unread
  · rwa [Refers, hops?_mark done ne] at refers

end Context

end Lox.Scope
