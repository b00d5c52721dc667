import Lox.Proofs.Scope.Around

/-!
The class around a place. Inside a method the scopes run outward through those of the method to the
scope of the instance, and in a class with a superclass to the scope of `super` right behind it; the
scopes of the method declare neither `this` nor `super`.
-/

namespace Lox.Scope

/-- The scope of the instance in the innermost class around a place. -/
def instanceScope? : Place → Option Place
  | [] => none
  | .this :: π => some (.this :: π)
  | _ :: π => instanceScope? π

theorem instanceScope?_eq_some {π σ : Place} (h : instanceScope? π = some σ) :
    ∃ ρ, σ = .this :: ρ := by
  induction π with
  | nil => cases h
  | cons step π ih =>
    cases step with
    | this =>
      cases h
      exact ⟨π, rfl⟩
    | _ => exact ih h

/-- Neither `this` nor `super` is declared. -/
def Ordinary (names : Names) : Prop :=
  Bindings.binds "this" names = false ∧ Bindings.binds "super" names = false

theorem ordinary_nil : Ordinary [] := ⟨rfl, rfl⟩

/-- A name of a variable is no keyword, so the scope stays an ordinary one. -/
theorem Ordinary.insert {names : Names} (h : Ordinary names) {t : Token} (name : t.IsName)
    (done : Bool) : Ordinary (Bindings.insert t.lexeme done names) := by
  constructor
  · rw [Bindings.binds, Bindings.get?_insert, if_neg name.ne_this.symm]
    exact h.1
  · rw [Bindings.binds, Bindings.get?_insert, if_neg name.ne_super.symm]
    exact h.2

theorem ordinary_paramNames {params : List Token} (h : ∀ t ∈ params, t.IsName) {names : Names}
    (ordinary : Ordinary names) : Ordinary (Context.paramNames params names) := by
  induction params generalizing names with
  | nil => exact ordinary
  | cons p rest ih =>
    exact ih (fun t ht => h t (List.mem_cons_of_mem _ ht))
      (ordinary.insert (h p List.mem_cons_self) true)

/-- The scopes around a part of a method: its own, that of the instance, and those around it. -/
structure MethodScopes where
  inner : List LocalScope
  instancePlace : Place
  outer : List LocalScope

namespace MethodScopes

def all (v : MethodScopes) : List LocalScope :=
  v.inner ++ ⟨v.instancePlace, [("this", true)]⟩ :: v.outer

/-- The scopes are those of a method at the place, in a class of the family. -/
structure Around (v : MethodScopes) (family : Family) (π : Place) : Prop where
  inside : v.inner ≠ []
  ordinary : ∀ scope ∈ v.inner, Ordinary scope.names
  instance_ : instanceScope? π = some v.instancePlace
  inherited : family = .derived → ∃ ρ rest, v.instancePlace = .this :: .super :: ρ ∧
    v.outer = ⟨.super :: ρ, [("super", true)]⟩ :: rest

variable {v : MethodScopes}

/-- Scopes without a name are passed on the way to it, a step each. -/
theorem hops?_outward {name : String} {inner rest : List LocalScope}
    (missing : ∀ scope ∈ inner, Bindings.binds name scope.names = false) :
    hops? ((inner ++ rest).map (·.names)) name =
      (hops? (rest.map (·.names)) name).map (inner.length + ·) := by
  induction inner with
  | nil => simp
  | cons scope inner ih =>
    have here := missing scope List.mem_cons_self
    rw [hops?, List.cons_append, List.map_cons, List.findIdx?_cons, here, ← hops?,
      ih fun s hs => missing s (List.mem_cons_of_mem _ hs), Option.map_map]
    cases hops? (rest.map (·.names)) name with
    | none => rfl
    | some d =>
      show some (inner.length + d + 1) = some (inner.length + 1 + d)
      congr 1
      omega

/-- The scope of `this` is the first behind the ordinary ones. -/
theorem Around.hops?_this {family : Family} {π : Place} (h : v.Around family π) :
    hops? (v.all.map (·.names)) "this" = some v.inner.length := by
  rw [all, hops?_outward fun s hs => (h.ordinary s hs).1]
  rfl

/-- The scope of `super` stands right behind that of `this`. -/
theorem Around.hops?_super {π : Place} (h : v.Around .derived π) :
    hops? (v.all.map (·.names)) "super" = some (v.inner.length + 1) := by
  obtain ⟨ρ, rest, -, outer⟩ := h.inherited rfl
  rw [all, hops?_outward fun s hs => (h.ordinary s hs).2, outer]
  rfl

end MethodScopes

namespace Context

/-- A context inside a class is one of a method there. -/
def Owned (c : Context) (π : Place) : Prop :=
  ∀ family, c.family = some family → ∃ v : MethodScopes, c.scopes = v.all ∧ v.Around family π

/-- The context is one at the place, and inside a class one of a method. -/
structure Within (c : Context) (π : Place) : Prop extends c.At π where
  owned : c.Owned π

variable {c : Context} {π : Place}

theorem Within.top (run : Nat) : Within {} [.program run] :=
  ⟨.top run, fun _ h => by cases h⟩

/-- A step that opens no scope. -/
theorem Within.step (h : c.Within π) (step : Step) (opens : step.opens = false) :
    c.Within (step :: π) := by
  refine ⟨h.toAt.step step opens, fun family inside => ?_⟩
  obtain ⟨v, scopes, around⟩ := h.owned family inside
  refine ⟨v, scopes, around.inside, around.ordinary, ?_, around.inherited⟩
  cases step with
  | this => cases opens
  | _ => exact around.instance_

theorem Within.part (h : c.Within π) (i : Nat) : c.Within (.part i :: π) := h.step _ rfl

/-- A scope of the method's own. -/
theorem Owned.enter (h : c.Owned π) {step : Step} (other : step ≠ .this) {names : Names}
    (ordinary : Ordinary names) : (c.enter (step :: π) names).Owned (step :: π) := by
  intro family inside
  obtain ⟨v, scopes, around⟩ := h family inside
  refine ⟨⟨⟨step :: π, names⟩ :: v.inner, v.instancePlace, v.outer⟩, ?_, List.cons_ne_nil _ _,
    List.forall_mem_cons.mpr ⟨ordinary, around.ordinary⟩, ?_, around.inherited⟩
  · show (⟨step :: π, names⟩ :: c.scopes : List LocalScope) = _
    rw [scopes]
    rfl
  · cases step with
    | this => exact absurd rfl other
    | _ => exact around.instance_

theorem Within.block (h : c.Within π) : (c.enter (.block :: π) []).Within (.block :: π) :=
  ⟨h.toAt.enter .block rfl finished_nil, h.owned.enter (by decide) ordinary_nil⟩

/-- The scope of the parameters is one more ordinary scope. -/
theorem Within.function (h : c.Within π) (kind : Body) {params : List Token}
    (names : ∀ t ∈ params, t.IsName) : (c.function kind π params).Within (.body :: π) :=
  have other : Step.body ≠ .this := by decide
  ⟨h.toAt.function kind params, h.owned.enter other (ordinary_paramNames names ordinary_nil)⟩

theorem Owned.mark (h : c.Owned π) {t : Token} (name : t.IsName) (done : Bool) :
    (c.mark t.lexeme done).Owned π := by
  obtain ⟨scopes, body, family⟩ := c
  cases scopes with
  | nil => exact h
  | cons s rest =>
    intro family inside
    obtain ⟨v, split, around⟩ := h family inside
    obtain ⟨inner, σ, outer⟩ := v
    cases inner with
    | nil => exact absurd rfl around.inside
    | cons first inner =>
      cases split
      have innermost := around.ordinary _ List.mem_cons_self
      refine ⟨⟨{ s with names := Bindings.insert t.lexeme done s.names } :: inner, σ, outer⟩,
        rfl, List.cons_ne_nil _ _, ?_, around.instance_, around.inherited⟩
      exact List.forall_mem_cons.mpr ⟨innermost.insert name done,
        fun s hs => around.ordinary s (List.mem_cons_of_mem _ hs)⟩

theorem Within.mark_true (h : c.Within π) {t : Token} (name : t.IsName) :
    (c.mark t.lexeme true).Within π :=
  ⟨h.toAt.mark_true t.lexeme, h.owned.mark name true⟩

theorem Within.initializer (h : c.Within π) {t : Token} (name : t.IsName) :
    (c.mark t.lexeme false).Within (.initializer t.lexeme :: π) := by
  refine ⟨h.toAt.initializer t.lexeme, fun family inside => ?_⟩
  obtain ⟨v, scopes, around⟩ := h.owned.mark name false family inside
  exact ⟨v, scopes, around.inside, around.ordinary, around.instance_, around.inherited⟩

/-- A statement leaves the context within its place. -/
theorem Within.after (h : c.Within π) {s : Stmt} {ρ : Place} (addressed : s.Addressed c ρ) :
    (s.after c).Within π := by
  cases s with
  | var name init =>
    cases init with
    | none => exact h.mark_true addressed.1
    | some init => exact h.mark_true addressed.1.1
  | function decl => exact h.mark_true addressed.2.2
  | classDecl name superclass methods =>
    cases superclass with
    | none => exact h.mark_true addressed.2.2
    | some superclass => exact h.mark_true addressed.2.2.2.2.1
  | _ => exact h

/-! ### Methods -/

theorem body_mark (name : String) (done : Bool) : (c.mark name done).body = c.body := by
  unfold mark
  split <;> rfl

theorem body_after (s : Stmt) : (s.after c).body = c.body := by
  cases s with
  | var | function | classDecl => exact body_mark _ _
  | _ => rfl

/-- A method of a class without a superclass. -/
theorem At.baseMethod (h : c.At π) (i : Nat) (kind : Body) {params : List Token}
    (names : ∀ t ∈ params, t.IsName) :
    ((c.base π).function kind (.part i :: .this :: π) params).Within
      (.body :: .part i :: .this :: π) := by
  refine ⟨(h.base.part i).function kind params, fun family inside => ?_⟩
  cases inside
  refine ⟨⟨[⟨.body :: .part i :: .this :: π, paramNames params []⟩], .this :: π, c.scopes⟩, rfl,
    List.cons_ne_nil _ _, ?_, rfl, fun h => by cases h⟩
  intro scope hscope
  rw [List.mem_singleton.mp hscope]
  exact ordinary_paramNames names ordinary_nil

/-- A method of a class with a superclass. -/
theorem At.derivedMethod (h : c.At π) (i : Nat) (kind : Body) {params : List Token}
    (names : ∀ t ∈ params, t.IsName) :
    ((c.derived π).function kind (.part i :: .this :: .super :: π) params).Within
      (.body :: .part i :: .this :: .super :: π) := by
  refine ⟨(h.derived.part i).function kind params, fun family inside => ?_⟩
  cases inside
  refine ⟨⟨[⟨.body :: .part i :: .this :: .super :: π, paramNames params []⟩], .this :: .super :: π,
    ⟨.super :: π, [("super", true)]⟩ :: c.scopes⟩, rfl, List.cons_ne_nil _ _, ?_, rfl,
    fun _ => ⟨π, c.scopes, rfl, rfl⟩⟩
  intro scope hscope
  rw [List.mem_singleton.mp hscope]
  exact ordinary_paramNames names ordinary_nil

end Context

end Lox.Scope
