import Lox.Native.Host
import Mathlib.Data.List.Forall2

/-!
What a native holds. The values that it speaks of are without parts or were given to it, so whatever
holds of the former and of all that it is given holds of what it gives back; and natives that are
shown the same do the same.
-/

namespace Lox

namespace Value

/-- Values that hold no part of a program. -/
def isPlain : Value → Bool
  | function _ | classObj _ | object _ _ => false
  | _ => true

end Value

def Callable.value : Callable → Value
  | function f => .function f
  | native f => .native f
  | classObj c => .classObj c

theorem Value.callable?_eq_some {v : Value} {f : Callable} (h : v.callable? = some f) :
    v = f.value := by
  cases v with
  | function | native | classObj => cases h; rfl
  | _ => cases h

/-- Messages speak of a callee by how it looks. -/
theorem Callable.description_eq {f f' : Callable}
    (alike : f.value.appearance = f'.value.appearance) : f'.description = f.description := by
  cases f with
  | function f =>
    cases f' with
    | function f' =>
      have name := (Appearance.function.inj alike).2.1
      unfold Callable.description
      dsimp only
      rw [name]
    | _ => exact Appearance.noConfusion alike
  | native f =>
    cases f' with
    | native f' => rw [Appearance.native.inj alike]
    | _ => exact Appearance.noConfusion alike
  | classObj c =>
    cases f' with
    | classObj c' =>
      have name := (Appearance.classObj.inj alike).2.1
      unfold Callable.description
      dsimp only
      rw [name]
    | _ => exact Appearance.noConfusion alike

namespace Datum

variable {P : Value → Prop} {R : Value → Value → Prop} {given given' : List Value}

/-- What a native speaks of is like what it was given. -/
theorem holds (plain : ∀ v, v.isPlain = true → P v) (h : ∀ v ∈ given, P v) (d : Datum) :
    P (d.value given) := by
  cases d with
  | given i =>
    rw [Datum.value, List.getD_eq_getElem?_getD]
    cases found : given[i]? with
    | none => exact plain _ rfl
    | some v => exact h v (List.mem_of_getElem? found)
  | _ => exact plain _ rfl

/-- What a native hands on as arguments is like what it was given. -/
theorem holds_map (plain : ∀ v, v.isPlain = true → P v) (h : ∀ v ∈ given, P v)
    (ds : List Datum) : ∀ v ∈ ds.map (·.value given), P v := by
  intro v hv
  obtain ⟨d, -, rfl⟩ := List.mem_map.mp hv
  exact holds plain h d

/-- A native that was given like values speaks of like values. -/
theorem related (plain : ∀ v, v.isPlain = true → R v v) (h : List.Forall₂ R given given')
    (d : Datum) : R (d.value given) (d.value given') := by
  cases d with
  | given i =>
    rw [Datum.value, Datum.value]
    induction h generalizing i with
    | nil => exact plain _ rfl
    | cons first _ ih =>
      cases i with
      | zero => exact first
      | succ i => exact ih i
  | _ => exact plain _ rfl

/-- A native that was given like values hands on like arguments. -/
theorem related_map (plain : ∀ v, v.isPlain = true → R v v) (h : List.Forall₂ R given given')
    (ds : List Datum) : List.Forall₂ R (ds.map (·.value given)) (ds.map (·.value given')) := by
  induction ds with
  | nil => exact .nil
  | cons d rest ih => exact .cons (related plain h d) ih

end Datum

/-! ### Values that look alike -/

/-- A relation between values that look alike. -/
structure Likeness (R : Value → Value → Prop) : Prop where
  plain : ∀ v, v.isPlain = true → R v v
  alike : ∀ v v', R v v' → v.appearance = v'.appearance

namespace Likeness

variable {R : Value → Value → Prop} {v v' : Value}

/-- Like values are both callable, and with as many arguments, or both not. -/
theorem callable? (likeness : Likeness R) (h : R v v') :
    (v.callable? = none ∧ v'.callable? = none) ∨
      ∃ f f', v.callable? = some f ∧ v'.callable? = some f' ∧ R f.value f'.value ∧
        f.arity = f'.arity := by
  have alike := likeness.alike v v' h
  cases v with
  | function f =>
    cases v' <;> first | cases alike | skip
    exact .inr ⟨_, _, rfl, rfl, h, (Appearance.function.inj alike).2.2⟩
  | native f =>
    cases v' <;> cases alike
    exact .inr ⟨_, _, rfl, rfl, h, rfl⟩
  | classObj c =>
    cases v' <;> first | cases alike | skip
    exact .inr ⟨_, _, rfl, rfl, h, (Appearance.classObj.inj alike).2.2⟩
  | object =>
    cases v' <;> first | cases alike | exact .inl ⟨rfl, rfl⟩
  | _ =>
    cases v' <;> cases alike
    exact .inl ⟨rfl, rfl⟩

/-- A native is shown the same of like arguments. -/
theorem shown (likeness : Likeness R) {args args' : List Value} (h : List.Forall₂ R args args') :
    args.map (·.appearance) = args'.map (·.appearance) := by
  induction h with
  | nil => rfl
  | cons first _ ih => rw [List.map_cons, List.map_cons, likeness.alike _ _ first, ih]

end Likeness

/-! ### What natives pass on -/

/-- After problems of such a kind the native does nothing but to pass them on; `met` is how many
problems it met before. -/
def Reply.PassesOn (P : Mishap → Prop) : Nat → Reply → Prop
  | met, .call _ _ resume => (∀ a, (resume (.ok a)).PassesOn P met) ∧
    ∀ mishap, (P mishap → resume (.error mishap) = .pass met) ∧
      (resume (.error mishap)).PassesOn P (met + 1)
  | _, _ => True

/-- All natives pass on problems of such a kind. -/
def Natives.PassesOn (natives : Natives) (P : Mishap → Prop) : Prop :=
  ∀ before name args, (natives before name args).PassesOn P 0

/-- A native that passes on more passes on less. -/
theorem Reply.PassesOn.imp {P Q : Mishap → Prop} (imp : ∀ mishap, Q mishap → P mishap) {met : Nat}
    {reply : Reply} (h : reply.PassesOn P met) : reply.PassesOn Q met := by
  induction reply generalizing met with
  | call callee args resume ih =>
    obtain ⟨resumes, rescues⟩ := h
    exact ⟨fun a => ih _ (resumes a), fun mishap =>
      ⟨fun q => (rescues mishap).1 (imp mishap q), ih _ (rescues mishap).2⟩⟩
  | _ => trivial

/-- To pass on no problem asks nothing of a native. -/
theorem Reply.passesOn_none (met : Nat) (reply : Reply) :
    reply.PassesOn (fun _ => False) met := by
  induction reply generalizing met with
  | call callee args resume ih =>
    exact ⟨fun a => ih _ met, fun mishap => ⟨False.elim, ih _ (met + 1)⟩⟩
  | _ => trivial

end Lox
