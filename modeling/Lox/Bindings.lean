/-!
Names and what they stand for.
-/

namespace Lox

/-- A list of bindings, each name in it once. -/
abbrev Bindings (α : Type) := List (String × α)

namespace Bindings

variable {α : Type}

/-- Sets a name; one that is new goes last. -/
def insert (name : String) (a : α) : Bindings α → Bindings α
  | [] => [(name, a)]
  | (other, b) :: rest =>
    if other = name then (name, a) :: rest else (other, b) :: insert name a rest

def get? (name : String) (bindings : Bindings α) : Option α := bindings.lookup name

def binds (name : String) (bindings : Bindings α) : Bool := (get? name bindings).isSome

/-- The bindings in the order of their names. -/
def sorted (bindings : Bindings α) : Bindings α := bindings.mergeSort (·.1 ≤ ·.1)

/-- The names in order. -/
def keys (bindings : Bindings α) : List String := (sorted bindings).map (·.1)

@[simp]
theorem get?_nil (name : String) : get? name ([] : Bindings α) = none := rfl

theorem get?_cons (name first : String) (a : α) (rest : Bindings α) :
    get? name ((first, a) :: rest) = if name = first then some a else get? name rest := by
  by_cases h : name = first
  · rw [if_pos h, h]
    exact List.lookup_cons_self
  · have hne : (name == first) = false := beq_eq_false_iff_ne.2 h
    simp only [get?, List.lookup_cons, hne, if_neg h]

/-- The name that is set gets its new value, and no other name changes. -/
theorem get?_insert (name other : String) (a : α) (bindings : Bindings α) :
    get? other (insert name a bindings) = if other = name then some a else get? other bindings := by
  induction bindings with
  | nil => exact get?_cons other name a []
  | cons binding rest ih =>
    obtain ⟨first, b⟩ := binding
    by_cases hf : first = name
    · rw [insert, if_pos hf, get?_cons, get?_cons, hf]
      by_cases h : other = name
      · rw [if_pos h, if_pos h]
      · rw [if_neg h, if_neg h, if_neg h]
    · rw [insert, if_neg hf, get?_cons, get?_cons, ih]
      by_cases h : other = first
      · have hn : ¬ other = name := by rw [h]; exact hf
        rw [if_pos h, if_neg hn, if_pos h]
      · rw [if_neg h, if_neg h]

end Bindings

end Lox
