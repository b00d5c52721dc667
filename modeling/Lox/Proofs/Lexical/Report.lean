import Mathlib.Data.List.Nodup
import Mathlib.Data.Option.Basic
import Lox.Proofs.Lexical.Spot

/-!
What is to be shown of the walk over a program, part by part: what it makes of the part has the
right address at every use, and what it reports is what is wrong with the part and with all parts
inside, each once.
-/

namespace Lox.Scope

variable {x y : Spot} {xs ys zs ws : List Spot} {found f g : List ScopeError}

namespace Spot

/-- The reference at the spot, if it uses a name. -/
def use? : Spot → Option Reference
  | ⟨.expr e, _⟩ => e.use?
  | _ => none

/-- The use may have an address. -/
def Admitted : Spot → Prop
  | ⟨.expr e, a⟩ => a.Admits e
  | _ => True

/-- The reference has the lexical address of its name at the spot. -/
def Recorded (x : Spot) (ref : Reference) : Prop :=
  ∀ d : Int, ref.hops = some d ↔
    x.Admitted ∧ ∃ n : Nat, d = n ∧ x.around.IsAddress ref.name.lexeme n

/-- The other spot uses the same name if any, and has its address. -/
def Labelled (x y : Spot) : Prop :=
  match x.use? with
  | none => y.use? = none
  | some ref => ∃ ref', y.use? = some ref' ∧ ref'.name = ref.name ∧ x.Recorded ref'

/-- Whatever is inside the one spot is inside the other, with its addresses. -/
def Mirrors (x y : Spot) : Prop := ∀ way, Option.Rel Labelled (x.at? way) (y.at? way)

/-- The errors are those of the spot and of all that is inside, each once. -/
def Lists (x : Spot) (found : List ScopeError) : Prop :=
  ∃ report : List (Way × ScopeError), (report.map Prod.fst).Nodup ∧
    (∀ way e, (way, e) ∈ report ↔ ∃ u, x.at? way = some u ∧ u.Offends e) ∧
    found.Perm (report.map Prod.snd)

/-- The errors are those of the spot itself, of which there is one at most. -/
structure Owns (x : Spot) (own : List ScopeError) : Prop where
  mem_iff : ∀ e, e ∈ own ↔ x.Offends e
  length_le : own.length ≤ 1

/-- What does not offend owns no error. -/
theorem Owns.none (h : ∀ e, ¬ x.Offends e) : x.Owns [] :=
  ⟨fun e => iff_of_false List.not_mem_nil (h e), Nat.zero_le 1⟩

/-- What offends once owns that error. -/
theorem Owns.one {e : ScopeError} (here : x.Offends e) (only : ∀ e', x.Offends e' → e' = e) :
    x.Owns [e] := by
  refine ⟨fun e' => ?_, Nat.le_refl 1⟩
  rw [List.mem_singleton]
  refine ⟨?_, only e'⟩
  rintro rfl
  exact here

/-! ### From parts to wholes -/

theorem at?_nil : x.at? [] = some x := rfl

/-- The way inside goes through one part at a time. -/
theorem at?_cons {i : Nat} {way : Way} :
    x.at? (i :: way) = (x.inside[i]?).bind (·.at? way) := rfl

/-- The errors of several spots, with the number of the spot in front of each way. -/
def ListsAll (xs : List Spot) (found : List ScopeError) : Prop :=
  ∃ report : List (Way × ScopeError), (report.map Prod.fst).Nodup ∧
    (∀ way e, (way, e) ∈ report ↔ ∃ i rest x u, way = i :: rest ∧ xs[i]? = some x ∧
      x.at? rest = some u ∧ u.Offends e) ∧
    found.Perm (report.map Prod.snd)

theorem listsAll_nil : ListsAll [] [] :=
  ⟨[], List.nodup_nil, by simp, .nil⟩

/-- The way of a spot that has one more before it. -/
def shifted : Way → Way
  | [] => []
  | i :: way => (i + 1) :: way

/-- Ways through other parts are other ways. -/
theorem shifted_injective : Function.Injective shifted := by
  intro v w h
  cases v <;> cases w <;> simp_all [shifted]

/-- The errors of the first come before those of the rest. -/
theorem Lists.cons (h : x.Lists f) (hs : ListsAll xs g) : ListsAll (x :: xs) (f ++ g) := by
  obtain ⟨report, once, mem, same⟩ := h
  obtain ⟨others, once', mem', same'⟩ := hs
  refine ⟨report.map (Prod.map (0 :: ·) id) ++ others.map (Prod.map shifted id), ?_, ?_, ?_⟩
  · have front : (report.map (Prod.map (0 :: ·) id)).map Prod.fst =
        (report.map Prod.fst).map (0 :: ·) := by simp
    have back : (others.map (Prod.map shifted id)).map Prod.fst =
        (others.map Prod.fst).map shifted := by simp
    rw [List.map_append, front, back, List.nodup_append]
    refine ⟨List.Nodup.map List.cons_injective once, List.Nodup.map shifted_injective once', ?_⟩
    intro v hv w hw
    obtain ⟨v, -, rfl⟩ := List.mem_map.mp hv
    obtain ⟨old, hold, rfl⟩ := List.mem_map.mp hw
    obtain ⟨entry, hentry, rfl⟩ := List.mem_map.mp hold
    obtain ⟨i, rest, -, -, start, -⟩ := (mem' entry.1 entry.2).mp hentry
    simp [start, shifted]
  · intro way e
    rw [List.mem_append]
    constructor
    · rintro (h | h)
      · obtain ⟨⟨rest, e⟩, hrest, same⟩ := List.mem_map.mp h
        cases same
        obtain ⟨u, there, offends⟩ := (mem rest e).mp hrest
        exact ⟨0, rest, x, u, rfl, rfl, there, offends⟩
      · obtain ⟨⟨old, e⟩, hold, same⟩ := List.mem_map.mp h
        cases same
        obtain ⟨i, rest, z, u, rfl, there, inside, offends⟩ := (mem' old e).mp hold
        exact ⟨i + 1, rest, z, u, rfl, there, inside, offends⟩
    · rintro ⟨i, rest, z, u, rfl, there, inside, offends⟩
      cases i with
      | zero =>
        cases there
        refine .inl (List.mem_map.mpr ⟨(rest, e), ?_, rfl⟩)
        exact (mem rest e).mpr ⟨u, inside, offends⟩
      | succ i =>
        refine .inr (List.mem_map.mpr ⟨(i :: rest, e), ?_, rfl⟩)
        exact (mem' _ e).mpr ⟨i, rest, z, u, rfl, there, inside, offends⟩
  · rw [List.map_append, List.map_map, List.map_map]
    exact same.append same'

/-- What is wrong with a spot is wrong with itself or with something inside. -/
theorem ListsAll.node {own : List ScopeError} (inside : ListsAll x.inside f) (h : x.Owns own) :
    x.Lists (own ++ f) := by
  obtain ⟨report, once, mem, same⟩ := inside
  have below : ∀ e, ([], e) ∉ report := by
    intro e here
    obtain ⟨i, rest, -, -, start, -⟩ := (mem [] e).mp here
    cases start
  refine ⟨own.map (([] : Way), ·) ++ report, ?_, ?_, ?_⟩
  · obtain ⟨-, few⟩ := h
    cases own with
    | nil => exact once
    | cons e more =>
      have none : more.length = 0 := Nat.le_zero.mp (Nat.le_of_succ_le_succ few)
      obtain rfl : more = [] := List.length_eq_zero_iff.mp none
      refine List.nodup_cons.mpr ⟨fun here => ?_, once⟩
      obtain ⟨⟨way, e'⟩, here, rfl⟩ := List.mem_map.mp here
      exact below e' here
  · intro way e
    rw [List.mem_append]
    cases way with
    | nil =>
      have self : (([] : Way), e) ∈ own.map (([] : Way), ·) ↔ e ∈ own := by simp
      rw [self, h.mem_iff, at?_nil]
      simp [below e]
    | cons i way =>
      have other : (i :: way, e) ∉ own.map (([] : Way), ·) := by simp
      rw [mem, at?_cons]
      simp only [other, false_or, Option.bind_eq_some_iff]
      constructor
      · rintro ⟨j, rest, z, u, start, there, inside, offends⟩
        cases start
        exact ⟨u, ⟨z, there, inside⟩, offends⟩
      · rintro ⟨u, ⟨z, there, inside⟩, offends⟩
        exact ⟨i, way, z, u, rfl, there, inside, offends⟩
  · rw [List.map_append, List.map_map]
    have self : own = own.map (Prod.snd ∘ (([] : Way), ·)) := (List.map_id own).symm
    rw [← self]
    exact same.append_left own

/-- In which order the errors are listed makes no difference. -/
theorem Lists.perm (h : x.Lists f) (same : g.Perm f) : x.Lists g := by
  obtain ⟨report, once, mem, same'⟩ := h
  exact ⟨report, once, mem, same.trans same'⟩

/-! ### What the walk accounts for -/

/-- The walk makes the one spot of the other, and reports the errors. -/
structure Accounts (x y : Spot) (found : List ScopeError) : Prop where
  mirrors : x.Mirrors y
  lists : x.Lists found

inductive AccountsAll : List Spot → List Spot → List ScopeError → Prop
  | nil : AccountsAll [] [] []
  | cons {x y : Spot} {xs ys : List Spot} {f g : List ScopeError} :
      x.Accounts y f → AccountsAll xs ys g → AccountsAll (x :: xs) (y :: ys) (f ++ g)

/-- The errors of one thing are those of the list with that thing. -/
theorem Accounts.single (h : x.Accounts y f) : AccountsAll [x] [y] f := by
  have := AccountsAll.cons h .nil
  rwa [List.append_nil] at this

/-- The errors of more come behind the others. -/
theorem AccountsAll.append (h : AccountsAll xs ys f) (h' : AccountsAll zs ws g) :
    AccountsAll (xs ++ zs) (ys ++ ws) (f ++ g) := by
  induction h with
  | nil => exact h'
  | cons first _ ih =>
    rw [List.append_assoc]
    exact .cons first ih

/-- Errors that are accounted for are all that there are. -/
theorem AccountsAll.lists (h : AccountsAll xs ys f) : ListsAll xs f := by
  induction h with
  | nil => exact listsAll_nil
  | cons first _ ih => exact first.lists.cons ih

/-- What was resolved has the form of what it was made from, part by part. -/
theorem AccountsAll.mirrors (h : AccountsAll xs ys f) (i : Nat) :
    Option.Rel Mirrors xs[i]? ys[i]? := by
  induction h generalizing i with
  | nil => exact .none
  | cons first _ ih =>
    cases i with
    | zero => exact .some first.mirrors
    | succ i => exact ih i

/-- A spot is accounted for when it is labelled, all that is inside is accounted for, and what is
wrong with the spot itself is reported too. -/
theorem Accounts.node {own : List ScopeError} (inside : AccountsAll x.inside y.inside f)
    (label : x.Labelled y) (h : x.Owns own) (same : found.Perm (own ++ f)) :
    x.Accounts y found := by
  refine ⟨fun way => ?_, (inside.lists.node h).perm same⟩
  cases way with
  | nil => exact .some label
  | cons i way =>
    rw [at?_cons, at?_cons]
    have step := inside.mirrors i
    revert step
    generalize x.inside[i]? = u, y.inside[i]? = v
    rintro (mirrors | _)
    · exact mirrors way
    · exact .none

/-- A spot that is neither a use nor wrong in itself. -/
theorem Accounts.plain (inside : AccountsAll x.inside y.inside f) (unused : x.use? = none)
    (unused' : y.use? = none) (right : ∀ e, ¬ x.Offends e) : x.Accounts y f := by
  refine .node inside ?_ (.none right) (.refl f)
  unfold Labelled
  rw [unused]
  exact unused'

/-- A spot with nothing inside. -/
theorem Owns.leaf {own : List ScopeError} (h : x.Owns own) (leaf : x.inside = [])
    (leaf' : y.inside = []) (label : x.Labelled y) : x.Accounts y own := by
  have inside : AccountsAll x.inside y.inside [] := by
    rw [leaf, leaf']
    exact .nil
  refine .node inside label h ?_
  rw [List.append_nil]

end Spot

end Lox.Scope
