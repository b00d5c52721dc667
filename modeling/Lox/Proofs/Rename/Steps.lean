import Lox.Proofs.Rename.Twin
import Lox.Proofs.Run.Operator

/-!
The steps of evaluation in both runs: each keeps the worlds alike.
-/

namespace Lox.Twin

open Scope Renaming

variable {r : Renaming} {S : Skeleton} {w w' : World} {v v' : Value}

/-! ### Worlds after one change -/

/-- Parts that come to their ends in both runs. -/
theorem mirror_ok {α : Type} {S' : Skeleton} {act act' : Run α} {a a' : α} {u u' : World}
    {post : Skeleton → α → α → Prop} (run : act w = .ok a u) (run' : act' w' = .ok a' u')
    (ext : S <+: S') (like : LikeWorld r S' u u') (h : post S' a a') :
    Mirror r S w w' act act' post := by
  unfold Mirror
  rw [run, run']
  exact ⟨S', ext, like, h⟩

/-- A change of what is neither a frame nor a field. -/
theorem LikeWorld.with_rest (like : LikeWorld r S w w') (stamp depth asked : Nat)
    (printed : Array String) :
    LikeWorld r S { w with stamp, depth, asked, printed }
      { w' with stamp, depth, asked, printed } where
  closed := like.closed
  root := like.root
  marks := like.marks
  size := like.size
  size' := like.size'
  parents := like.parents
  parents' := like.parents'
  bound := like.bound
  fields := like.fields
  count := like.count
  stamp := rfl
  printed := rfl
  depth := rfl
  asked := rfl

/-- Both runs take the same identity. -/
theorem mirror_fresh (like : LikeWorld r S w w') :
    Mirror r S w w' Run.fresh Run.fresh fun _ id id' => id' = id := by
  refine mirror_ok rfl rfl (List.prefix_refl S) ?_ like.stamp
  have changed := like.with_rest (w.stamp + 1) w.depth w.asked w.printed
  rw [like.stamp]
  exact { changed with depth := like.depth, printed := like.printed, asked := like.asked }

/-- As many natives were called before in both runs. -/
theorem mirror_ask (like : LikeWorld r S w w') :
    Mirror r S w w' Run.ask Run.ask fun _ before before' => before' = before := by
  refine mirror_ok rfl rfl (List.prefix_refl S) ?_ like.asked
  have changed := like.with_rest w.stamp w.depth (w.asked + 1) w.printed
  rw [like.asked]
  exact { changed with depth := like.depth, printed := like.printed, stamp := like.stamp }

/-- Both runs print the line, or are refused for the same reason. -/
theorem mirror_write (like : LikeWorld r S w w') (sink : Sink) (line : String) :
    Mirror r S w w' (Run.write sink line) (Run.write sink line) fun _ _ _ => True := by
  unfold Mirror Run.write
  rw [like.printed]
  by_cases takes : sink.takes w.printed.size = true
  · have changed := like.with_rest w.stamp w.depth w.asked (w.printed.push line)
    rw [if_pos takes, if_pos takes]
    exact ⟨S, List.prefix_refl S,
      { changed with stamp := like.stamp, depth := like.depth, asked := like.asked }, trivial⟩
  · rw [if_neg takes, if_neg takes]
    exact ⟨.unplaced _, S, List.prefix_refl S, like⟩

/-- A fault gets the same place in both runs. -/
theorem mirror_placedAt {α : Type} {act act' : Run α} {post : Skeleton → α → α → Prop}
    (h : Mirror r S w w' act act' post) (token : Token) :
    Mirror r S w w' (Run.placedAt token act) (Run.placedAt token act') post := by
  unfold Mirror Run.placedAt at *
  cases hw : act w with
  | ok a u =>
    cases hw' : act' w' with
    | ok a' u' => simpa only [hw, hw'] using h
    | error => simp only [hw, hw'] at h
  | error stop u =>
    cases hw' : act' w' with
    | ok => simp only [hw, hw'] at h
    | error stop' u' =>
      simp only [hw, hw'] at h ⊢
      refine ⟨?_, h.2⟩
      cases h.1 with
      | raised line fault => exact .raised line fault
      | unplaced fault => exact .raised rfl (.inl rfl)
      | outOfFuel => exact .outOfFuel

/-- Both runs are as deep. -/
theorem mirror_deeper {α : Type} {act act' : Run α} {post : Skeleton → α → α → Prop}
    (like : LikeWorld r S w w')
    (h : ∀ u u', LikeWorld r S u u' → Mirror r S u u' act act' post) :
    Mirror r S w w' (Run.deeper act) (Run.deeper act') post := by
  -- the count of calls is part of what the two worlds agree on
  have lowered {S' : Skeleton} {u u' : World} (like : LikeWorld r S' u u') :
      LikeWorld r S' { u with depth := u.depth - 1 } { u' with depth := u'.depth - 1 } := by
    have changed := like.with_rest u.stamp (u.depth - 1) u.asked u.printed
    rw [like.depth]
    exact { changed with stamp := like.stamp, printed := like.printed, asked := like.asked }
  have raised : LikeWorld r S { w with depth := w.depth + 1 }
      { w' with depth := w'.depth + 1 } := by
    have changed := like.with_rest w.stamp (w.depth + 1) w.asked w.printed
    rw [like.depth]
    exact { changed with stamp := like.stamp, printed := like.printed, asked := like.asked }
  have inner := h _ _ raised
  unfold Mirror Run.deeper at *
  cases hw : act { w with depth := w.depth + 1 } with
  | ok a u =>
    cases hw' : act' { w' with depth := w'.depth + 1 } with
    | ok a' u' =>
      simp only [hw, hw'] at inner ⊢
      obtain ⟨S', ext, like', hp⟩ := inner
      exact ⟨S', ext, lowered like', hp⟩
    | error => simp only [hw, hw'] at inner
  | error stop u =>
    cases hw' : act' { w' with depth := w'.depth + 1 } with
    | ok => simp only [hw, hw'] at inner
    | error stop' u' =>
      simp only [hw, hw'] at inner ⊢
      obtain ⟨stops, S', ext, like'⟩ := inner
      exact ⟨stops, S', ext, lowered like'⟩

/-! ### Frames -/

/-- In the frame of the scope the variable has its new name. -/
theorem LikeWorld.define (like : LikeWorld r S w w') (hv : Like r S v v') (e : Nat) (n : String) :
    LikeWorld r S { w with frames := w.frames.define e n v }
      { w' with frames := w'.frames.define e (r.swap (S.marked e) n) v' } where
  closed := like.closed
  root := like.root
  marks := like.marks
  size := by simpa using like.size
  size' := by simpa using like.size'
  parents e' := by simpa using like.parents e'
  parents' e' := by simpa using like.parents' e'
  bound e' m := by
    dsimp only
    rw [Frames.own?_define, Frames.own?_define, like.size, like.size']
    -- swapping is injective, so no other name of the frame is overwritten
    by_cases here : e' = e ∧ e < S.length ∧ m = n
    · obtain ⟨rfl, inside, rfl⟩ := here
      rw [if_pos ⟨rfl, inside, rfl⟩, if_pos ⟨rfl, inside, rfl⟩]
      exact .some hv
    · have there : ¬ (e' = e ∧ e < S.length ∧ r.swap (S.marked e') m = r.swap (S.marked e) n) := by
        rintro ⟨rfl, inside, same⟩
        rw [swap_name_eq_iff, swap_swap] at same
        exact here ⟨rfl, inside, same⟩
      rw [if_neg here, if_neg there]
      exact like.bound e' m
  fields := like.fields
  count := like.count
  stamp := like.stamp
  printed := like.printed
  depth := like.depth
  asked := like.asked

/-- A name is bound under the name that it has in the frame. -/
theorem mirror_define (like : LikeWorld r S w w') (hv : Like r S v v') (e : Nat) {n n' : String}
    (name : n' = r.swap (S.marked e) n) :
    Mirror r S w w' (Run.define e n v) (Run.define e n' v') fun _ _ _ => True := by
  subst name
  exact mirror_ok rfl rfl (List.prefix_refl S) (like.define hv e n) trivial

/-- A frame for a scope, with like names in it. -/
theorem mirror_newFrame (like : LikeWorld r S w w') {scopes : List Place} {env : Nat}
    (around : Around r S scopes env) (step : Step) (opens : step.opens = true) (π : Place)
    {bindings bindings' : Bindings Value}
    (names : ∀ n, Option.Rel (Like r S) (Bindings.get? n bindings)
      (Bindings.get? (r.swap (step :: π = r.scope) n) bindings')) :
    Mirror r S w w' (Run.newFrame env bindings) (Run.newFrame env bindings') fun S' e e' =>
      e' = e ∧ Around r S' ((step :: π) :: scopes) e := by
  have ext := Skeleton.extended_push (S := S) env (decide (step :: π = r.scope))
  refine mirror_ok rfl rfl ext ?_ ⟨like.size'.trans like.size.symm, ?_⟩
  · constructor
    -- the frame is marked in the skeleton exactly if it is the scope of the renamed declaration
    · exact like.closed.push around.inside _
    · rw [Skeleton.getElem?_extended ext (Nat.zero_lt_of_lt around.inside)]
      exact like.root
    · intro e marked
      rw [Skeleton.marked_push] at marked
      split at marked
      · exact ⟨step, π, (of_decide_eq_true marked).symm, opens⟩
      · exact like.marks e marked
    · simpa using like.size
    · simpa using like.size'
    · intro e
      rw [Frames.parent?_push, Skeleton.parent?_push, like.size, like.parents]
    · intro e
      rw [Frames.parent?_push, Skeleton.parent?_push, like.size', like.parents']
    · intro e n
      dsimp only
      rw [Frames.own?_push, Frames.own?_push, Skeleton.marked_push, like.size, like.size']
      split
      · exact rel_mono (fun _ _ h => h.mono like.closed ext) (names n)
      · exact rel_mono (fun _ _ h => h.mono like.closed ext) (like.bound e n)
    · intro id n
      exact rel_mono (fun _ _ h => h.mono like.closed ext) (like.fields id n)
    · exact like.count
    · exact like.stamp
    · exact like.printed
    · exact like.depth
    · exact like.asked
  · rw [like.size]
    exact around.push like.closed (step :: π)

/-! ### Instances -/

/-- Both runs make the instance with the same number. -/
theorem mirror_newObject (like : LikeWorld r S w w') :
    Mirror r S w w' Run.newObject Run.newObject fun _ id id' => id' = id := by
  refine mirror_ok rfl rfl (List.prefix_refl S) ?_ like.count
  refine { like with fields := ?_, count := by simpa using like.count }
  intro id n
  dsimp only
  rw [Array.getElem?_push, Array.getElem?_push, like.count]
  split
  · exact .none
  · exact like.fields id n

/-- A field has like values in both runs. -/
theorem mirror_field? (like : LikeWorld r S w w') (id : Nat) (n : String) :
    Mirror r S w w' (Run.field? id n) (Run.field? id n) fun S o o' =>
      Option.Rel (Like r S) o o' :=
  mirror_ok rfl rfl (List.prefix_refl S) like (like.fields id n)

/-- A field is set to like values in both runs. -/
theorem mirror_setField (like : LikeWorld r S w w') (hv : Like r S v v') (id : Nat) (n : String) :
    Mirror r S w w' (Run.setField id n v) (Run.setField id n v') fun _ _ _ => True := by
  refine mirror_ok rfl rfl (List.prefix_refl S) ?_ trivial
  refine { like with fields := ?_, count := by simpa using like.count }
  intro id' m
  have before := like.fields id' m
  -- objects have the same numbers in both worlds, so both have one or neither has
  have there : w.objects[id']? = none ↔ w'.objects[id']? = none := by
    rw [Array.getElem?_eq_none_iff, Array.getElem?_eq_none_iff, like.count]
  dsimp only
  rw [Array.getElem?_modify, Array.getElem?_modify]
  split
  · cases fields : w.objects[id']? with
    | none =>
      rw [there.mp fields]
      exact .none
    | some bindings =>
      cases fields' : w'.objects[id']? with
      | none =>
        rw [there.mpr fields'] at fields
        cases fields
      | some bindings' =>
        rw [fields, fields'] at before
        simp only [Option.map_some, Option.bind_some, Bindings.get?_insert] at before ⊢
        split
        · exact .some hv
        · exact before
  · exact before

/-! ### Names -/

/-- A use that has not the new name is renamed as a frame of the scope swaps it. -/
theorem name_eq_swap_of_leaves {b : Bool} {n : String} (h : b = true → n ≠ r.new) :
    r.name b n = r.swap b n := by
  cases b with
  | true => exact name_eq_swap (h rfl) true
  | false => simp [Renaming.name, swap]

/-- Going outward only asks which frame is around which. -/
theorem stepsOut?_eq {fs : Frames Value} (h : ∀ e, fs.parent? e = S.parent? e) (e d : Nat) :
    fs.stepsOut? e d = S.out? e d := by
  induction d generalizing e with
  | zero => rfl
  | succ d ih =>
    unfold Frames.stepsOut? Skeleton.out?
    rw [h]
    cases S.parent? e with
    | none => rfl
    | some p => exact ih p

/-- There is nothing around the outermost frame. -/
theorem outward_root (fs : Frames Value) : fs.outward Frames.root = [Frames.root] := by
  rw [Frames.outward]
  split
  · rfl
  · next p _ => exact if_neg (Nat.not_lt_zero p)

/-- At top level the nearest frame that binds a name is the outermost one, if it does. -/
theorem nearest?_root (fs : Frames Value) (n : String) :
    fs.nearest? Frames.root n = (fs.own? Frames.root n).map fun _ => Frames.root := by
  rw [Frames.nearest?, outward_root, List.find?_cons]
  cases fs.own? Frames.root n <;> rfl

/-- At top level a name is looked up among the globals. -/
theorem get?_root (fs : Frames Value) (n : String) :
    fs.get? Frames.root n = fs.own? Frames.root n := by
  rw [Frames.get?, nearest?_root]
  cases h : fs.own? Frames.root n with
  | none => rfl
  | some v => exact h

theorem isSome_eq_of_rel {α : Type} {R : α → α → Prop} {a b : Option α} (h : Option.Rel R a b) :
    b.isSome = a.isSome := by
  cases h <;> rfl

section Names

variable {scopes : List Place} {env : Nat}

/-- The outermost frame is no scope of a variable. -/
theorem LikeWorld.marked_root (like : LikeWorld r S w w') : S.marked Frames.root = false := by
  unfold Skeleton.marked
  rw [show S[Frames.root]? = _ from like.root]
  rfl

/-- Both runs find like values so many frames outward. -/
theorem LikeWorld.getAt? (like : LikeWorld r S w w') (around : Around r S scopes env) (d : Int)
    (n : String) :
    Option.Rel (Like r S) (w.frames.getAt? env d n)
      (w'.frames.getAt? env d (r.swap (scopes[d.toNat]? = some r.scope) n)) := by
  unfold Frames.getAt? Frames.ancestor?
  rw [stepsOut?_eq like.parents, stepsOut?_eq like.parents']
  cases out : S.out? env d.toNat with
  | none => exact .none
  | some g =>
    rw [← around.marks _ _ out]
    exact like.bound g n

/-- What a use stands for. -/
def value? (fs : Frames Value) (env : Nat) (ref : Reference) : Option Value :=
  match ref.hops with
  | some d => fs.getAt? env d ref.name.lexeme
  | none => fs.get? Frames.root ref.name.lexeme

/-- The frame that an assignment changes. -/
def target? (fs : Frames Value) (env : Nat) (ref : Reference) : Option Nat :=
  match ref.hops with
  | some d => fs.frameAt? env d ref.name.lexeme
  | none => fs.nearest? Frames.root ref.name.lexeme

variable {π : Place} {ref : Reference}

/-- A use stands for like values in both runs. -/
theorem LikeWorld.value? (like : LikeWorld r S w w') (around : Around r S (enclosing π) env)
    (leaves : r.Leaves π ref) :
    Option.Rel (Like r S) (Twin.value? w.frames env ref)
      (Twin.value? w'.frames env (r.used π ref)) := by
  obtain ⟨name, hops⟩ := ref
  unfold Twin.value? Renaming.used Renaming.token
  dsimp only
  rw [name_eq_swap_of_leaves leaves]
  cases hops with
  | some d => exact like.getAt? around d name.lexeme
  | none =>
    have bound := like.bound Frames.root name.lexeme
    rw [like.marked_root] at bound
    dsimp only
    rw [get?_root, get?_root]
    exact bound

/-- An assignment changes the same frame in both runs, under the name that the frame has for it. -/
theorem LikeWorld.target? (like : LikeWorld r S w w') (around : Around r S (enclosing π) env)
    (leaves : r.Leaves π ref) :
    Twin.target? w'.frames env (r.used π ref) = Twin.target? w.frames env ref ∧
      ∀ g, Twin.target? w.frames env ref = some g →
        (r.used π ref).name.lexeme = r.swap (S.marked g) ref.name.lexeme := by
  obtain ⟨name, hops⟩ := ref
  unfold Twin.target? Renaming.used Renaming.token
  dsimp only
  rw [name_eq_swap_of_leaves leaves]
  -- a distance leads to one frame in both worlds; a global name is looked up at the root, where
  -- nothing is renamed
  cases hops with
  | some d =>
    dsimp only
    unfold Frames.frameAt? Frames.ancestor?
    rw [stepsOut?_eq like.parents, stepsOut?_eq like.parents']
    cases out : S.out? env d.toNat with
    | none => exact ⟨rfl, nofun⟩
    | some g =>
      have mark : r.reaches π (some d) = S.marked g := (around.marks _ _ out).symm
      have bound := isSome_eq_of_rel (like.bound g name.lexeme)
      rw [mark, Option.filter_some, Option.filter_some, bound]
      refine ⟨rfl, fun g' found => ?_⟩
      split at found <;> cases found
      rfl
  | none =>
    have bound := isSome_eq_of_rel (like.bound Frames.root name.lexeme)
    rw [like.marked_root] at bound
    dsimp only
    rw [nearest?_root, nearest?_root, show r.reaches π none = false from rfl]
    cases own : w.frames.own? Frames.root name.lexeme with
    | none =>
      rw [own] at bound
      rw [Option.isSome_eq_false_iff.mp bound |> Option.isNone_iff_eq_none.mp]
      exact ⟨rfl, nofun⟩
    | some v =>
      rw [own] at bound
      obtain ⟨v', own'⟩ := Option.isSome_iff_exists.mp bound
      rw [own']
      refine ⟨rfl, fun g found => ?_⟩
      cases found
      rw [like.marked_root]

/-- A name that is not there is told under its name in each run. -/
theorem mirror_undefined {α : Type} {post : Skeleton → α → α → Prop} (like : LikeWorld r S w w')
    (π : Place) (ref : Reference) :
    Mirror r S w w' (Run.raise ref.name (.undefinedVariable ref.name.lexeme))
      (Run.raise (r.used π ref).name (.undefinedVariable (r.used π ref).name.lexeme)) post := by
  refine mirror_throw like (.raised rfl ?_)
  unfold FaultLike Renaming.used Renaming.token Renaming.name
  dsimp only
  split
  · next h => exact .inr ⟨by rw [h.2], rfl⟩
  · exact .inl rfl

/-- What is found is read. -/
theorem mirror_found (like : LikeWorld r S w w') (π : Place) (ref : Reference)
    {found found' : Option Value} : Option.Rel (Like r S) found found' →
    Mirror r S w w'
      (match found with
        | some v => pure v
        | none => Run.raise ref.name (.undefinedVariable ref.name.lexeme))
      (match found' with
        | some v => pure v
        | none => Run.raise (r.used π ref).name (.undefinedVariable (r.used π ref).name.lexeme))
      (Like r) := by
  intro h
  cases h with
  | some hv => exact mirror_pure like hv
  | none => exact mirror_undefined like π ref

/-- A name is read in both runs, or is there in neither. -/
theorem mirror_readRef (like : LikeWorld r S w w') (around : Around r S (enclosing π) env)
    (leaves : r.Leaves π ref) :
    Mirror r S w w' (Run.readRef env ref) (Run.readRef env (r.used π ref)) (Like r) := by
  exact mirror_get (mirror_found like π ref (like.value? around leaves))

/-- What is found is changed. -/
theorem mirror_settled (like : LikeWorld r S w w') (hv : Like r S v v') {π : Place}
    {ref : Reference} {target target' : Option Nat} : target = target' →
    (∀ e, target = some e →
      (r.used π ref).name.lexeme = r.swap (S.marked e) ref.name.lexeme) →
    Mirror r S w w'
      (match target with
        | some e => Run.define e ref.name.lexeme v
        | none => Run.raise ref.name (.undefinedVariable ref.name.lexeme))
      (match target' with
        | some e => Run.define e (r.used π ref).name.lexeme v'
        | none => Run.raise (r.used π ref).name (.undefinedVariable (r.used π ref).name.lexeme))
      fun _ _ _ => True := by
  rintro rfl name
  cases target with
  | some e => exact mirror_define like hv e (name e rfl)
  | none => exact mirror_undefined like π ref

/-- A name is assigned to in both runs, or is there in neither. -/
theorem mirror_assignRef (like : LikeWorld r S w w') (around : Around r S (enclosing π) env)
    (leaves : r.Leaves π ref) (hv : Like r S v v') :
    Mirror r S w w' (Run.assignRef env ref v) (Run.assignRef env (r.used π ref) v')
      fun _ _ _ => True := by
  obtain ⟨same, name⟩ := like.target? around leaves
  exact mirror_get (mirror_settled like hv same.symm name)

end Names

/-! ### Operators -/

section Operators

variable {a a' b b' : Value}

theorem Like.kind (h : Like r S v v') : v'.kind = v.kind := by cases h <;> rfl

/-- Like values decide a condition alike. -/
theorem Like.isTruthy (h : Like r S v v') : v'.isTruthy = v.isTruthy := by cases h <;> rfl

/-- Like values print the same. -/
theorem Like.text (h : Like r S v v') : v'.text = v.text := by
  cases h with
  | plain => rfl
  | function hf =>
    obtain ⟨π, ⟨rfl, -, -⟩, -⟩ := hf
    rfl
  | classObj hc => exact hc.name
  | object id hc =>
    unfold Value.text
    dsimp only
    rw [hc.name]

/-- Like values are equal to like values, or neither. -/
theorem Like.equals (ha : Like r S a a') (hb : Like r S b b') : a'.equals b' = a.equals b := by
  cases ha with
  | plain ha =>
    cases hb with
    | plain => rfl
    | _ => cases a <;> first | rfl | cases ha
  | function hf =>
    obtain ⟨π, ⟨rfl, -, -⟩, -⟩ := hf
    cases hb with
    | plain => cases b <;> rfl
    | function hg =>
      obtain ⟨π', ⟨rfl, -, -⟩, -⟩ := hg
      rfl
    | _ => rfl
  | classObj hc =>
    cases hb with
    | plain hb => cases b <;> first | rfl | cases hb
    | classObj hd => simp only [Value.equals, hc.id, hd.id]
    | _ => rfl
  | object id hc =>
    cases hb with
    | plain => cases b <;> rfl
    | _ => rfl

/-- A unary operator does the same on like values. -/
theorem mirror_applyUnary (like : LikeWorld r S w w') (op : Token) (hv : Like r S v v') :
    Mirror r S w w' (Run.applyUnary op v) (Run.applyUnary op v') (Like r) := by
  cases hv with
  | plain hv =>
    unfold Run.applyUnary
    split
    · exact mirror_pure like (.plain rfl)
    · split
      · exact mirror_pure like (.plain rfl)
      · exact mirror_raise like _ _
    · exact mirror_raise like _ _
  | _ =>
    unfold Run.applyUnary
    split
    · exact mirror_pure like (.plain rfl)
    · exact mirror_raise like _ _
    · exact mirror_raise like _ _

/-- A binary operator does the same on like values. -/
theorem mirror_applyBinary (like : LikeWorld r S w w') (op : Token) (ha : Like r S a a')
    (hb : Like r S b b') :
    Mirror r S w w' (Run.applyBinary op a b) (Run.applyBinary op a' b') (Like r) := by
  have others (h : a.isPlain = false ∨ b.isPlain = false)
      (h' : a'.isPlain = false ∨ b'.isPlain = false) :
      Mirror r S w w' (Run.applyBinary op a b) (Run.applyBinary op a' b') (Like r) := by
    rw [Run.applyBinary_of_not_plain h, Run.applyBinary_of_not_plain h', ha.equals hb, ha.kind,
      hb.kind]
    split
    · exact mirror_pure like (.plain rfl)
    · exact mirror_pure like (.plain rfl)
    · exact mirror_raise like _ _
    · exact mirror_raise like _ _
  cases ha with
  | plain =>
    cases hb with
    | plain =>
      unfold Run.applyBinary
      split
      · exact mirror_pure like (.plain rfl)
      · exact mirror_pure like (.plain rfl)
      · exact mirror_pure like (.plain rfl)
      · exact mirror_pure like (.plain rfl)
      · exact mirror_raise like _ _
      · split
        · next h => exact mirror_pure like (.plain (Run.isPlain_of_arithmetic? h))
        · exact mirror_raise like _ _
      · exact mirror_raise like _ _
    | _ => exact others (.inr rfl) (.inr rfl)
  | _ => exact others (.inl rfl) (.inl rfl)

end Operators

end Lox.Twin
