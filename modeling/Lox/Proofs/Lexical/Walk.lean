import Mathlib.Data.List.Forall2
import Lox.Proofs.Lexical.Report
import Lox.Proofs.Scope.Around

/-!
The walk over a program sees what is around each part. From this, part by part, it makes of the part
what has the right addresses, and reports what is wrong with it.
-/

namespace Lox.Scope

/-- The walk knows the names of a scope. -/
def Knows (names : List String) (known : Names) : Prop :=
  ∀ name, Bindings.binds name known = true ↔ name ∈ names

/-- The walk stands where the surroundings say. -/
structure Surroundings.Shows (a : Surroundings) (w : Walk) : Prop where
  scopes : List.Forall₂ Knows a.scopes w.scopes
  unfinished : ∀ name, Bindings.get? name (w.scopes.headD []) = some false ↔
    a.scopes ≠ [] ∧ a.initializer = some name
  bodies : w.bodies = a.bodies
  classes : w.classes = a.classes

/-- From surroundings `a` the walk goes on to `b`, and its result and what it reports satisfy `Q`.
It changes the innermost scope at most. -/
def Explores {α : Type} (a : Surroundings) (walk : Walker α) (b : Surroundings)
    (Q : α → List ScopeError → Prop) : Prop :=
  ∀ w, a.Shows w → ∃ scopes found, (walk w).2 = { w with scopes, errors := w.errors ++ found } ∧
    scopes.tail = w.scopes.tail ∧ b.Shows (walk w).2 ∧ Q (walk w).1 found

/-! ### Names that are known -/

/-- After a name is put there are that name and the others. -/
theorem binds_insert (name other : String) (done : Bool) (names : Names) :
    Bindings.binds other (Bindings.insert name done names) = true ↔
      other = name ∨ Bindings.binds other names = true := by
  rw [Bindings.binds, Bindings.get?_insert]
  split
  · next h => simp [h]
  · next h => simp [h, Bindings.binds]

/-- A scope knows the name that is put into it. -/
theorem Knows.insert {names more : List String} {known : Names} {name : String}
    (h : Knows names known) (same : ∀ other, other ∈ more ↔ other = name ∨ other ∈ names)
    (done : Bool) : Knows more (Bindings.insert name done known) := by
  intro other
  rw [binds_insert, h other, same]

theorem knows_nil : Knows [] [] := fun _ => by simp [Bindings.binds]

theorem knows_single (name : String) : Knows [name] [(name, true)] :=
  knows_nil.insert (by simp) true

namespace Surroundings.Shows

variable {a : Surroundings} {w : Walk}

/-- The innermost scope binds what was declared in it. -/
theorem binds_innermost (h : a.Shows w) (name : String) :
    Bindings.binds name (w.scopes.headD []) = true ↔
      ∃ names, a.scopes.head? = some names ∧ name ∈ names := by
  have same := h.scopes
  revert same
  generalize a.scopes = outside, w.scopes = scopes
  intro same
  cases same with
  | nil => simp [Bindings.binds]
  | cons first _ => simpa using first name

/-- The distance is the number of scopes before the first that has the name. -/
theorem hops?_eq_some_iff (h : a.Shows w) (name : String) (n : Nat) :
    hops? w.scopes name = some n ↔ a.IsAddress name n := by
  obtain ⟨same, known⟩ := List.forall₂_iff_get.mp h.scopes
  rw [hops?, List.findIdx?_eq_some_iff_getElem]
  constructor
  · rintro ⟨bound, here, before⟩
    have bound' : n < a.scopes.length := same ▸ bound
    refine ⟨⟨a.scopes[n], List.getElem?_eq_getElem bound', (known n bound' bound name).mp here⟩, ?_⟩
    intro i hi names hnames mem
    obtain ⟨boundᵢ, rfl⟩ := List.getElem?_eq_some_iff.mp hnames
    exact before i hi ((known i boundᵢ (same ▸ boundᵢ) name).mpr mem)
  · rintro ⟨⟨names, hnames, mem⟩, first⟩
    obtain ⟨bound, rfl⟩ := List.getElem?_eq_some_iff.mp hnames
    refine ⟨same ▸ bound, (known n bound (same ▸ bound) name).mpr mem, fun i hi here => ?_⟩
    have boundᵢ : i < a.scopes.length := Nat.lt_trans hi bound
    exact first i hi _ (List.getElem?_eq_getElem boundᵢ)
      ((known i boundᵢ (same ▸ boundᵢ) name).mp here)

/-- Outside of all scopes no name is without its value. -/
theorem unfinished_nil {name : String} {initializer : Option String} :
    Bindings.get? name (([] : List Names).headD []) = some false ↔
      ([] : List (List String)) ≠ [] ∧ initializer = some name := by
  simp

/-- A name is declared, and its value is worked out. -/
theorem initializing (h : a.Shows w) (quiet : a.initializer = none) (name : String) :
    (a.initializing name).Shows (markInnermost name false w).2 := by
  obtain ⟨scopes, own, classes, errors⟩ := w
  obtain ⟨outside, init, bodies, families⟩ := a
  obtain ⟨same, unfinished, hbodies, hclasses⟩ := h
  obtain rfl : init = none := quiet
  cases same with
  | nil => exact ⟨.nil, fun _ => unfinished_nil, hbodies, hclasses⟩
  | @cons names known _ _ first rest =>
    refine ⟨.cons (first.insert (by simp [or_comm]) false) rest, fun other => ?_, hbodies, hclasses⟩
    have old : Bindings.get? other known ≠ some false := fun h => by
      cases ((unfinished other).mp h).2
    show Bindings.get? other (Bindings.insert name false known) = some false ↔
      (names ++ [name]) :: _ ≠ [] ∧ some name = some other
    rw [Bindings.get?_insert]
    split
    · next same => simp [same]
    · next ne => simp [old, Ne.symm ne]

/-- The value of a name is there. -/
theorem declaring {name : String} (h : (a.initializing name).Shows w)
    (quiet : a.initializer = none) :
    (a.declaring [name]).Shows (markInnermost name true w).2 := by
  obtain ⟨scopes, own, classes, errors⟩ := w
  obtain ⟨outside, init, bodies, families⟩ := a
  obtain ⟨same, unfinished, hbodies, hclasses⟩ := h
  obtain rfl : init = none := quiet
  match outside, scopes, same with
  | [], [], .nil => exact ⟨.nil, fun _ => unfinished_nil, hbodies, hclasses⟩
  | names :: _, known :: _, .cons first rest =>
    refine ⟨.cons (first.insert (by simp) true) rest, fun other => ?_, hbodies, hclasses⟩
    have old : Bindings.get? other known = some false → name = other := fun h => by
      cases ((unfinished other).mp h).2
      rfl
    show Bindings.get? other (Bindings.insert name true known) = some false ↔
      (names ++ [name]) :: _ ≠ [] ∧ none = some other
    rw [Bindings.get?_insert]
    split
    · simp
    · next ne => simpa using fun h => ne (old h).symm

/-- A scope that is opened knows the names that it is opened with. -/
theorem opening (h : a.Shows w) {names : List String} {known : Names} (same : Knows names known)
    (finished : Finished known) :
    (a.opening names).Shows { w with scopes := known :: w.scopes } := by
  refine ⟨.cons same h.scopes, fun name => iff_of_false (finished name) ?_, h.bodies, h.classes⟩
  rintro ⟨-, none⟩
  cases none

end Surroundings.Shows

/-! ### Steps of the walk -/

section Explores

variable {α β : Type} {a b c : Surroundings} {walk : Walker α}
  {Q Q' : α → List ScopeError → Prop} {R : β → List ScopeError → Prop}

/-- What is known of the walk may be weakened. -/
theorem Explores.mono (h : Explores a walk b Q) (imp : ∀ x f, Q x f → Q' x f) :
    Explores a walk b Q' := by
  intro w shows
  obtain ⟨scopes, found, same, tail, shows', good⟩ := h w shows
  exact ⟨scopes, found, same, tail, shows', imp _ _ good⟩

theorem explores_pure {x : α} (h : Q x []) : Explores a (pure x) a Q := by
  intro w shows
  refine ⟨w.scopes, [], ?_, rfl, shows, h⟩
  rw [List.append_nil]
  rfl

/-- The errors of the second walk come behind those of the first. -/
theorem Explores.bind {next : α → Walker β} (h : Explores a walk b Q)
    (hnext : ∀ x f, Q x f → Explores b (next x) c fun y g => R y (f ++ g)) :
    Explores a (walk >>= next) c R := by
  intro w shows
  obtain ⟨scopes, found, same, tail, shows₁, good⟩ := h w shows
  obtain ⟨scopes', found', same', tail', shows₂, good'⟩ := hnext _ _ good _ shows₁
  refine ⟨scopes', found ++ found', ?_, ?_, shows₂, good'⟩
  · show (next (walk w).1 (walk w).2).2 = _
    rw [same', same, List.append_assoc]
  · rw [tail', same]
    exact tail

/-- A pure function of what is explored. -/
theorem Explores.map {g : α → β} (h : Explores a walk b Q) (imp : ∀ x f, Q x f → R (g x) f) :
    Explores a (do return g (← walk)) b R := by
  refine h.bind fun x f hx => explores_pure ?_
  rw [List.append_nil]
  exact imp x f hx

/-- What reads the state first goes on from that state. -/
theorem explores_get {next : Walk → Walker α} (h : ∀ w, a.Shows w → Explores a (next w) b Q) :
    Explores a (do next (← get)) b Q :=
  fun w shows => h w shows w shows

/-- One error is reported. -/
theorem explores_report (token : Token) (complaint : Complaint) :
    Explores a (report token complaint) a fun _ f => f = [⟨token, complaint⟩] := by
  intro w shows
  exact ⟨w.scopes, _, rfl, rfl, ⟨shows.scopes, shows.unfinished, shows.bodies, shows.classes⟩, rfl⟩

/-- A scope is gone after the walk through it. -/
theorem explores_within {names : List String} {known : Names} (same : Knows names known)
    (finished : Finished known) (h : Explores (a.opening names) walk b Q) :
    Explores a (within known walk) a Q := by
  intro w shows
  obtain ⟨scopes, found, result, tail, -, good⟩ := h _ (shows.opening same finished)
  have left : (within known walk w).2 = { w with errors := w.errors ++ found } := by
    show { (walk { w with scopes := known :: w.scopes }).2 with
      scopes := (walk { w with scopes := known :: w.scopes }).2.scopes.tail } = _
    rw [result]
    dsimp only
    rw [tail]
    rfl
  refine ⟨w.scopes, found, left, rfl, ?_, good⟩
  rw [left]
  exact ⟨shows.scopes, shows.unfinished, shows.bodies, shows.classes⟩

/-- A body is walked through inside the others. -/
theorem explores_withinBody {kind : Body}
    (h : Explores { a with bodies := kind :: a.bodies } walk
      { a with bodies := kind :: a.bodies } Q) :
    Explores a (withinBody kind walk) a Q := by
  intro w shows
  obtain ⟨scopes, found, result, tail, shows', good⟩ := h { w with bodies := kind :: w.bodies }
    ⟨shows.scopes, shows.unfinished, congrArg _ shows.bodies, shows.classes⟩
  have left : (withinBody kind walk w).2 = { w with scopes, errors := w.errors ++ found } := by
    show { (walk { w with bodies := kind :: w.bodies }).2 with
      bodies := (walk { w with bodies := kind :: w.bodies }).2.bodies.tail } = _
    rw [result]
    rfl
  rw [result] at shows'
  refine ⟨scopes, found, left, tail, ?_, good⟩
  rw [left]
  exact ⟨shows'.scopes, shows'.unfinished, shows.bodies, shows.classes⟩

/-- A class is walked through inside the others. -/
theorem explores_withinClass {family : Family}
    (h : Explores { a with classes := family :: a.classes } walk
      { a with classes := family :: a.classes } Q) :
    Explores a (withinClass family walk) a Q := by
  intro w shows
  obtain ⟨scopes, found, result, tail, shows', good⟩ := h { w with classes := family :: w.classes }
    ⟨shows.scopes, shows.unfinished, shows.bodies, congrArg _ shows.classes⟩
  have left : (withinClass family walk w).2 = { w with scopes, errors := w.errors ++ found } := by
    show { (walk { w with classes := family :: w.classes }).2 with
      classes := (walk { w with classes := family :: w.classes }).2.classes.tail } = _
    rw [result]
    rfl
  rw [result] at shows'
  refine ⟨scopes, found, left, tail, ?_, good⟩
  rw [left]
  exact ⟨shows'.scopes, shows'.unfinished, shows.bodies, shows.classes⟩

/-! ### Names -/

/-- A mark reports nothing. -/
theorem explores_mark {name : String} {done : Bool}
    (h : ∀ w, a.Shows w → b.Shows (markInnermost name done w).2) :
    Explores a (markInnermost name done) b fun _ f => f = [] := by
  intro w shows
  have left : ∃ scopes, (markInnermost name done w).2 = { w with scopes } ∧
      scopes.tail = w.scopes.tail := by
    obtain ⟨scopes, bodies, classes, errors⟩ := w
    cases scopes <;> exact ⟨_, rfl, rfl⟩
  obtain ⟨scopes, left, tail⟩ := left
  refine ⟨scopes, [], ?_, tail, h w shows, rfl⟩
  rw [left, List.append_nil]

/-- A name that was there before is reported when it is declared. -/
theorem explores_declare (quiet : a.initializer = none) (name : Token) :
    Explores a (declare name) (a.initializing name.lexeme) fun _ f =>
      Spot.Accounts ⟨.name name, a⟩ ⟨.name name, a⟩ f := by
  refine explores_get fun w shows => ?_
  have marked : Explores a (markInnermost name.lexeme false) (a.initializing name.lexeme)
      fun _ f => f = [] := explores_mark fun w shows => shows.initializing quiet name.lexeme
  -- the walk sees a name in the innermost scope exactly if it is declared there
  have known := shows.binds_innermost name.lexeme
  split
  · next bound =>
    obtain ⟨names, own, mem⟩ := known.mp bound
    refine (explores_report name .alreadyDeclared).bind ?_
    rintro _ _ rfl
    refine marked.mono ?_
    rintro _ _ rfl
    refine Spot.Owns.leaf (.one (.alreadyDeclared own mem) ?_) rfl rfl rfl
    rintro _ ⟨⟩
    rfl
  · next new =>
    refine marked.mono ?_
    rintro _ _ rfl
    refine Spot.Owns.leaf (.none fun e offends => ?_) rfl rfl rfl
    cases offends with
    | alreadyDeclared own mem => exact new (known.mpr ⟨_, own, mem⟩)

/-- To define a name reports nothing. -/
theorem explores_define (quiet : a.initializer = none) (name : Token) :
    Explores (a.initializing name.lexeme) (define name) (a.declaring [name.lexeme])
      fun _ f => f = [] :=
  explores_mark fun _ shows => shows.declaring quiet

/-- A name that is declared and defined at once, and what comes after. -/
theorem explores_declared (quiet : a.initializer = none) (name : Token) {next : Walker α}
    (h : ∀ f, Spot.Accounts ⟨.name name, a⟩ ⟨.name name, a⟩ f →
      Explores (a.declaring [name.lexeme]) next b fun x g => Q x (f ++ g)) :
    Explores a (do declare name; define name; next) b Q := by
  refine (explores_declare quiet name).bind fun _ f declared =>
    (explores_define quiet name).bind ?_
  rintro _ _ rfl
  exact h f declared

/-- Parameters are declared in turn, and each that was there before is reported. -/
theorem explores_bindParams (quiet : a.initializer = none) (params : List Token) :
    Explores a (bindParams params) (a.declaring (params.map (·.lexeme))) fun _ f =>
      Spot.AccountsAll (a.params params) (a.params params) f := by
  induction params generalizing a with
  | nil =>
    rw [List.map_nil, Surroundings.declaring_nil]
    exact explores_pure .nil
  | cons p rest ih =>
    have later := ih (a := a.declaring [p.lexeme]) quiet
    rw [Surroundings.declaring_declaring] at later
    refine explores_declared quiet p fun f declared => later.mono fun _ g bound => ?_
    rw [Surroundings.params_cons]
    exact .cons declared bound

/-! ### Uses -/

/-- The reference that comes out has the lexical address. -/
theorem explores_address {e : Expr} (admits : a.Admits e) (ref : Reference) :
    Explores a (address ref) a fun ref' f =>
      f = [] ∧ ref'.name = ref.name ∧ Spot.Recorded ⟨.expr e, a⟩ ref' := by
  refine explores_get fun w shows => explores_pure ⟨rfl, rfl, fun d => ?_⟩
  show (hops? w.scopes ref.name.lexeme).map Int.ofNat = some d ↔ _
  rw [Option.map_eq_some_iff]
  constructor
  · rintro ⟨n, found, rfl⟩
    exact ⟨admits, n, rfl, (shows.hops?_eq_some_iff _ n).mp found⟩
  · rintro ⟨-, n, rfl, found⟩
    exact ⟨n, (shows.hops?_eq_some_iff _ n).mpr found, rfl⟩

/-- A use that may have no address is reported, and comes out without one. -/
theorem explores_refusal {e : Expr} (refused : ¬ a.Admits e) (ref : Reference)
    (complaint : Complaint) :
    Explores a (do report ref.name complaint; return { ref with hops := none }) a fun ref' f =>
      f = [⟨ref.name, complaint⟩] ∧ ref'.name = ref.name ∧ Spot.Recorded ⟨.expr e, a⟩ ref' := by
  refine (explores_report ref.name complaint).bind ?_
  rintro _ _ rfl
  refine explores_pure ⟨rfl, rfl, fun d => iff_of_false ?_ fun h => refused h.1⟩
  rintro ⟨⟩

/-- A name that is read in its own initializer is reported. -/
theorem explores_checkRead (ref : Reference) :
    Explores a (checkRead ref.name) a fun _ f => Spot.Owns ⟨.expr (.variable ref), a⟩ f := by
  refine explores_get fun w shows => ?_
  have unfinished := shows.unfinished ref.name.lexeme
  split
  · next own =>
    obtain ⟨inside, initial⟩ := unfinished.mp own
    refine (explores_report ref.name .ownInitializer).mono ?_
    rintro _ _ rfl
    refine .one (.ownInitializer inside initial) ?_
    rintro _ ⟨⟩
    rfl
  · next other =>
    refine explores_pure (.none fun e offends => ?_)
    cases offends with
    | ownInitializer inside initial => exact other (unfinished.mpr ⟨inside, initial⟩)

/-- A use of a variable is addressed, and reported if it may not be there. -/
theorem explores_addressVariable (ref : Reference) :
    Explores a (addressVariable ref) a fun ref' f =>
      Spot.Accounts ⟨.expr (.variable ref), a⟩ ⟨.expr (.variable ref'), a⟩ f := by
  refine (explores_checkRead ref).bind fun _ f own =>
    (explores_address (e := .variable ref) trivial ref).mono ?_
  rintro ref' _ ⟨rfl, same, recorded⟩
  rw [List.append_nil]
  exact own.leaf rfl rfl ⟨ref', rfl, same, recorded⟩

/-- `this` is addressed, and reported outside of a class. -/
theorem explores_addressThis (ref : Reference) :
    Explores a (addressThis ref) a fun ref' f =>
      Spot.Accounts ⟨.expr (.this ref), a⟩ ⟨.expr (.this ref'), a⟩ f := by
  refine explores_get fun w shows => ?_
  have classes := shows.classes
  split
  · next outside =>
    have outside : a.classes = [] := classes.symm.trans outside
    refine (explores_refusal (e := .this ref) (fun h => h outside) ref _).mono ?_
    rintro ref' _ ⟨rfl, same, recorded⟩
    refine Spot.Owns.leaf (.one (.thisOutsideClass outside) ?_) rfl rfl ⟨ref', rfl, same, recorded⟩
    rintro _ ⟨⟩
    rfl
  · next inside =>
    have inside : a.classes ≠ [] := fun h => inside (classes.trans h)
    refine (explores_address (e := .this ref) inside ref).mono ?_
    rintro ref' _ ⟨rfl, same, recorded⟩
    refine Spot.Owns.leaf (.none fun e offends => ?_) rfl rfl ⟨ref', rfl, same, recorded⟩
    cases offends with
    | thisOutsideClass outside => exact inside outside

/-- `super` is addressed, and reported where there is no superclass. -/
theorem explores_addressSuper (ref : Reference) (method : Token) :
    Explores a (addressSuper ref) a fun ref' f =>
      Spot.Accounts ⟨.expr (.super ref method), a⟩ ⟨.expr (.super ref' method), a⟩ f := by
  refine explores_get fun w shows => ?_
  have classes := shows.classes
  split
  · next outside =>
    have outside : a.classes = [] := classes.symm.trans outside
    -- the reference is given no distance, as its surroundings do not admit it
    have refused : ¬ a.Admits (.super ref method) := by
      show a.classes.head? ≠ _
      rw [outside]
      nofun
    refine (explores_refusal refused ref _).mono ?_
    rintro ref' _ ⟨rfl, same, recorded⟩
    refine Spot.Owns.leaf (.one (.superOutsideClass outside) ?_) rfl rfl ⟨ref', rfl, same, recorded⟩
    intro e offends
    cases offends with
    | superOutsideClass => rfl
    | superWithoutSuperclass base =>
      rw [outside] at base
      cases base
  · next base =>
    have base : a.classes.head? = some .base := by rw [← classes, base]; rfl
    have refused : ¬ a.Admits (.super ref method) := by
      show a.classes.head? ≠ _
      rw [base]
      nofun
    refine (explores_refusal refused ref _).mono ?_
    rintro ref' _ ⟨rfl, same, recorded⟩
    refine Spot.Owns.leaf (.one (.superWithoutSuperclass base) ?_) rfl rfl
      ⟨ref', rfl, same, recorded⟩
    intro e offends
    cases offends with
    | superOutsideClass outside =>
      rw [outside] at base
      cases base
    | superWithoutSuperclass => rfl
  · next derived =>
    have derived : a.classes.head? = some .derived := by rw [← classes, derived]; rfl
    refine (explores_address (e := .super ref method) derived ref).mono ?_
    rintro ref' _ ⟨rfl, same, recorded⟩
    refine Spot.Owns.leaf (.none fun e offends => ?_) rfl rfl ⟨ref', rfl, same, recorded⟩
    cases offends with
    | superOutsideClass outside =>
      rw [outside] at derived
      cases derived
    | superWithoutSuperclass base =>
      rw [base] at derived
      cases derived

/-! ### Returns and superclass clauses -/

/-- A return is reported at the top level, and one with a value in an initializer. -/
theorem explores_checkReturn (keyword : Token) (value : Option Expr) :
    Explores a (checkReturn keyword value.isSome) a fun _ f =>
      Spot.Owns ⟨.stmt (.ret keyword value), a⟩ f := by
  refine explores_get fun w shows => ?_
  have bodies := shows.bodies
  split
  · next outside =>
    have outside : a.bodies = [] := bodies.symm.trans outside
    refine (explores_report keyword .topLevelReturn).mono ?_
    rintro _ _ rfl
    refine .one (.topLevelReturn outside) fun e offends => ?_
    cases offends with
    | topLevelReturn => rfl
    | initializerReturn initializer =>
      rw [outside] at initializer
      cases initializer
  · next initializer =>
    have initializer : a.bodies.head? = some .initializer := by rw [← bodies, initializer]; rfl
    -- an initializer may return, but not a value
    cases value with
    | none =>
      refine explores_pure (.none fun e offends => ?_)
      cases offends with
      | topLevelReturn outside =>
        rw [outside] at initializer
        cases initializer
    | some value =>
      refine (explores_report keyword .initializerReturn).mono ?_
      rintro _ _ rfl
      refine .one (.initializerReturn initializer) fun e offends => ?_
      cases offends with
      | topLevelReturn outside =>
        rw [outside] at initializer
        cases initializer
      | initializerReturn => rfl
  · next inside other =>
    refine explores_pure (.none fun e offends => ?_)
    cases offends with
    | topLevelReturn outside => exact inside (bodies.trans outside)
    | initializerReturn initializer =>
      rw [← bodies] at initializer
      obtain ⟨rest, hrest⟩ := List.head?_eq_some_iff.mp initializer
      exact other rest hrest

/-- A class that names itself as its superclass is reported. -/
theorem explores_checkSuperclass (name : Token) (superclass : Reference) :
    Explores a (checkSuperclass name superclass) a fun _ f => ∀ superclass',
      Spot.Accounts ⟨.clause name superclass, a⟩ ⟨.clause name superclass', a⟩ f := by
  unfold checkSuperclass
  split
  · next self =>
    refine (explores_report superclass.name .selfInheritance).mono ?_
    rintro _ _ rfl superclass'
    refine Spot.Owns.leaf (.one (.selfInheritance self) ?_) rfl rfl rfl
    rintro _ ⟨⟩
    rfl
  · next other =>
    refine explores_pure fun superclass' => Spot.Owns.leaf (.none fun e offends => ?_) rfl rfl rfl
    cases offends with
    | selfInheritance self => exact other self

end Explores

end Lox.Scope
