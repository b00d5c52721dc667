import Lox.Scope.Address

/-!
Classes on the way of a walk. What a walk does with the name of a class and with its superclass
clause takes no notice of the classes around, so that the class may as well be entered behind its
clause, when it is known what it is.
-/

namespace Lox.Scope

variable {α β : Type}

/-- The walk neither looks at the classes around it nor changes them. -/
def Classless (walk : Walker α) : Prop :=
  ∀ w classes, walk { w with classes } = ((walk w).1, { (walk w).2 with classes })

section Classless

variable {walk : Walker α}

/-- Such a walk keeps the enclosing classes. -/
theorem Classless.classes (h : Classless walk) (w : Walk) : (walk w).2.classes = w.classes :=
  congrArg (fun result => result.2.classes) (h w w.classes)

/-- What takes no notice of classes may as well come before a class is entered. -/
theorem Classless.withinClass_bind (h : Classless walk) (family : Family)
    (next : α → Walker β) : withinClass family (walk >>= next) =
      walk >>= fun a => withinClass family (next a) := by
  funext w
  have inside := h w (family :: w.classes)
  have kept := h.classes w
  show (let entered := walk { w with classes := family :: w.classes }
    let left := next entered.1 entered.2
    (left.1, { left.2 with classes := left.2.classes.tail })) = _
  rw [inside, ← kept]
  rfl

theorem classless_report (token : Token) (complaint : Complaint) :
    Classless (report token complaint) := fun _ _ => rfl

theorem classless_mark (name : String) (done : Bool) : Classless (markInnermost name done) := by
  intro w classes
  obtain ⟨scopes, bodies, _, errors⟩ := w
  cases scopes <;> rfl

theorem classless_pure (a : α) : Classless (pure a : Walker α) := fun _ _ => rfl

/-- Both parts leave the enclosing classes alone. -/
theorem Classless.bind {next : α → Walker β} (h : Classless walk)
    (later : ∀ a, Classless (next a)) : Classless (walk >>= next) := by
  intro w classes
  show next (walk { w with classes }).1 (walk { w with classes }).2 = _
  rw [h w classes, later]
  rfl

theorem classless_get {next : Walk → Walker α}
    (same : ∀ w classes, next { w with classes } = next w)
    (h : ∀ w, Classless (next w)) : Classless (do next (← get)) :=
  fun w classes => (congrFun (same w classes) _).trans (h w w classes)

theorem classless_declare (name : Token) : Classless (declare name) := by
  refine classless_get (fun _ _ => rfl) fun w => ?_
  split
  · exact (classless_report name .alreadyDeclared).bind fun _ => classless_mark name.lexeme false
  · exact (classless_pure PUnit.unit).bind fun _ => classless_mark name.lexeme false

theorem classless_define (name : Token) : Classless (define name) := classless_mark _ _

theorem classless_checkSuperclass (name : Token) (superclass : Reference) :
    Classless (checkSuperclass name superclass) := by
  unfold checkSuperclass
  split
  · exact classless_report _ _
  · exact classless_pure _

theorem classless_addressVariable (ref : Reference) : Classless (addressVariable ref) := by
  have check : Classless (checkRead ref.name) := by
    refine classless_get (fun _ _ => rfl) fun w => ?_
    split
    · exact classless_report _ _
    · exact classless_pure _
  exact check.bind fun _ => classless_get (fun _ _ => rfl) fun w => classless_pure _

end Classless

/-- Walking in one class and at once calling it another is walking in the other. -/
theorem withinClass_reclass (before after : Family) (walk : Walker α) :
    withinClass before (do reclass after; walk) = withinClass after walk := rfl

variable (name : Token) (superclass : Reference) (members : List Function)

theorem stmt_classDecl_none : stmt (.classDecl name none members) = (do
    declare name
    define name
    return .classDecl name none
      (← withinClass .base (within [("this", true)] (methods members)))) := by
  rw [stmt, (classless_declare name).withinClass_bind]
  congr 1
  funext _
  rw [(classless_define name).withinClass_bind]
  rfl

/-- A class with a superclass is walked with two scopes around its methods. -/
theorem stmt_classDecl_some : stmt (.classDecl name (some superclass) members) = (do
    declare name
    define name
    checkSuperclass name superclass
    let superclass ← addressVariable superclass
    return .classDecl name (some superclass)
      (← withinClass .derived
        (within [("super", true)] (within [("this", true)] (methods members))))) := by
  rw [stmt, (classless_declare name).withinClass_bind]
  congr 1
  funext _
  rw [(classless_define name).withinClass_bind]
  congr 1
  funext _
  rw [(classless_checkSuperclass name superclass).withinClass_bind]
  congr 1
  funext _
  rw [withinClass_reclass, (classless_addressVariable superclass).withinClass_bind]
  rfl

end Lox.Scope
