import Lox.Proofs.Grammar.Recovered
import Lox.Proofs.Lexical.Tree
import Lox.Proofs.Session.Basic

/-!
The distances that are recorded are the lexical addresses. In a program that is parsed from tokens
spelled as their kinds say, no declared name is a keyword, and so `this` and `super` have no address
outside of classes.
-/

namespace Lox

/-- What a statement declares are names. -/
theorem Stmt.Shaped.declares : {s : Stmt} → s.Shaped →
    ∀ name ∈ s.declares, Token.Kind.ofWord name = .identifier
  | .var _ none, h => List.forall_mem_singleton.mpr h
  | .var _ (some _), h => List.forall_mem_singleton.mpr h.1
  | .function _, h => List.forall_mem_singleton.mpr h.1
  | .classDecl .., h => List.forall_mem_singleton.mpr h.1
  | .cond _ yes none, h => h.2.1.declares
  | .cond _ yes (some no), h => by
    intro name mem
    rcases List.mem_append.mp mem with mem | mem
    · exact h.2.1.1.declares name mem
    · exact h.2.2.1.declares name mem
  | .loop _ body, h => h.2.1.declares
  | .expr _, _ | .print _, _ | .block _, _ | .ret .., _ | .gap, _ => List.forall_mem_nil _

/-- The parameters of a function are names, and its body is in shape. -/
theorem Function.Shaped.parts {f : Function} (h : f.Shaped) :
    (∀ t ∈ f.params, t.IsName) ∧ Stmt.AllShaped f.body := by
  cases f with
  | mk name params body => exact h

namespace Scope

/-- What the walk over a program records for the use at the end of a way. -/
def distance? (p : Program) (way : Way) : Option Int := do
  let x ← (resolve p).program.spot.at? way
  let ref ← x.use?
  ref.hops

/-- Outside of classes all names are told from keywords. -/
def Surroundings.Named (a : Surroundings) : Prop :=
  a.classes = [] → ∀ names ∈ a.scopes, ∀ name ∈ names, Token.Kind.ofWord name = .identifier

/-- The part has the shape of a parsed one. -/
def Part.Shaped : Part → Prop
  | .program p => Stmt.AllShaped p.body
  | .stmt s => s.Shaped
  | .expr e => e.Shaped
  | .method f => f.Shaped
  | .name _ | .clause .. => True

/-- A spot of a parsed program. -/
structure Spot.Parsed (x : Spot) : Prop where
  shaped : x.part.Shaped
  named : x.around.Named

namespace Surroundings

variable {a : Surroundings}

/-- Names that are declared are no keywords. -/
theorem Named.declaring (h : a.Named) {names : List String}
    (hnames : ∀ name ∈ names, Token.Kind.ofWord name = .identifier) :
    (a.declaring names).Named := by
  obtain ⟨scopes, initializer, bodies, classes⟩ := a
  cases scopes with
  | nil => exact h
  | cons own outer =>
    intro outside
    obtain ⟨first, rest⟩ := List.forall_mem_cons.mp (h outside)
    refine List.forall_mem_cons.mpr ⟨fun name mem => ?_, rest⟩
    rcases List.mem_append.mp mem with mem | mem
    · exact first name mem
    · exact hnames name mem

theorem Named.declaring_name (h : a.Named) {t : Token} (name : t.IsName) :
    (a.declaring [t.lexeme]).Named :=
  h.declaring (List.forall_mem_singleton.mpr name)

theorem Named.opening (h : a.Named) : (a.opening []).Named :=
  fun outside => List.forall_mem_cons.mpr ⟨List.forall_mem_nil _, h outside⟩

/-- A class declares nothing in the scopes of its methods but what every class does. -/
theorem named_inClass (family : Family) : (a.inClass family).Named := by
  cases family <;> exact nofun

/-- What is to be found in expressions is in shape. -/
theorem parsed_exprs (h : a.Named) {es : List Expr} (shaped : ∀ e ∈ es, e.Shaped) :
    ∀ x ∈ a.exprs es, x.Parsed := by
  intro x mem
  obtain ⟨e, he, rfl⟩ := List.mem_map.mp mem
  exact ⟨shaped e he, h⟩

/-- Parameters are found under their names. -/
theorem parsed_params (h : a.Named) {params : List Token} (names : ∀ t ∈ params, t.IsName) :
    ∀ x ∈ a.params params, x.Parsed := by
  induction params generalizing a with
  | nil => exact List.forall_mem_nil _
  | cons p rest ih =>
    obtain ⟨first, others⟩ := List.forall_mem_cons.mp names
    rw [params_cons]
    exact List.forall_mem_cons.mpr ⟨⟨trivial, h⟩, ih (h.declaring_name first) others⟩

/-- What is to be found in statements is in shape. -/
theorem parsed_stmts (h : a.Named) {body : List Stmt} (shaped : Stmt.AllShaped body) :
    ∀ x ∈ a.stmts body, x.Parsed := by
  induction body generalizing a with
  | nil => exact List.forall_mem_nil _
  | cons s rest ih =>
    rw [stmts_cons]
    exact List.forall_mem_cons.mpr ⟨⟨shaped.1, h⟩, ih (h.declaring shaped.1.declares) shaped.2⟩

/-- What is to be found in a function is in shape. -/
theorem parsed_function (h : a.Named) (kind : Body) {params : List Token} {body : List Stmt}
    (shaped : (∀ t ∈ params, t.IsName) ∧ Stmt.AllShaped body) :
    ∀ x ∈ a.function kind params body, x.Parsed := by
  have inside : (a.inBody kind).Named := h.opening
  have bound : ((a.inBody kind).declaring (params.map (·.lexeme))).Named := by
    refine inside.declaring fun name mem => ?_
    obtain ⟨t, ht, rfl⟩ := List.mem_map.mp mem
    exact shaped.1 t ht
  exact List.forall_mem_append.mpr ⟨parsed_params inside shaped.1, parsed_stmts bound shaped.2⟩

/-- What is to be found in the methods of a class is in shape. -/
theorem parsed_methods (family : Family) {fs : List Function} (shaped : Function.AllShaped fs) :
    ∀ x ∈ a.methods family fs, x.Parsed := by
  intro x mem
  obtain ⟨f, hf, rfl⟩ := List.mem_map.mp mem
  exact ⟨Function.allShaped_iff.mp shaped f hf, named_inClass family⟩

/-- What is right inside an expression is in shape. -/
theorem parsed_insideExpr (h : a.Named) {e : Expr} (shaped : e.Shaped) :
    ∀ x ∈ a.insideExpr e, x.Parsed := by
  match e, shaped with
  | .number _, _ | .string _, _ | .bool _, _ | .nil, _ | .variable _, _ | .this _, _
  | .super .., _ => exact List.forall_mem_nil _
  | .assign _ value, shaped | .unary _ value, shaped =>
    exact parsed_exprs h (List.forall_mem_singleton.mpr shaped.2)
  | .binary _ left right, shaped =>
    exact parsed_exprs h
      (List.forall_mem_cons.mpr ⟨shaped.2.1, List.forall_mem_singleton.mpr shaped.2.2⟩)
  | .logical _ left right, shaped | .set left _ right, shaped =>
    exact parsed_exprs h
      (List.forall_mem_cons.mpr ⟨shaped.1, List.forall_mem_singleton.mpr shaped.2⟩)
  | .group inner, shaped | .get inner _, shaped =>
    exact parsed_exprs h (List.forall_mem_singleton.mpr shaped)
  | .call callee _ args, shaped =>
    exact parsed_exprs h (List.forall_mem_cons.mpr ⟨shaped.1, Expr.allShaped_iff.mp shaped.2⟩)
  | .lambda _ params body, shaped => exact parsed_function h .function shaped

/-- What is right inside a statement is in shape. -/
theorem parsed_insideStmt (h : a.Named) {s : Stmt} (shaped : s.Shaped) :
    ∀ x ∈ a.insideStmt s, x.Parsed := by
  have expr {e : Expr} (he : e.Shaped) : Spot.Parsed ⟨.expr e, a⟩ := ⟨he, h⟩
  have stmt {s : Stmt} (hs : s.Shaped) : Spot.Parsed ⟨.stmt s, a⟩ := ⟨hs, h⟩
  have name {t : Token} : Spot.Parsed ⟨.name t, a⟩ := ⟨trivial, h⟩
  -- what is inside a statement has its surroundings, with what the statement declares before it
  match s, shaped with
  | .expr e, shaped | .print e, shaped | .ret _ (some e), shaped =>
    exact parsed_exprs h (List.forall_mem_singleton.mpr shaped)
  | .ret _ none, _ => exact List.forall_mem_nil _
  | .var _ none, _ => exact List.forall_mem_singleton.mpr name
  | .var t (some init), shaped =>
    exact List.forall_mem_cons.mpr ⟨name,
      List.forall_mem_singleton.mpr ⟨shaped.2, h.declaring_name shaped.1⟩⟩
  | .block body, shaped => exact parsed_stmts h.opening shaped
  | .cond test yes none, shaped =>
    exact List.forall_mem_cons.mpr ⟨expr shaped.1, List.forall_mem_singleton.mpr (stmt shaped.2.1)⟩
  | .cond test yes (some no), shaped =>
    exact List.forall_mem_cons.mpr ⟨expr shaped.1, List.forall_mem_cons.mpr ⟨stmt shaped.2.1.1,
      List.forall_mem_singleton.mpr ⟨shaped.2.2.1, h.declaring shaped.2.1.1.declares⟩⟩⟩
  | .loop test body, shaped =>
    exact List.forall_mem_cons.mpr ⟨expr shaped.1, List.forall_mem_singleton.mpr (stmt shaped.2.1)⟩
  | .function decl, shaped =>
    exact List.forall_mem_cons.mpr ⟨name,
      parsed_function (h.declaring_name shaped.1) .function shaped.2.parts⟩
  | .classDecl t none members, shaped =>
    exact List.forall_mem_cons.mpr ⟨name, parsed_methods .base shaped.2.2⟩
  | .classDecl t (some superclass) members, shaped =>
    have inside := h.declaring_name shaped.1
    exact List.forall_mem_cons.mpr ⟨name, List.forall_mem_cons.mpr ⟨⟨trivial, inside⟩,
      List.forall_mem_cons.mpr ⟨⟨shaped.2.1 superclass rfl, inside⟩,
        parsed_methods .derived shaped.2.2⟩⟩⟩

/-- A keyword has no address outside of classes. -/
theorem Named.not_isAddress (h : a.Named) (outside : a.classes = []) {name : String}
    (keyword : Token.Kind.ofWord name ≠ .identifier) (n : Nat) : ¬ a.IsAddress name n := by
  rintro ⟨⟨names, here, mem⟩, -⟩
  exact keyword (h outside names (List.mem_of_getElem? here) name mem)

end Surroundings

namespace Spot

variable {x y : Spot}

/-- What is right inside of something in shape is in shape. -/
theorem Parsed.inside (h : x.Parsed) : ∀ y ∈ x.inside, y.Parsed := by
  obtain ⟨part, a⟩ := x
  obtain ⟨shaped, named⟩ := h
  cases part with
  | program p => exact a.parsed_stmts named shaped
  | stmt s => exact a.parsed_insideStmt named shaped
  | expr e => exact a.parsed_insideExpr named shaped
  | method f => exact a.parsed_function named _ (Function.Shaped.parts shaped)
  | name t | clause t superclass => exact List.forall_mem_nil _

/-- What is anywhere inside of something in shape is in shape. -/
theorem Parsed.at? (h : x.Parsed) {way : Way} (here : x.at? way = some y) : y.Parsed := by
  induction way generalizing x with
  | nil =>
    cases here
    exact h
  | cons i way ih =>
    rw [at?_cons, Option.bind_eq_some_iff] at here
    obtain ⟨z, there, here⟩ := here
    exact ih (h.inside z (List.mem_of_getElem? there)) here

end Spot

/-! ### Distances -/

/-- A distance is recorded exactly where there is a use of a name that may have an address. -/
theorem distance?_eq_some_iff {p : Program} {way : Way} {x : Spot} {ref : Reference}
    (here : p.spot.at? way = some x) (use : x.use? = some ref) (d : Int) :
    distance? p way = some d ↔
      x.Admitted ∧ ∃ n : Nat, d = n ∧ x.around.IsAddress ref.name.lexeme n := by
  have mirrors := (accounts_resolve p).mirrors way
  rw [here] at mirrors
  obtain ⟨y, there, label⟩ : ∃ y, (resolve p).program.spot.at? way = some y ∧ x.Labelled y := by
    revert mirrors
    generalize (resolve p).program.spot.at? way = o
    rintro ⟨label⟩
    exact ⟨_, rfl, label⟩
  unfold Spot.Labelled at label
  rw [use] at label
  obtain ⟨ref', use', same, recorded⟩ := label
  have value : distance? p way = ref'.hops := by
    simp [distance?, there, use']
  rw [value, recorded d, same]

/-- What is recorded is recorded for the use of a name. -/
theorem exists_use_of_distance? {p : Program} {way : Way} {d : Int}
    (recorded : distance? p way = some d) :
    ∃ e a ref, p.spot.at? way = some ⟨.expr e, a⟩ ∧ e.use? = some ref := by
  have mirrors := (accounts_resolve p).mirrors way
  obtain ⟨y, there, h⟩ := Option.bind_eq_some_iff.mp recorded
  obtain ⟨ref', use', -⟩ := Option.bind_eq_some_iff.mp h
  rw [there] at mirrors
  -- the way leads to the same part of the program before and after resolving
  revert mirrors
  generalize p.spot.at? way = o
  rintro ⟨label⟩
  rename_i x
  obtain ⟨part, a⟩ := x
  unfold Spot.Labelled at label
  cases part with
  | expr e =>
    cases use : e.use? with
    | some ref => exact ⟨e, a, ref, rfl, use⟩
    | none =>
      have unused : Spot.use? ⟨.expr e, a⟩ = none := use
      rw [unused] at label
      rw [label] at use'
      cases use'
  | program | stmt | method | name | clause =>
    rw [show y.use? = none from label] at use'
    cases use'

/-- `super`, and the innermost class has no superclass clause. -/
def Surroundings.Bars (a : Surroundings) : Expr → Prop
  | .super .. => a.classes.head? = some .base
  | _ => False

/-- In a parsed program the uses that may have an address, and have one, are those that have one and
are not barred. -/
theorem Spot.Parsed.admits_iff {e : Expr} {a : Surroundings} (h : Spot.Parsed ⟨.expr e, a⟩)
    {ref : Reference} (use : e.use? = some ref) {n : Nat}
    (address : a.IsAddress ref.name.lexeme n) :
    a.Admits e ↔ ¬ a.Bars e := by
  -- a keyword is bound by classes only
  have inside {word : String} (spelled : ref.name.lexeme = word)
      (keyword : Token.Kind.ofWord word ≠ .identifier) : a.classes ≠ [] := fun outside =>
    h.named.not_isAddress outside (spelled ▸ keyword) n address
  have shaped : e.Shaped := h.shaped
  -- from here on the expression decides
  clear h
  revert shaped use
  match e with
  | .variable _ | .assign .. => exact fun _ _ => iff_of_true trivial id
  | .this _ =>
    rintro ⟨⟩ shaped
    exact iff_of_true (inside shaped (by decide)) id
  | .super _ _ =>
    rintro ⟨⟩ shaped
    have inside := inside shaped (by decide)
    show a.classes.head? = some .derived ↔ ¬ a.classes.head? = some .base
    cases classes : a.classes with
    | nil => exact absurd classes inside
    | cons family _ => cases family <;> simp
  | .number _ | .string _ | .bool _ | .nil | .unary .. | .binary .. | .logical .. | .group _
  | .call .. | .get .. | .set .. | .lambda .. | .gap =>
    intro use
    cases use

end Scope

/-- The tokens of a text are spelled as their kinds are. -/
theorem spelled_of_mem_scan {text : String} {t : Token} (h : t ∈ (Source.scan text).tokens) :
    t.Spelled := by
  have tokens : (Source.scan text).tokens = Source.tokensFrom 1 (Source.cut text.toList) := rfl
  rw [tokens, Source.tokensFrom_eq, List.mem_append, List.mem_singleton] at h
  rcases h with h | rfl
  · exact spelled_of_mem_tokensAt h
  · exact ⟨nofun, nofun, nofun⟩

namespace Scope

open Grammar

/-- In every program that is parsed, with errors or without, a distance is recorded exactly where a
name is used that has that lexical address and may have one. Where the tokens are spelled as their
kinds say, as the tokens of every text are, every use may have one but a `super` whose innermost
class has no superclass clause. -/
theorem distances_lexical (tokens : List Token) :
    (∀ way d, distance? (parse tokens).program way = some d ↔ ∃ e a ref, ∃ n : Nat,
      (parse tokens).program.spot.at? way = some ⟨.expr e, a⟩ ∧ e.use? = some ref ∧
        a.Admits e ∧ d = n ∧ a.IsAddress ref.name.lexeme n) ∧
    ((∀ t ∈ tokens, t.Spelled) → ∀ way e a ref,
      (parse tokens).program.spot.at? way = some ⟨.expr e, a⟩ → e.use? = some ref →
        ∀ d, distance? (parse tokens).program way = some d ↔
          ¬ a.Bars e ∧ ∃ n : Nat, d = n ∧ a.IsAddress ref.name.lexeme n) ∧
    ∀ text, ∀ t ∈ (Source.scan text).tokens, t.Spelled := by
  refine ⟨fun way d => ?_, fun spelled way e a ref here use d => ?_, fun _ _ => spelled_of_mem_scan⟩
  · constructor
    · intro recorded
      obtain ⟨e, a, ref, here, use⟩ := exists_use_of_distance? recorded
      obtain ⟨admits, n, rfl, address⟩ := (distance?_eq_some_iff here use d).mp recorded
      exact ⟨e, a, ref, n, here, use, admits, rfl, address⟩
    · rintro ⟨e, a, ref, n, here, use, admits, rfl, address⟩
      exact (distance?_eq_some_iff here use n).mpr ⟨admits, n, rfl, address⟩
  -- tokens that are spelled as they are read make a shaped program
  · have parsed : Spot.Parsed (parse tokens).program.spot :=
      ⟨allShaped_parse spelled, fun _ => List.forall_mem_nil _⟩
    have parsed := parsed.at? here
    rw [distance?_eq_some_iff here use]
    constructor
    · rintro ⟨admits, n, rfl, address⟩
      exact ⟨(parsed.admits_iff use address).mp admits, n, rfl, address⟩
    · rintro ⟨allowed, n, rfl, address⟩
      exact ⟨(parsed.admits_iff use address).mpr allowed, n, rfl, address⟩

instance (t : Token) : Decidable t.Spelled :=
  decidable_of_iff ((t.kind = .identifier → Token.Kind.ofWord t.lexeme = .identifier) ∧
      (t.kind = .thisKw → t.lexeme = "this") ∧ (t.kind = .superKw → t.lexeme = "super"))
    ⟨fun ⟨name, this, super⟩ => ⟨name, this, super⟩, fun h => ⟨h.name, h.this, h.super⟩⟩

/-- A class `D` with superclass `B` and a method `m` that uses the `m` of `B`. -/
def callsAbove : List Token :=
  [⟨.classKw, "class", .none, 1⟩, ⟨.identifier, "D", .none, 1⟩, ⟨.less, "<", .none, 1⟩,
    ⟨.identifier, "B", .none, 1⟩, ⟨.leftBrace, "\x7b", .none, 1⟩, ⟨.identifier, "m", .none, 1⟩,
    ⟨.leftParen, "(", .none, 1⟩, ⟨.rightParen, ")", .none, 1⟩, ⟨.leftBrace, "\x7b", .none, 1⟩,
    ⟨.superKw, "super", .none, 2⟩, ⟨.dot, ".", .none, 2⟩, ⟨.identifier, "m", .none, 2⟩,
    ⟨.semicolon, ";", .none, 2⟩, ⟨.rightBrace, "\x7d", .none, 3⟩,
    ⟨.rightBrace, "\x7d", .none, 3⟩]

/-- From `super` it is two scopes outward: past that of the body and that of `this`. -/
theorem distances_lexical_callsAbove :
    distance? (parse callsAbove).program [0, 3, 0, 0] = some 2 := by
  obtain ⟨-, exact, -⟩ := distances_lexical callsAbove
  have here : (parse callsAbove).program.spot.at? [0, 3, 0, 0] =
      some ⟨.expr (.super { name := ⟨.superKw, "super", .none, 2⟩ } ⟨.identifier, "m", .none, 2⟩),
        { scopes := [[], ["this"], ["super"]], bodies := [.method], classes := [.derived] }⟩ := rfl
  refine (exact (by decide) _ _ _ _ here rfl 2).mpr ⟨nofun, 2, rfl, ⟨_, rfl, by simp⟩, ?_⟩
  decide

end Scope

end Lox
