import Lox.Proofs.Run.Congruence
import Lox.Proofs.Session.Join

/-!
The count of calls is balanced and bounded. At every moment of a run it is the number of calls in
the program that are going on, it is never above the limit, and it bounds the number of functions
that are carried out. Every part of a run leaves the count as it was, however the part ends, and so
each program of a session starts with all of the limit.
-/

namespace Lox

/-! ### What is going on -/

def Activity.isCall : Activity → Bool
  | .call _ => true
  | .body _ => false

/-- How many calls are going on. -/
def calls (going : List Activity) : Nat := going.countP (·.isCall)

/-- How many bodies of functions are going on. -/
def bodies (going : List Activity) : Nat := going.countP (!·.isCall)

section Calls

variable {going : List Activity} {paren : Token} {f : Closure}

@[simp] theorem calls_call : calls (.call paren :: going) = calls going + 1 :=
  List.countP_cons_of_pos rfl

/-- A body is no call. -/
@[simp] theorem calls_body : calls (.body f :: going) = calls going :=
  List.countP_cons_of_neg (by simp [Activity.isCall])

/-- A call is no body yet. -/
@[simp] theorem bodies_call : bodies (.call paren :: going) = bodies going :=
  List.countP_cons_of_neg (by simp [Activity.isCall])

@[simp] theorem bodies_body : bodies (.body f :: going) = bodies going + 1 :=
  List.countP_cons_of_pos rfl

end Calls

/-- There is a call for each body. Where a call is the innermost, no body belongs to it yet, and the
function that is entered or left has one to itself. -/
structure Nested (going : List Activity) : Prop where
  le : bodies going ≤ calls going
  lt : ∀ paren outer, going = .call paren :: outer → bodies going < calls going

namespace Nested

variable {going : List Activity}

/-- Nothing is going on. -/
theorem nil : Nested [] := ⟨Nat.le_refl 0, fun _ _ h => by cases h⟩

/-- A call comes before the body that belongs to it. -/
theorem call (h : Nested going) (paren : Token) : Nested (.call paren :: going) := by
  have lt : bodies going < calls going + 1 := Nat.lt_succ_of_le h.le
  constructor
  · rw [bodies_call, calls_call]
    exact Nat.le_of_lt lt
  · intro _ _ _
    rwa [bodies_call, calls_call]

/-- A body is entered inside of its call. -/
theorem body {paren : Token} (h : Nested (.call paren :: going)) (f : Closure) :
    Nested (.body f :: .call paren :: going) := by
  constructor
  · rw [bodies_body, calls_body]
    exact h.lt paren going rfl
  · intro _ _ other
    cases other

end Nested

/-- The count of calls at a moment is right, and the limit is kept. -/
structure Moment.Counted (maxDepth : Nat) (moment : Moment) : Prop where
  depth : moment.world.depth = calls moment.going
  bounded : moment.world.depth ≤ maxDepth
  nested : Nested moment.going

/-- Where the count is right, one more call is refused just if there are as many as the limit. -/
theorem Moment.Counted.call {maxDepth : Nat} {moment : Moment} (h : moment.Counted maxDepth)
    (invoke : Callable → List Value → Run Value) (paren : Token) {callee : Value} {f : Callable}
    (callable : callee.callable? = some f) {args : List Value} (arity : args.length = f.arity) :
    Run.call maxDepth invoke paren callee args moment.world =
      if calls moment.going = maxDepth then .error (.raised paren .stackOverflow) moment.world
      else Run.placedAt paren (Run.deeper (invoke f args)) moment.world := by
  have bounded := h.bounded
  rw [h.depth] at bounded
  have guard : maxDepth ≤ moment.world.depth ↔ calls moment.going = maxDepth := by
    rw [h.depth]
    omega
  unfold Run.call
  rw [callable]
  simp only [arity, ne_eq, not_true, if_false]
  show (if maxDepth ≤ moment.world.depth then _ else _ : Run Value) moment.world = _
  by_cases full : calls moment.going = maxDepth
  · rw [if_pos (guard.mpr full), if_pos full]
    rfl
  · rw [if_neg (mt guard.mp full), if_neg full]

namespace Trace

variable {α β : Type} {maxDepth : Nat} {going : List Activity}

/-- Part of a run leaves the count as it was, and where the count was right it is right at every
moment on the way. -/
structure Counts (maxDepth : Nat) (going : List Activity) (act : Trace α) : Prop where
  depth : ∀ s, (final (act s)).world.depth = s.world.depth
  moments : Nested going → ∀ s, s.world.depth = calls going → s.world.depth ≤ maxDepth →
    (∀ moment ∈ s.moments, moment.Counted maxDepth) →
      ∀ moment ∈ (final (act s)).moments, moment.Counted maxDepth

/-- A part with one moment at most, at which the world is as deep as before. -/
theorem counts_of_moments {act : Trace α}
    (depth : ∀ s, (final (act s)).world.depth = s.world.depth)
    (moments : ∀ s, ∀ moment ∈ (final (act s)).moments,
      moment ∈ s.moments ∨ moment.going = going ∧ moment.world.depth = s.world.depth) :
    Counts maxDepth going act := by
  refine ⟨depth, fun nested s count bounded before moment mem => ?_⟩
  obtain mem | ⟨same, level⟩ := moments s moment mem
  · exact before moment mem
  · exact ⟨by rw [level, same, count], by rw [level]; exact bounded, by rw [same]; exact nested⟩

theorem counts_plain {act : Run α} (depth : ∀ w, (Run.final (act w)).depth = w.depth) :
    Counts maxDepth going (plain going act) := by
  apply counts_of_moments
  · intro s
    rw [world_final_plain, depth]
  · intro s moment mem
    have level := depth s.world
    unfold plain at mem
    cases run : act s.world <;>
    · rw [run] at mem level
      obtain rfl | mem := List.mem_cons.mp mem
      · exact .inr ⟨rfl, level⟩
      · exact .inl mem

/-- The count is as before after the first part, and so after the second. -/
theorem Counts.bind {act : Trace α} {next : α → Trace β} (h : Counts maxDepth going act)
    (hnext : ∀ a, Counts maxDepth going (next a)) : Counts maxDepth going (act >>= next) := by
  constructor
  · intro s
    have depth := h.depth s
    rw [Run.bind_apply]
    cases run : act s with
    | error stop t =>
      rw [run] at depth
      exact depth
    | ok a t =>
      rw [run] at depth
      exact ((hnext a).depth t).trans depth
  · intro nested s count bounded before
    have depth := h.depth s
    -- the second part starts as deep as the first, so the count goes on
    have moments := h.moments nested s count bounded before
    rw [Run.bind_apply]
    cases run : act s with
    | error stop t =>
      rw [run] at moments
      exact moments
    | ok a t =>
      rw [run] at depth moments
      have depth : t.world.depth = s.world.depth := depth
      exact (hnext a).moments nested t (depth.trans count) (by rw [depth]; exact bounded) moments

/-- To print is no call. -/
theorem counts_write (sink : Sink) (line : String) :
    Counts maxDepth going (write sink going line) := by
  refine Counts.bind (counts_of_moments (fun _ => rfl) fun s moment mem => .inl mem) fun _ => ?_
  refine counts_plain fun w => ?_
  unfold Run.write
  split <;> rfl

/-- A call that is not refused counts while it is going on, and no longer. -/
theorem counts_guarded (paren : Token) {act : Trace Value}
    (h : Counts maxDepth (.call paren :: going) act) :
    Counts maxDepth going (guarded maxDepth going paren act) := by
  constructor
  · intro s
    rw [guarded_apply]
    split
    · rfl
    · have inner := h.depth { s with world := { s.world with depth := s.world.depth + 1 } }
      rw [final_call]
      dsimp only at inner ⊢
      omega
  · intro nested s count bounded before
    rw [guarded_apply]
    split
    · exact List.forall_mem_cons.mpr ⟨⟨count, bounded, nested⟩, before⟩
    · next allowed =>
      rw [final_call]
      refine h.moments (nested.call paren) _ ?_ ?_ before
      · rw [calls_call, ← count]
      · exact Nat.lt_of_not_le allowed

/-- The count is as it was after a problem, so a native that goes on goes on from there. -/
theorem Counts.attempt {act : Trace α} (h : Counts maxDepth going act) :
    Counts maxDepth going (Run.attempt act) := by
  constructor
  · intro s
    rw [final_attempt]
    exact h.depth s
  · intro nested s count bounded before
    rw [final_attempt]
    exact h.moments nested s count bounded before

/-- To tell a native of a problem is no call. -/
theorem Counts.telling {act : Trace Value} (h : Counts maxDepth going act) (asked : Asked) :
    Counts maxDepth going (telling asked act) := by
  constructor
  · intro s
    obtain ⟨more, ends⟩ := final_telling asked act s
    rw [ends]
    exact h.depth s
  · intro nested s count bounded before
    obtain ⟨more, ends⟩ := final_telling asked act s
    rw [ends]
    exact h.moments nested s count bounded before

/-- All that runs are put together from leaves the count as it was. -/
theorem congruence_counts (m : Machine) :
    Congruence m m (fun _ _ => False) fun going _ act _ => Counts m.maxDepth going act where
  pure _ := ⟨fun _ => rfl, fun _ _ _ _ before => before⟩
  plain silent := counts_plain silent.depth
  give v := by
    refine counts_of_moments (fun _ => rfl) fun s moment mem => ?_
    obtain rfl | mem := List.mem_cons.mp mem
    · exact .inr ⟨rfl, rfl⟩
    · exact .inl mem
  bind := .bind
  told asked h next _ := (h.telling asked).attempt.bind next
  throw _ := ⟨fun _ => rfl, fun _ _ _ _ before => before⟩
  write := counts_write m.sink
  body f h := ⟨h.depth, fun nested => h.moments (nested.body f)⟩
  guarded paren h := counts_guarded paren h

end Trace

/-! ### Runs -/

/-- A run of a program counts its calls, from none on. -/
theorem Trace.counted_program (m : Machine) (p : Program) (w : World) :
    ∀ moment ∈ (final (program m p { world := w })).moments, moment.Counted m.maxDepth := by
  have first : ∀ moment ∈ (({ world := w } : Traced).reach [] { w with depth := 0 }).moments,
      moment.Counted m.maxDepth :=
    List.forall_mem_singleton.mpr ⟨rfl, Nat.zero_le _, .nil⟩
  have top := (congruence_counts m).execTop rfl (fun _ => Reply.passesOn_none ..) rfl p.body
  exact top.moments .nil _ rfl (Nat.zero_le _) first

/-- What a trace shows of the count holds without the trace. -/
theorem Run.depth_final_of_erases {α : Type} {traced : Trace α} {act : Run α}
    (erases : Trace.Erases traced act)
    (depth : ∀ s, (Trace.final (traced s)).world.depth = s.world.depth) (w : World) :
    (final (act w)).depth = w.depth := by
  have same := depth { world := w }
  rw [← erases.run { world := w }]
  cases run : traced { world := w } <;>
  · rw [run] at same
    exact same

/-- In every state of a session, a run of a program counts its calls. At every moment the count is
the number of calls that are going on, it is not above the limit, and it bounds the number of
functions that are carried out, the one that is just entered or left with them; one more call is
refused just if there are as many as the limit. Every expression and every statement leaves the
count as it was, however it ends. After a program, whether it failed or not, the count is zero, and
the next one starts from there. -/
theorem depth_balanced (s : Session) (p : Program) :
    let traced := Trace.program s.machine p { world := s.world }
    Trace.forget traced = Run.program s.machine p s.world ∧
    (∀ moment ∈ (Trace.final traced).moments,
      moment.world.depth = calls moment.going ∧ moment.world.depth ≤ s.machine.maxDepth ∧
      bodies moment.going ≤ moment.world.depth ∧
      (∀ paren outer, moment.going = .call paren :: outer →
        bodies moment.going + 1 ≤ moment.world.depth) ∧
      ∀ invoke paren callee f args, callee.callable? = some f → args.length = f.arity →
        Run.call s.machine.maxDepth invoke paren callee args moment.world =
          if calls moment.going = s.machine.maxDepth then
            .error (.raised paren .stackOverflow) moment.world
          else Run.placedAt paren (Run.deeper (invoke f args)) moment.world) ∧
    (∀ n env e w, (Run.final (Run.eval s.machine n env e w)).depth = w.depth) ∧
    (∀ n env statement w, (Run.final (Run.exec s.machine n env statement w)).depth = w.depth) ∧
    (s.execute p).1.world.depth = 0 ∧
    ∀ q, Run.program s.machine q (s.execute p).1.world =
      Run.execTop s.machine q.body (s.execute p).1.world := by
  intro traced
  have congruence := Trace.congruence_counts s.machine
  -- no condition on natives: whatever they catch, the depth is restored below them
  have passes (asked : Asked) := (asked.reply s.machine.natives).passesOn_none 0
  have related := congruence.related rfl passes
  have top := congruence.execTop rfl passes rfl p.body
  have ends : (s.execute p).1.world.depth = 0 := by
    rw [Session.execute_eq]
    exact Run.depth_final_of_erases (Trace.erases_execTop s.machine p.body) top.depth
      { s.world with depth := 0 }
  refine ⟨(Trace.erases_program s.machine p).run _, fun moment mem => ?_, fun n env e => ?_,
    fun n env statement => ?_, ends, fun q => ?_⟩
  · have counted := Trace.counted_program s.machine p s.world moment mem
    have nested := counted.nested
    refine ⟨counted.depth, counted.bounded, ?_, fun paren outer h => ?_,
      fun invoke paren _ _ _ callable arity => counted.call invoke paren callable arity⟩
    · rw [counted.depth]
      exact nested.le
    · rw [counted.depth]
      exact nested.lt paren outer h
  · exact Run.depth_final_of_erases ((Trace.erasesAll s.machine n).eval [] env e)
      ((related n).eval [] env e).depth
  · exact Run.depth_final_of_erases ((Trace.erasesAll s.machine n).exec [] env statement)
      ((related n).exec [] env statement).depth
  -- the next program starts at depth zero in any case, and finds it so
  · show Run.execTop s.machine q.body { (s.execute p).1.world with depth := 0 } = _
    rw [← ends]

/-- A function that calls itself, and a call of it: `fun f() { f(); } f();`. -/
def selfCalling : Program :=
  let name : Token := { kind := .identifier, lexeme := "f", line := 1 }
  let paren : Token := { kind := .rightParen, lexeme := ")", line := 1 }
  let call (hops : Option Int) : Stmt := .expr (.call (.variable { name, hops }) paren [])
  ⟨[.function ⟨name, [], [call none]⟩, call none]⟩

/-- A session in which two calls may go on at once. -/
def twoDeep : Session := { machine := { smallMachine with maxDepth := 2 } }

/-- Both calls and both bodies are counted at a moment inside, and there one more call is refused.
-/
theorem depth_balanced_selfCalling :
    ∃ moment ∈ (Trace.final (Trace.program twoDeep.machine selfCalling
        { world := twoDeep.world })).moments,
      (calls moment.going = 2 ∧ bodies moment.going = 2) ∧ moment.world.depth = 2 ∧
        ∀ invoke paren f, f.params = [] →
          Run.call 2 invoke paren (.function f) [] moment.world =
            .error (.raised paren .stackOverflow) moment.world := by
  have found : (Trace.final (Trace.program twoDeep.machine selfCalling
      { world := twoDeep.world })).moments.any (fun moment =>
        calls moment.going = 2 ∧ bodies moment.going = 2) = true := by
    decide +kernel
  obtain ⟨moment, mem, full⟩ := List.any_eq_true.mp found
  obtain ⟨two, inside⟩ := of_decide_eq_true full
  obtain ⟨-, counted, -⟩ := depth_balanced twoDeep selfCalling
  obtain ⟨depth, -, -, -, refused⟩ := counted moment mem
  refine ⟨moment, mem, ⟨two, inside⟩, depth.trans two, fun invoke paren f none => ?_⟩
  have call : Run.call 2 invoke paren (.function f) [] moment.world =
      if calls moment.going = 2 then .error (.raised paren .stackOverflow) moment.world
      else Run.placedAt paren (Run.deeper (invoke (.function f) [])) moment.world :=
    refused invoke paren (.function f) (.function f) [] rfl (by rw [Callable.arity, none]; rfl)
  rwa [if_pos two] at call

end Lox
