import Lox.Proofs.Run.Congruence

/-!
Runs whose output fails. A sink that takes only so many lines lets a run go on as on a sink that
takes all of them, up to the first line that it does not take, and nothing is printed from there on.
Unless a native that is told of it goes on, the run stops there, and the innermost call that is
going on gives the fault its place.
-/

namespace Lox

/-- How a fault without a place stops a run outside of the calls that are going on. -/
def Stop.located (going : List Activity) (fault : Fault) : Stop :=
  match innermostCall? going with
  | some paren => .raised paren fault
  | none => .unplaced fault

/-- Only calls locate a fault, and no body does. -/
theorem Stop.located_body (inner : List Activity) (f : Closure) (fault : Fault) :
    located (inner ++ [.body f]) fault = located inner fault := by
  have same : innermostCall? (inner ++ [.body f]) = innermostCall? inner := by
    unfold innermostCall?
    rw [List.findSome?_append]
    exact Option.or_none
  rw [located, located, same]

/-- A call places what no call inside it has placed. -/
theorem Stop.located_call (inner : List Activity) (paren : Token) (fault : Fault) :
    Run.Stop.placed paren (located inner fault) = located (inner ++ [.call paren]) fault := by
  have outer : innermostCall? (inner ++ [.call paren]) = (innermostCall? inner).or (some paren) :=
    List.findSome?_append
  rw [located, located, outer]
  cases innermostCall? inner <;> rfl

/-- The problem of which a stop tells that calls have located. -/
theorem Stop.located_eq (going : List Activity) (fault : Fault) :
    located going fault = (Problem.mk (innermostCall? going) fault).stop := by
  unfold located Problem.stop
  cases innermostCall? going <;> rfl

/-- The problem is that the output failed for the reason. -/
def Mishap.OfOutput (reason : String) (mishap : Mishap) : Prop := mishap.fault = .output reason

namespace Trace

variable {α β : Type} {natives : Natives} {capacity : Nat} {reason : String}
  {going : List Activity}

/-- The run tries to print some more lines, and all of them are printed. -/
structure Prints (s t : Traced) (new : List Attempt) : Prop where
  attempts : t.attempts = s.attempts ++ new
  printed : t.world.printed.toList = s.world.printed.toList ++ new.map (·.line)

/-- Nothing is tried and nothing is printed. -/
theorem Prints.none {s t : Traced} (attempts : t.attempts = s.attempts)
    (printed : t.world.printed = s.world.printed) : Prints s t [] :=
  ⟨by rw [attempts, List.append_nil], by rw [printed, List.map_nil, List.append_nil]⟩

/-- Lines that are printed one after the other. -/
theorem Prints.trans {s t u : Traced} {new more : List Attempt} (h : Prints s t new)
    (h' : Prints t u more) : Prints s u (new ++ more) :=
  ⟨by rw [h'.attempts, h.attempts, List.append_assoc],
    by rw [h'.printed, h.printed, List.map_append, List.append_assoc]⟩

/-- If nothing was tried, nothing is printed. -/
theorem Prints.same {s t : Traced} (h : Prints s t []) : t.world.printed = s.world.printed := by
  have printed := h.printed
  rw [List.map_nil, List.append_nil] at printed
  exact Array.toList_inj.mp printed

/-- The part of a run prints all the lines that it tries to print. -/
def AllPrinted (act : Trace α) : Prop := ∀ s, ∃ new, Prints s (final (act s)) new

section AllPrinted

variable {act : Trace α}

theorem AllPrinted.bind {next : α → Trace β} (h : AllPrinted act)
    (hnext : ∀ a, AllPrinted (next a)) : AllPrinted (act >>= next) := by
  intro s
  obtain ⟨new, first⟩ := h s
  rw [Run.bind_apply]
  cases done : act s with
  | error stop t =>
    rw [done] at first
    exact ⟨new, first⟩
  | ok a t =>
    rw [done] at first
    obtain ⟨more, second⟩ := hnext a t
    exact ⟨new ++ more, first.trans second⟩

/-- A part that meets a problem has printed what it tried until then. -/
theorem AllPrinted.attempt (h : AllPrinted act) : AllPrinted (Run.attempt act) := by
  intro s
  rw [final_attempt]
  exact h s

theorem AllPrinted.attempts (h : AllPrinted act) (s : Traced) :
    s.attempts <+: (final (act s)).attempts := by
  obtain ⟨new, prints⟩ := h s
  exact ⟨new, prints.attempts.symm⟩

/-- What is printed is added to what was printed before. -/
theorem AllPrinted.prolongs (h : AllPrinted act) : Prolongs act := by
  intro s
  obtain ⟨new, prints⟩ := h s
  exact ⟨_, prints.printed.symm⟩

/-- What a native is told of is no line. -/
theorem AllPrinted.telling {act : Trace Value} (h : AllPrinted act) (asked : Asked) :
    AllPrinted (telling asked act) := by
  intro s
  obtain ⟨new, prints⟩ := h s
  obtain ⟨more, ends⟩ := final_telling asked act s
  rw [ends]
  exact ⟨new, prints.attempts, prints.printed⟩

/-- A call prints what is printed inside. -/
theorem attempts_call (paren : Token) (act : Trace Value) (s : Traced) :
    (final (placedAt paren (deeper act) s)).attempts =
        (final (act { s with world := { s.world with depth := s.world.depth + 1 } })).attempts ∧
      (final (placedAt paren (deeper act) s)).world.printed =
        (final (act { s with world := { s.world with depth := s.world.depth + 1 } })).world.printed
    := by
  rw [final_call]
  exact ⟨rfl, rfl⟩

/-- A call prints what its body prints. -/
theorem AllPrinted.call {act : Trace Value} (h : AllPrinted act) (paren : Token) :
    AllPrinted (placedAt paren (deeper act)) := by
  intro s
  obtain ⟨attempts, printed⟩ := attempts_call paren act s
  obtain ⟨new, inside⟩ := h { s with world := { s.world with depth := s.world.depth + 1 } }
  exact ⟨new, attempts.trans inside.attempts, by rw [printed]; exact inside.printed⟩

/-- A call that is refused prints nothing. -/
theorem AllPrinted.guarded {act : Trace Value} (h : AllPrinted act) (limit : Nat) (paren : Token) :
    AllPrinted (guarded limit going paren act) := by
  intro s
  rw [guarded_apply]
  split
  · exact ⟨[], .none rfl rfl⟩
  · exact h.call paren s

end AllPrinted

/-! ### What is printed where the output fails -/

/-- In the second state there is no room for a further line, and the first one has printed more. -/
structure Filled (capacity : Nat) (t t' : Traced) : Prop where
  full : t'.world.printed.size = capacity
  more : capacity < t.world.printed.size
  shared : t'.world.printed.toList <+: t.world.printed.toList

/-- Once there is no room, the run without a limit may go on printing and the other may not. -/
theorem Filled.mono {t t' u u' : Traced} (h : Filled capacity t t')
    (prolongs : t.world.printed.toList <+: u.world.printed.toList)
    (stays : u'.world.printed = t'.world.printed) : Filled capacity u u' where
  full := stays ▸ h.full
  more := by
    have longer := prolongs.length_le
    rw [Array.length_toList, Array.length_toList] at longer
    exact Nat.lt_of_lt_of_le h.more longer
  shared := stays ▸ h.shared.trans prolongs

/-- The first part is that of a machine whose output never fails, the second that of one whose
output takes only so many lines. They do the same while there is room for all lines; afterwards the
second prints nothing, whatever it does. -/
structure Fills (capacity : Nat) (act act' : Trace α) : Prop where
  prints : AllPrinted act
  stays : ∀ s, s.world.printed.size = capacity → (final (act' s)).world.printed = s.world.printed
  parts : ∀ s, s.world.printed.size ≤ capacity →
    (act s = act' s ∧ (final (act s)).world.printed.size ≤ capacity) ∨
      Filled capacity (final (act s)) (final (act' s))

/-- The run may fill its room in the first part or in the second. -/
theorem Fills.bind {act act' : Trace α} {next next' : α → Trace β}
    (h : Fills capacity act act') (hnext : ∀ a, Fills capacity (next a) (next' a)) :
    Fills capacity (act >>= next) (act' >>= next') := by
  refine ⟨h.prints.bind fun a => (hnext a).prints, fun s full => ?_, fun s room => ?_⟩
  · have first := h.stays s full
    rw [final_bind]
    -- a full sink stays full, so nothing is printed in either part
    cases done : act' s with
    | error stop t =>
      rw [done] at first
      exact first
    | ok a t =>
      rw [done] at first
      exact ((hnext a).stays t (first ▸ full)).trans first
  · rcases h.parts s room with ⟨same, room₁⟩ | filled
    · rw [Run.bind_apply, Run.bind_apply, ← same]
      cases done : act s with
      | error stop t =>
        rw [done] at room₁
        exact .inl ⟨rfl, room₁⟩
      | ok a t =>
        rw [done] at room₁
        exact (hnext a).parts t room₁
    · -- The runs have parted: whatever each of them goes on with, the second prints no more.
      refine .inr (filled.mono ?_ ?_)
      · rw [final_bind]
        cases act s with
        | error stop t => exact List.prefix_refl _
        | ok a t => exact (hnext a).prints.prolongs t
      · have full := filled.full
        rw [final_bind]
        cases done : act' s with
        | error stop t => rfl
        | ok a t =>
          rw [done] at full
          exact (hnext a).stays t full

/-- What a native is told of takes no room. -/
theorem Fills.telling {act act' : Trace Value} (h : Fills capacity act act') (asked : Asked) :
    Fills capacity (telling asked act) (telling asked act') := by
  refine ⟨h.prints.telling asked, fun s full => ?_, fun s room => ?_⟩
  · obtain ⟨more, ends⟩ := final_telling asked act' s
    rw [ends]
    exact h.stays s full
  · obtain ⟨more, ends⟩ := final_telling asked act s
    obtain ⟨more', ends'⟩ := final_telling asked act' s
    rw [ends, ends']
    refine (h.parts s room).imp ?_ fun filled => ⟨filled.full, filled.more, filled.shared⟩
    rintro ⟨same, room₁⟩
    unfold Trace.telling
    exact ⟨by rw [same], room₁⟩

/-- A native that is told of a problem prints no more than it did without being told. -/
theorem Fills.attempt {act act' : Trace α} (h : Fills capacity act act') :
    Fills capacity (Run.attempt act) (Run.attempt act') := by
  refine ⟨h.prints.attempt, fun s full => ?_, fun s room => ?_⟩
  · rw [final_attempt]
    exact h.stays s full
  · rw [final_attempt, final_attempt]
    refine (h.parts s room).imp_left fun ⟨same, room₁⟩ => ⟨?_, room₁⟩
    rw [Run.attempt_apply, Run.attempt_apply, same]

/-! ### Where a run stops when the output fails -/

/-- The second run has printed the lines `new`, and stops at the line `last`, for which there is no
room; the first one goes on from there. -/
structure Fails (capacity : Nat) (reason : String) (going : List Activity) (s : Traced)
    (result result' : EStateM.Result Stop Traced α) (inner : List Activity) (new : List Attempt)
    (last : Attempt) : Prop where
  stops : result' = .error (Stop.located inner (.output reason)) (final result')
  going : last.going = inner ++ going
  attempts : (final result').attempts = s.attempts ++ new ++ [last]
  printed : (final result').world.printed.toList = s.world.printed.toList ++ new.map (·.line)
  full : (final result').world.printed.size = capacity
  proceeds : (final result').attempts <+: (final result).attempts

section Fails

variable {inner : List Activity} {new : List Attempt} {last : Attempt} {s t : Traced}
  {result result' : EStateM.Result Stop Traced α}

/-- Some lines were printed before. -/
theorem Fails.after (fails : Fails capacity reason going t result result' inner new last)
    {before : List Attempt} (first : Prints s t before) :
    Fails capacity reason going s result result' inner (before ++ new) last := by
  refine { fails with attempts := ?_, printed := ?_ }
  · rw [fails.attempts, first.attempts]
    simp only [List.append_assoc]
  · rw [fails.printed, first.printed, List.map_append, List.append_assoc]

/-- The run stops in the same way where more would come. -/
theorem Fails.before (fails : Fails capacity reason going s result result' inner new last)
    {longer longer' : EStateM.Result Stop Traced β}
    (stops : longer' = .error (Stop.located inner (.output reason)) (final result'))
    (proceeds : (final result).attempts <+: (final longer).attempts) :
    Fails capacity reason going s longer longer' inner new last := by
  subst stops
  exact ⟨rfl, fails.going, fails.attempts, fails.printed, fails.full,
    fails.proceeds.trans proceeds⟩

/-- What a native is told of is no line, so the run fails at the same one. -/
theorem Fails.telling {act act' : Trace Value}
    (fails : Fails capacity reason going s (act s) (act' s) inner new last) (asked : Asked) :
    Fails capacity reason going s (telling asked act s) (telling asked act' s) inner new last := by
  obtain ⟨more, ends⟩ := final_telling asked act s
  obtain ⟨more', ends'⟩ := final_telling asked act' s
  refine ⟨?_, fails.going, ?_, ?_, ?_, ?_⟩
  · unfold Trace.telling
    rw [fails.stops]
    rfl
  · rw [ends']
    exact fails.attempts
  · rw [ends']
    exact fails.printed
  · rw [ends']
    exact fails.full
  · rw [ends, ends']
    exact fails.proceeds

end Fails

/-- The first part is that of a machine whose output never fails, the second that of one whose
output takes only so many lines. The second stops at the line that it does not take, unless a native
ignores that. -/
structure Cuts (natives : Natives) (capacity : Nat) (reason : String) (going : List Activity)
    (act act' : Trace α) : Prop where
  prints : AllPrinted act
  tells : Tells act'
  parts : ∀ s, s.world.printed.size ≤ capacity →
    (act s = act' s ∧ (final (act s)).world.printed.size ≤ capacity) ∨
      (∃ inner new last, Fails capacity reason going s (act s) (act' s) inner new last) ∨
        (final (act' s)).Ignores natives (Mishap.OfOutput reason)

/-- As long as the runs are the same they go on in the same way. -/
theorem Cuts.goesOn {act act' : Trace α} {next next' : α → Trace β} (prints : AllPrinted act)
    (hnext : ∀ a, Cuts natives capacity reason going (next a) (next' a)) {s : Traced}
    (same : act s = act' s) (room : (final (act s)).world.printed.size ≤ capacity) :
    ((act >>= next) s = (act' >>= next') s ∧
        (final ((act >>= next) s)).world.printed.size ≤ capacity) ∨
      (∃ inner new last, Fails capacity reason going s ((act >>= next) s) ((act' >>= next') s)
        inner new last) ∨ (final ((act' >>= next') s)).Ignores natives (Mishap.OfOutput reason) := by
  obtain ⟨before, first⟩ := prints s
  rw [Run.bind_apply, Run.bind_apply, ← same]
  cases done : act s with
  | error stop t =>
    rw [done] at room
    exact .inl ⟨rfl, room⟩
  | ok a t =>
    rw [done] at first room
    refine ((hnext a).parts t room).imp_right (Or.imp_left ?_)
    rintro ⟨inner, new, last, fails⟩
    exact ⟨inner, before ++ new, last, fails.after first⟩

/-- The run is cut in the first part, or in the second. -/
theorem Cuts.bind {act act' : Trace α} {next next' : α → Trace β}
    (h : Cuts natives capacity reason going act act')
    (hnext : ∀ a, Cuts natives capacity reason going (next a) (next' a)) :
    Cuts natives capacity reason going (act >>= next) (act' >>= next') := by
  have tells : Tells (act' >>= next') := h.tells.bind fun a => (hnext a).tells
  refine ⟨h.prints.bind fun a => (hnext a).prints, tells, fun s room => ?_⟩
  rcases h.parts s room with ⟨same, room₁⟩ | ⟨inner, new, last, fails⟩ | ignored
  · exact Cuts.goesOn h.prints hnext same room₁
  · refine .inr (.inl ⟨inner, new, last, fails.before ?_ ?_⟩)
    · rw [Run.bind_apply, fails.stops]
      rfl
    · rw [final_bind]
      cases act s with
      | error stop t => exact List.prefix_refl _
      | ok a t => exact (hnext a).prints.attempts t
  · exact .inr (.inr (ignored.mono (told_bind (fun a => (hnext a).tells) s)))

/-- A native that is told that the output failed passes it on, or is one that ignores it. -/
theorem Cuts.told {act act' : Trace Value} {next next' : Except Problem Value → Trace Value}
    (asked : Asked) (h : Cuts natives capacity reason going act act')
    (hnext : ∀ r, Cuts natives capacity reason going (next r) (next' r))
    (passed : ∀ p : Problem, p.mishap.OfOutput reason ∧
      (asked.reply natives).PassesOn (Mishap.OfOutput reason) 0 →
        next (.error p) = throw p.stop ∧ next' (.error p) = throw p.stop) :
    Cuts natives capacity reason going (Run.attempt (telling asked act) >>= next)
      (Run.attempt (telling asked act') >>= next') := by
  have prints : AllPrinted (Run.attempt (telling asked act)) := (h.prints.telling asked).attempt
  have tells : Tells (Run.attempt (telling asked act')) := (h.tells.telling asked).attempt
  refine ⟨prints.bind fun r => (hnext r).prints, tells.bind fun r => (hnext r).tells,
    fun s room => ?_⟩
  rcases h.parts s room with ⟨same, room₁⟩ | ⟨inner, new, last, fails⟩ | ignored
  · have goes : Run.attempt (telling asked act) s = Run.attempt (telling asked act') s := by
      rw [Run.attempt_apply, Run.attempt_apply]
      unfold telling
      rw [same]
    refine Cuts.goesOn prints hnext goes ?_
    obtain ⟨more, ends⟩ := final_telling asked act s
    rw [final_attempt, ends]
    exact room₁
  · let p : Problem := ⟨innermostCall? inner, .output reason⟩
    have located : Stop.located inner (.output reason) = p.stop := Stop.located_eq ..
    have failed := fails.telling asked
    have stops := located ▸ fails.stops
    have stopsTold := located ▸ failed.stops
    right
    by_cases passes : (asked.reply natives).PassesOn (Mishap.OfOutput reason) 0
    -- the native passes on the failure as it came
    · refine .inl ⟨inner, new, last, failed.before ?_ ?_⟩
      · rw [Run.attempt_bind_of_error stopsTold, (passed p ⟨rfl, passes⟩).2, located]
        rfl
      · rw [← final_attempt, final_bind]
        cases Run.attempt (telling asked act) s with
        | error stop t => exact List.prefix_refl _
        | ok r t => exact (hnext r).prints.attempts t
    -- or it is noted as one that was told of it
    · exact .inr (ignores_of_stops (fun r => (hnext r).tells) stops rfl passes)
  · exact .inr (.inr (ignores_attempt (fun r => (hnext r).tells) ignored))

/-! ### Prints and calls -/

/-- A body locates no fault, so it cuts as what is in it. -/
theorem Cuts.body {act act' : Trace α} {f : Closure}
    (h : Cuts natives capacity reason (.body f :: going) act act') :
    Cuts natives capacity reason going act act' := by
  refine ⟨h.prints, h.tells, fun s room => (h.parts s room).imp_right (Or.imp_left ?_)⟩
  rintro ⟨inner, new, last, fails⟩
  refine ⟨inner ++ [.body f], new, last, { fails with stops := ?_, going := ?_ }⟩
  · rw [Stop.located_body]
    exact fails.stops
  · rw [fails.going, List.append_assoc]
    rfl

/-- How deep a run is makes no difference to its lines. -/
theorem Fills.call {act act' : Trace Value} (h : Fills capacity act act') (paren : Token) :
    Fills capacity (placedAt paren (deeper act)) (placedAt paren (deeper act')) := by
  refine ⟨h.prints.call paren, fun s full => ?_, fun s room => ?_⟩
  · rw [(attempts_call paren act' s).2]
    exact h.stays { s with world := { s.world with depth := s.world.depth + 1 } } full
  · have printed := (attempts_call paren act s).2
    have printed' := (attempts_call paren act' s).2
    refine (h.parts { s with world := { s.world with depth := s.world.depth + 1 } } room).imp ?_ ?_
    · rintro ⟨same, room₁⟩
      refine ⟨?_, by rw [printed]; exact room₁⟩
      unfold placedAt deeper
      rw [same]
    · rintro ⟨full, more, shared⟩
      exact ⟨by rw [printed', full], by rwa [printed], by rwa [printed, printed']⟩

/-- A line that is cut inside a call stops the call, and the fault is at the innermost one. -/
theorem Cuts.call {act act' : Trace Value} {paren : Token}
    (h : Cuts natives capacity reason (.call paren :: going) act act') :
    Cuts natives capacity reason going (placedAt paren (deeper act))
      (placedAt paren (deeper act')) := by
  refine ⟨h.prints.call paren, h.tells.call paren, fun s room => ?_⟩
  obtain ⟨attempts, printed⟩ := attempts_call paren act s
  obtain ⟨attempts', printed'⟩ := attempts_call paren act' s
  rcases h.parts { s with world := { s.world with depth := s.world.depth + 1 } } room with
    ⟨same, room₁⟩ | ⟨inner, new, last, fails⟩ | ignored
  · left
    refine ⟨?_, by rw [printed]; exact room₁⟩
    unfold placedAt deeper
    rw [same]
  -- the innermost call keeps the fault: this one is put behind it
  · refine .inr (.inl ⟨inner ++ [.call paren], new, last, ?_, ?_, ?_, ?_, ?_, ?_⟩)
    · rw [← Stop.located_call]
      unfold placedAt deeper
      rw [fails.stops]
      rfl
    · rw [fails.going, List.append_assoc]
      rfl
    · rw [attempts', fails.attempts]
    · rw [printed', fails.printed]
    · rw [printed', fails.full]
    · rw [attempts, attempts']
      exact fails.proceeds
  · right
    right
    rw [final_call]
    exact ignored

section Machines

variable {m m' : Machine} (unlimited : m.sink = {})
  (limited : m'.sink = { capacity := some capacity, reason }) (depth : m'.maxDepth = m.maxDepth)
include unlimited limited depth

end Machines

end Trace

end Lox
