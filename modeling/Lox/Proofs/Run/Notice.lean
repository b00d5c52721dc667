import Lox.Proofs.Run.Trace

/-!
What natives are told of. A native may go on after a call that it makes has stopped, and what it is
told of then is all that it has of the run that stopped. A trace keeps a notice of each time, so
that for a single run it can be said whether a native went on after problems of some kind.
-/

namespace Lox

/-- Some native was told of a problem of such a kind, and does not always pass it on. -/
def Traced.Ignores (natives : Natives) (P : Mishap → Prop) (s : Traced) : Prop :=
  ∃ notice ∈ s.told, P notice.problem.mishap ∧ ¬ (notice.asked.reply natives).PassesOn P 0

/-- What was ignored stays ignored. -/
theorem Traced.Ignores.mono {natives : Natives} {P : Mishap → Prop} {s t : Traced}
    (h : s.Ignores natives P) (later : s.told <:+ t.told) : t.Ignores natives P := by
  obtain ⟨notice, mem, ignored⟩ := h
  exact ⟨notice, later.mem mem, ignored⟩

namespace Trace

variable {α β : Type} {going : List Activity} {act : Trace α}

/-! ### How parts end -/

/-- The end of two parts is the end of the first, if that stops, and else of the second. -/
theorem final_bind (act : Trace α) (next : α → Trace β) (s : Traced) :
    final ((act >>= next) s) = match act s with
      | .ok a t => final (next a t)
      | .error _ t => t := by
  rw [Run.bind_apply]
  cases act s <;> rfl

/-- To be told of a problem changes nothing of what was done before it. -/
theorem final_attempt (act : Trace α) (s : Traced) : final (Run.attempt act s) = final (act s) := by
  rw [Run.attempt_apply]
  cases act s with
  | ok a t => rfl
  | error stop t =>
    dsimp only
    cases stop.problem? <;> rfl

/-- What a native is told of is added to what it was told of, and that is all. -/
theorem final_telling (asked : Asked) (act : Trace Value) (s : Traced) :
    ∃ more, final (telling asked act s) =
      { final (act s) with told := more ++ (final (act s)).told } := by
  unfold telling
  cases act s with
  | ok v t => exact ⟨[], rfl⟩
  | error stop t => exact ⟨_, rfl⟩

/-- After a call the world is one level up again, however the call ended. -/
theorem final_call (paren : Token) (act : Trace Value) (s : Traced) :
    final (placedAt paren (deeper act) s) =
      let t := final (act { s with world := { s.world with depth := s.world.depth + 1 } })
      { t with world := { t.world with depth := t.world.depth - 1 } } := by
  unfold placedAt deeper
  cases act { s with world := { s.world with depth := s.world.depth + 1 } } <;> rfl

/-! ### Notices are kept -/

/-- What natives were told of before stays noted. -/
def Tells (act : Trace α) : Prop := ∀ s, s.told <:+ (final (act s)).told

/-- What natives were told of in the first part stays noted in the second. -/
theorem told_bind {next : α → Trace β} (hnext : ∀ a, Tells (next a)) (s : Traced) :
    (final (act s)).told <:+ (final ((act >>= next) s)).told := by
  rw [final_bind]
  cases act s with
  | error stop t => exact List.suffix_refl _
  | ok a t => exact hnext a t

/-- Notices are only added, by the first part and by the second. -/
theorem Tells.bind {next : α → Trace β} (h : Tells act) (hnext : ∀ a, Tells (next a)) :
    Tells (act >>= next) :=
  fun s => (h s).trans (told_bind hnext s)

theorem Tells.attempt (h : Tells act) : Tells (Run.attempt act) := by
  intro s
  rw [final_attempt]
  exact h s

/-- What a native is told of comes on top of what was noted before. -/
theorem Tells.telling {act : Trace Value} (h : Tells act) (asked : Asked) :
    Tells (telling asked act) := by
  intro s
  obtain ⟨more, ends⟩ := final_telling asked act s
  rw [ends]
  exact (h s).trans (List.suffix_append ..)

/-- A call adds the notices of what is done inside. -/
theorem Tells.call {act : Trace Value} (h : Tells act) (paren : Token) :
    Tells (placedAt paren (deeper act)) := by
  intro s
  rw [final_call]
  exact h { s with world := { s.world with depth := s.world.depth + 1 } }

theorem Tells.guarded {act : Trace Value} (h : Tells act) (limit : Nat) (paren : Token) :
    Tells (guarded limit going paren act) := by
  intro s
  rw [guarded_apply]
  split
  · exact List.suffix_refl _
  · exact h.call paren s

/-! ### Problems that are ignored -/

section Ignores

variable {natives : Natives} {P : Mishap → Prop} {act : Trace Value}
  {next : Except Problem Value → Trace β} {asked : Asked} {s t : Traced}

/-- What was ignored in a call that a native makes stays ignored when the native goes on. -/
theorem ignores_attempt (hnext : ∀ r, Tells (next r)) (h : (final (act s)).Ignores natives P) :
    (final ((Run.attempt (telling asked act) >>= next) s)).Ignores natives P := by
  obtain ⟨more, ends⟩ := final_telling asked act s
  have noted : (final (act s)).told <:+ (final (Run.attempt (telling asked act) s)).told := by
    rw [final_attempt, ends]
    exact List.suffix_append ..
  exact h.mono (noted.trans (told_bind hnext s))

/-- A native that does not always pass on what a call stops at ignores it. -/
theorem ignores_of_stops (hnext : ∀ r, Tells (next r)) {p : Problem}
    (stops : act s = .error p.stop t) (met : P p.mishap)
    (ignored : ¬ (asked.reply natives).PassesOn P 0) :
    (final ((Run.attempt (telling asked act) >>= next) s)).Ignores natives P := by
  have told : telling asked act s = .error p.stop (t.tell asked p.stop) := by
    unfold telling
    rw [stops]
  have noted : (⟨asked, p⟩ : Notice) ∈ (t.tell asked p.stop).told := by
    unfold Traced.tell
    rw [Run.Problem.problem?_stop]
    exact List.mem_cons_self
  rw [Run.attempt_bind_of_error told]
  exact ⟨⟨asked, p⟩, (hnext _ _).mem noted, met, ignored⟩

end Ignores

end Trace

/-! ### Runs in which natives pass problems on -/

end Lox
