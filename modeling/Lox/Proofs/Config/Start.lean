import Lox.Project
import Lox.Proofs.Config.Issues
import Lox.Proofs.Run.Frames
import Lox.Proofs.Text.Lower
import Mathlib.Data.List.Nodup
import Mathlib.Data.List.Perm.Basic

/-!
Settings that were loaded start a session. Loading ends in the check of all fields, so what it gives
names standard natives only, each once, and a limit that is no default in disguise.
-/

namespace Lox

/-! ### Settings that are accepted -/

namespace Config

variable {c : Config}

/-- A configuration that passes its check names natives that exist. -/
theorem natives_standard (valid : c.validate = .ok ()) :
    ∀ name ∈ c.natives, name ∈ Native.standardNames := by
  intro name listed
  obtain ⟨i, there⟩ := List.mem_iff_getElem?.mp listed
  by_contra unknown
  exact validate_eq_ok_iff_wrong.mp valid _ _ (.native there (.unknown unknown))

/-- A configuration that passes its check names every native once. -/
theorem natives_nodup (valid : c.validate = .ok ()) : c.natives.Nodup := by
  rw [List.nodup_iff_getElem?_ne_getElem?]
  intro i j earlier inside same
  have there := List.getElem?_eq_getElem inside
  have again : c.natives[j] ∈ c.natives.take j := by
    rw [List.mem_take_iff_getElem]
    have : c.natives[i]? = some c.natives[j] := same.trans there
    obtain ⟨_, first⟩ := List.getElem?_eq_some_iff.mp this
    exact ⟨i, by omega, first⟩
  have known := natives_standard valid _ (List.getElem_mem inside)
  exact validate_eq_ok_iff_wrong.mp valid _ _ (.native there (.repeated known again))

/-- A configuration that passes its check allows a call. -/
theorem maxCallDepth_pos (valid : c.validate = .ok ()) : 0 < c.maxCallDepth := by
  by_contra none
  exact validate_eq_ok_iff_wrong.mp valid _ _ (.callDepth (by omega))

/-- The default configuration passes its own check. -/
theorem validate_default : ({} : Config).validate = .ok () := by
  decide

end Config

/-! ### Sessions with natives -/

theorem Native.mem_standardNames_iff {name : String} :
    name ∈ Native.standardNames ↔ ∃ native, Native.standard? name = some native := by
  rw [← Option.isSome_iff_exists]
  simp [Native.standardNames, Native.standard?]

theorem Native.name_of_standard? {name : String} {native : Native}
    (h : Native.standard? name = some native) : native.name = name := by
  simpa using List.find?_some h

/-- A name that is new is bound behind all others. -/
theorem Bindings.insert_eq_append {α : Type} {name : String} {bindings : Bindings α}
    (new : ∀ b ∈ bindings, b.1 ≠ name) (a : α) :
    Bindings.insert name a bindings = bindings ++ [(name, a)] := by
  induction bindings with
  | nil => rfl
  | cons b rest ih =>
    rw [Bindings.insert, if_neg (new b List.mem_cons_self),
      ih fun b mem => new b (List.mem_cons_of_mem _ mem), List.cons_append]

theorem Frames.bindings_define {α : Type} {fs : Frames α} {e : Nat} (there : e < fs.size)
    (name : String) (a : α) :
    (fs.define e name a).bindings e = Bindings.insert name a (fs.bindings e) := by
  unfold Frames.bindings Frames.define
  rw [Array.getElem?_modify, if_pos rfl, Array.getElem?_eq_getElem there]
  rfl

namespace Session

/-- By induction on the names. Each one is a standard native that no global is named for yet, so it
becomes the last global. -/
theorem enable_eq_ok (s : Session) {names : List String}
    (rooted : Frames.root < s.world.frames.size)
    (known : ∀ name ∈ names, name ∈ Native.standardNames) (once : names.Nodup)
    (new : ∀ b ∈ s.world.frames.bindings Frames.root, b.1 ∉ names) :
    ∃ (natives : List Native) (s' : Session), natives.map (·.name) = names ∧
      (∀ native ∈ natives, Native.standard? native.name = some native) ∧
      s.enable names = .ok s' ∧ s'.machine = s.machine ∧
      s'.world.frames.bindings Frames.root =
        s.world.frames.bindings Frames.root ++ natives.map fun n => (n.name, .native n) := by
  induction names generalizing s with
  | nil => exact ⟨[], s, rfl, List.forall_mem_nil _, rfl, rfl, (List.append_nil _).symm⟩
  | cons name rest ih =>
    obtain ⟨native, found⟩ := Native.mem_standardNames_iff.mp (known name List.mem_cons_self)
    have named := Native.name_of_standard? found
    have added : (s.lend native).world.frames.bindings Frames.root =
        s.world.frames.bindings Frames.root ++ [(native.name, .native native)] := by
      refine (Frames.bindings_define rooted _ _).trans (Bindings.insert_eq_append ?_ _)
      intro b mem same
      exact new b mem (by simp [same, named])
    have rooted' : Frames.root < (s.lend native).world.frames.size := by
      simpa [lend, define, Frames.size_define] using rooted
    have known' : ∀ other ∈ rest, other ∈ Native.standardNames := fun other mem =>
      known other (List.mem_cons_of_mem _ mem)
    have new' : ∀ b ∈ (s.lend native).world.frames.bindings Frames.root, b.1 ∉ rest := by
      rw [added]
      intro b mem
      rcases List.mem_append.mp mem with old | last
      · exact fun later => new b old (List.mem_cons_of_mem _ later)
      · rw [List.mem_singleton.mp last, named]
        exact (List.nodup_cons.mp once).1
    obtain ⟨natives, s', same, standard, done, machine, globals⟩ :=
      ih (s.lend native) rooted' known' once.of_cons new'
    refine ⟨native :: natives, s', ?_, ?_, ?_, machine, ?_⟩
    · rw [List.map_cons, named, same]
    · exact List.forall_mem_cons.mpr ⟨named ▸ found, standard⟩
    · rw [enable, found]
      exact done
    · rw [globals, added, List.append_assoc, List.map_cons, List.singleton_append]

/-- A session that starts as settings say: the natives that they list are its globals, and all of
them, and as many calls as they allow may go on at once. -/
structure StartsAs (c : Config) (s : Session) : Prop where
  limit : (s.machine.maxDepth : Int) = c.maxCallDepth
  names : (s.globals.map (·.1)).Perm c.natives
  natives : ∀ g ∈ s.globals, ∃ native, Native.standard? g.1 = some native ∧ g.2 = .native native

end Session

namespace Config

variable {c : Config}

/-- A configuration that passes its check starts a session. -/
theorem session_eq_ok (valid : c.validate = .ok ()) (replies : Natives) (sink : Sink) :
    ∃ s, c.session replies sink = .ok s ∧ s.StartsAs c := by
  obtain ⟨natives, s, listed, standard, started, machine, globals⟩ :=
    Session.enable_eq_ok
      { machine := { maxDepth := depthLimit c.maxCallDepth, natives := replies, sink } }
      Nat.zero_lt_one (natives_standard valid) (natives_nodup valid)
      fun b mem => absurd mem List.not_mem_nil
  have sorted : s.globals.Perm (natives.map fun n => (n.name, .native n)) := by
    rw [Session.globals, globals]
    exact List.mergeSort_perm _ _
  refine ⟨s, started, ?_, ?_, ?_⟩
  · rw [machine]
    show ((depthLimit c.maxCallDepth : Nat) : Int) = c.maxCallDepth
    rw [depthLimit, if_pos (maxCallDepth_pos valid)]
    exact Int.toNat_of_nonneg (Int.le_of_lt (maxCallDepth_pos valid))
  · have names := sorted.map (·.1)
    rw [List.map_map] at names
    rw [← listed]
    exact names
  · intro g mem
    obtain ⟨native, there, rfl⟩ := List.mem_map.mp (sorted.mem_iff.mp mem)
    exact ⟨native, standard native there, rfl⟩

end Config

/-! ### Settings that were loaded -/

namespace Project

variable {read : Reader} {path : String} {c : Config}

/-- What is decoded is checked before it is given out. -/
theorem validate_of_configOfBytes {format : Format} {bytes : ByteArray}
    (h : configOfBytes read format path bytes = .ok c) : c.validate = .ok () := by
  unfold configOfBytes at h
  split at h
  · cases h
  · cases h
  · dsimp only at h
    split at h
    · next valid =>
      cases h
      exact valid
    · cases h

theorem configOfRead_ok {format : Format} {bytes : ByteArray}
    (known : formatOf? (Text.lower (Path.ext path)) = some format) :
    configOfRead read path (.ok bytes) = configOfBytes read format path bytes := by
  unfold configOfRead
  dsimp only
  rw [known]

/-- What is read is checked before it is given out. -/
theorem validate_of_configOfRead {content : Except DiskError ByteArray}
    (h : configOfRead read path content = .ok c) : c.validate = .ok () := by
  unfold configOfRead at h
  dsimp only at h
  split at h
  all_goals first | exact validate_of_configOfBytes h | cases h

section

variable {σ : Type} {disk : Disk (StateM σ)}
  {detect : String → StateM σ (Except Error (Option String))} {before : σ}

/-- A configuration that is loaded from a path passes its check. -/
theorem validate_of_loadConfigBy (h : (loadConfigBy disk read path before).1 = .ok c) :
    c.validate = .ok () := by
  by_cases empty : path = ""
  · simp [loadConfigBy, empty] at h
    cases h
  · simp only [loadConfigBy, empty, if_false] at h
    exact validate_of_configOfRead h

/-- A configuration that is searched for and loaded passes its check. -/
theorem validate_of_loadNearestConfigBy
    (h : (loadNearestConfigBy disk read detect path before).1 = .ok c) : c.validate = .ok () := by
  unfold loadNearestConfigBy at h
  dsimp only [bind, StateT.bind] at h
  split at h
  next result after found =>
    cases result with
    | ok path => exact validate_of_loadConfigBy h
    | error e =>
      cases e
      case notFound =>
        cases h
        exact Config.validate_default
      all_goals cases h

end

/-- The check of settings finds all that is wrong with them, in order, and nothing else. Whatever is
in the files, and whatever reads them, settings that were loaded pass it, and they start a session
that is as they say. -/
theorem loaded_starts (read : Reader) {σ : Type} (disk : Disk (StateM σ))
    (detect : String → StateM σ (Except Error (Option String))) :
    (∀ c : Config, (c.validate = .ok () ↔ ∀ spot issue, ¬ c.Wrong spot issue) ∧
      ∀ issues, c.validate = .error issues → Config.Lists c.Wrong issues) ∧
    ∀ path before c, (loadConfigBy disk read path before).1 = .ok c ∨
        (loadNearestConfigBy disk read detect path before).1 = .ok c →
      c.validate = .ok () ∧ ∀ replies sink, ∃ s, c.session replies sink = .ok s ∧ s.StartsAs c := by
  constructor
  · intro c
    refine ⟨Config.validate_eq_ok_iff_wrong, fun issues refused => ?_⟩
    rw [Config.issues_of_validate refused]
    exact Config.lists_issues c
  · intro path before c loaded
    have valid : c.validate = .ok () :=
      loaded.elim validate_of_loadConfigBy validate_of_loadNearestConfigBy
    exact ⟨valid, Config.session_eq_ok valid⟩

/-- A disk where every path names the same file. -/
def oneFile (content : ByteArray) : Disk (StateM Unit) where
  cwd := pure "/"
  isDir _ := pure (.ok false)
  read _ := pure (.ok content)
  list _ := pure (.error .notDirectory)

/-- Settings with one native, where three calls may go on at once. -/
def smallSettings : ByteArray := "name: small\nmax_call_depth: 3\nnatives: [clock]\n".toUTF8

theorem loaded_starts_small : ∃ c, c.maxCallDepth = 3 ∧
    (loadConfigBy (oneFile smallSettings) reader "/lox.yml" ()).1 = .ok c ∧
    c.validate = .ok () ∧ ∀ replies sink, ∃ s, c.session replies sink = .ok s ∧ s.StartsAs c := by
  have read : (loadConfigBy (oneFile smallSettings) reader "/lox.yml" ()).1 =
      configOfBytes reader .yaml "/lox.yml" smallSettings := by
    refine configOfRead_ok ?_
    rw [show Path.ext (Path.absolute "/" "/lox.yml") = ".yml" by decide,
      Text.lower_eq_self (by decide)]
    rfl
  have depth : (configOfBytes reader .yaml "/lox.yml" smallSettings).toOption.map (·.maxCallDepth) =
      some 3 := by
    decide +kernel
  cases loaded : configOfBytes reader .yaml "/lox.yml" smallSettings with
  | error e =>
    rw [loaded] at depth
    cases depth
  | ok c =>
    rw [loaded] at depth read
    exact ⟨c, Option.some.inj depth, read, (loaded_starts reader (oneFile smallSettings)
      (worktreeRoot (oneFile smallSettings))).2 _ _ c (.inl read)⟩

end Project

end Lox
