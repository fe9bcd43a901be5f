import RouteManifest.Extraction
import RouteManifest.Proofs.Results

/-!
# Answers of work in a session

The cache of a session spares reading and does nothing else. Work answers what it would answer if
every module were read anew, in any session whose cache says what the files say, and such a session
it leaves so. The files stay as they are throughout; what a change of files does to a cache that
was filled before is not a matter of this module.
-/

namespace RouteManifest

/-- The same reason with its error read as another error. -/
def Halt.map {ε δ : Type} (f : ε → δ) : Halt ε → Halt δ
  | .error e => .error (f e)
  | .breakdown message => .breakdown message

theorem Path.resolve?_eq_of_same {m n : Path} (h : m.same n = true) (base : Path) :
    m.resolve? base = n.resolve? base := by
  have agree : m.components = n.components := by simpa [Path.same] using h
  simp only [Path.resolve?, agree]

namespace Project

theorem moduleFile_eq_of_same {ε : Type} (p : Project) {m n : Path} (h : m.same n = true) :
    (p.moduleFile m : Except (Halt ε) (Option Path)) = p.moduleFile n := by
  simp only [moduleFile, absolute, Path.resolve?_eq_of_same h]

/-- A module that can be read says the same under every path to it. An error need not: it repeats
the path as it was written. -/
theorem extract_eq_ok_of_same {p : Project} {m n : Path} (h : m.same n = true) {found : Extract}
    (read : p.extract m = .ok found) : p.extract n = .ok found := by
  unfold extract at read ⊢
  rw [← moduleFile_eq_of_same p h]
  cases file : (p.moduleFile m : Except (Halt ExtractError) (Option Path)) with
  | error halt =>
    rw [file] at read
    cases read
  | ok place =>
    rw [file] at read
    cases place with
    | none => cases read
    | some place => exact read

/-- What looking the exports of a module up does to a session. -/
theorem exportsOf_run (p : Project) (module : Path) (session : Session) :
    p.exportsOf module session =
      match session.cache.find? module with
      | some names =>
        (.ok names, { session with journal := .exportsReused module :: session.journal })
      | none =>
        match p.extract module with
        | .error halt => (.error halt, session)
        | .ok found =>
          (.ok found.names,
            ⟨session.cache.store module found.names,
              .exportsRead found.file found.names :: session.journal⟩) := by
  have run : p.exportsOf module session =
      (match session.cache.find? module with
        | some names => do
          Work.record (.exportsReused module)
          return names
        | none => do
          let found ← Work.ofExcept (p.extract module)
          Work.record (.exportsRead found.file found.names)
          modify fun s => { s with cache := s.cache.store module found.names }
          return found.names : Work ExtractError (List String)) session := rfl
  rw [run]
  cases session.cache.find? module with
  | some names => rfl
  | none =>
    cases p.extract module with
    | error halt => rfl
    | ok found => rfl

end Project

namespace Cache

/-- The cache says of every module what its file says. -/
def Sound (p : Project) (c : Cache) : Prop :=
  ∀ module names, c.find? module = some names → ∃ file, p.extract module = .ok ⟨file, names⟩

theorem sound_empty (p : Project) : Sound p empty := by
  intro module names h
  cases h

theorem find?_store (c : Cache) (module : Path) (names : List String) (other : Path) :
    (c.store module names).find? other =
      if module.same other then some names else c.find? other := by
  by_cases h : module.same other = true
  · simp [find?, store, h]
  · simp [find?, store, h]

theorem Sound.store {p : Project} {c : Cache} (sound : c.Sound p) {module : Path}
    {found : Extract} (read : p.extract module = .ok found) :
    (c.store module found.names).Sound p := by
  intro other names h
  rw [find?_store] at h
  split at h
  · rename_i same
    cases h
    exact ⟨found.file, Project.extract_eq_ok_of_same same read⟩
  · exact sound other names h

end Cache

/-- Work goes on from where the work before it left the session, or stops with it. -/
theorem Work.run_bind {ε α β : Type} (work : Work ε α) (next : α → Work ε β) (session : Session) :
    (work >>= next) session =
      match work session with
      | (.ok a, session) => next a session
      | (.error halt, session) => (.error halt, session) := by
  change (ExceptT.bindCont next (work session).1) (work session).2 = _
  cases work session with
  | mk result session => cases result <;> rfl

/-- Work answers so in every session whose cache is sound, and leaves the cache sound. -/
def Answers {ε α : Type} (p : Project) (work : Work ε α) (answer : Except (Halt ε) α) : Prop :=
  ∀ session : Session, session.cache.Sound p →
    (work session).1 = answer ∧ (work session).2.cache.Sound p

namespace Answers

variable {ε δ α β : Type} {p : Project}

theorem pure (a : α) : Answers p (Pure.pure a : Work ε α) (Pure.pure a) :=
  fun _ sound => ⟨rfl, sound⟩

theorem ofExcept (answer : Except (Halt ε) α) : Answers p (Work.ofExcept answer) answer := by
  intro session sound
  cases answer with
  | ok a => exact ⟨rfl, sound⟩
  | error halt => exact ⟨rfl, sound⟩

theorem fail (e : ε) : Answers p (Work.fail e : Work ε α) (.error (.error e)) :=
  fun _ sound => ⟨rfl, sound⟩

theorem record (event : Event) :
    Answers p (Work.record event : Work ε Unit) (Pure.pure ()) :=
  fun _ sound => ⟨rfl, sound⟩

/-- Work may look at the session if its answer does not depend on it. -/
theorem told {next : Session → Work ε α} {answer : Except (Halt ε) α}
    (each : ∀ session, Answers p (next session) answer) :
    Answers p (get >>= next) answer :=
  fun session sound => each session session sound

theorem bind {work : Work ε α} {answer : Except (Halt ε) α} {next : α → Work ε β}
    {after : α → Except (Halt ε) β} (first : Answers p work answer)
    (rest : ∀ a, Answers p (next a) (after a)) :
    Answers p (work >>= next) (answer >>= after) := by
  intro session sound
  obtain ⟨said, kept⟩ := first session sound
  rw [Work.run_bind]
  cases step : work session with
  | mk result left =>
    rw [step] at said kept
    subst said
    cases result with
    | ok a => exact rest a left kept
    | error halt => exact ⟨rfl, kept⟩

/-- Only what there is to go on from matters to what comes next. -/
theorem bind_ok {work : Work ε α} {a : α} {next : α → Work ε β} {answer : Except (Halt ε) β}
    (first : Answers p work (.ok a)) (rest : Answers p (next a) answer) :
    Answers p (work >>= next) answer := by
  intro session sound
  obtain ⟨said, kept⟩ := first session sound
  rw [Work.run_bind]
  cases step : work session with
  | mk result left =>
    rw [step] at said kept
    subst said
    exact rest left kept

theorem mapError {work : Work ε α} {answer : Except (Halt ε) α} (f : ε → δ)
    (first : Answers p work answer) :
    Answers p (work.mapError f) (answer.mapError (Halt.map f)) := by
  intro session sound
  obtain ⟨said, kept⟩ := first session sound
  unfold Work.mapError
  cases step : work session with
  | mk result left =>
    rw [step] at said kept
    subst said
    match result with
    | .ok a => exact ⟨rfl, kept⟩
    | .error (.error e) => exact ⟨rfl, kept⟩
    | .error (.breakdown message) => exact ⟨rfl, kept⟩

/-- The names of a module are those that its file says, remembered or not. -/
theorem exportsOf (p : Project) (module : Path) :
    Answers p (p.exportsOf module) ((p.extract module).map (·.names)) := by
  intro session sound
  rw [Project.exportsOf_run]
  cases known : session.cache.find? module with
  | some names =>
    obtain ⟨file, read⟩ := sound module names known
    rw [read]
    exact ⟨rfl, sound⟩
  | none =>
    cases read : p.extract module with
    | error halt => exact ⟨rfl, sound⟩
    | ok found => exact ⟨rfl, sound.store read⟩

/-- In a session in which nothing was done before, work answers so. -/
theorem run_fresh {work : Work ε α} {answer : Except (Halt ε) α} (h : Answers p work answer) :
    (work.run.run Session.fresh).1 = answer :=
  (h Session.fresh (Cache.sound_empty p)).1

end Answers

end RouteManifest
