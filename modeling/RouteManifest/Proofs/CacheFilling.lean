import Mathlib.Data.Finset.Card
import RouteManifest.Proofs.Answers

/-!
# How a cache is filled

What a cache comes to when modules are needed one after another: a module that it knows is not
read, and any other is read once and remembered. Names are known by place, so that two paths to the
same place count as one. A cache may know names that no file has; it keeps them.
-/

namespace RouteManifest

/-- The export names of a module: those that a cache remembers, or else those of its file. -/
def Project.namesIn (p : Project) (c : Cache) (module : Path) :
    Except (Halt ExtractError) (List String) :=
  match c.find? module with
  | some names => .ok names
  | none => (p.extract module).map (·.names)

namespace Cache

/-- The cache after modules were needed, one after another. -/
inductive Filled (p : Project) : Cache → List Path → Cache → Prop
  | done {c : Cache} : Filled p c [] c
  | known {before after : Cache} {module : Path} {names : List String} {rest : List Path}
      (known : before.find? module = some names) (others : Filled p before rest after) :
      Filled p before (module :: rest) after
  | read {before after : Cache} {module : Path} {found : Extract} {rest : List Path}
      (unknown : before.find? module = none) (read : p.extract module = .ok found)
      (others : Filled p (before.store module found.names) rest after) :
      Filled p before (module :: rest) after

/-- The places of those modules that a cache does not know. -/
def unknownPlaces (c : Cache) (modules : List Path) : Finset (List Component) :=
  ((modules.filter fun m => (c.find? m).isNone).map Path.components).toFinset

theorem find?_eq_of_same (c : Cache) {m n : Path} (h : m.same n = true) :
    c.find? m = c.find? n := by
  have agree : m.components = n.components := by simpa [Path.same] using h
  simp only [find?, Path.same, agree]

theorem mem_unknownPlaces_iff {c : Cache} {modules : List Path} {place : List Component} :
    place ∈ c.unknownPlaces modules ↔
      ∃ m ∈ modules, c.find? m = none ∧ m.components = place := by
  simp [unknownPlaces, and_assoc]

/-- Remembering what a file says changes no names. -/
theorem namesIn_store {p : Project} {c : Cache} {module : Path} {found : Extract}
    (unknown : c.find? module = none) (read : p.extract module = .ok found) (other : Path) :
    p.namesIn (c.store module found.names) other = p.namesIn c other := by
  rw [Project.namesIn, Project.namesIn, find?_store]
  by_cases same : module.same other = true
  · rw [if_pos same, ← c.find?_eq_of_same same, unknown,
      Project.extract_eq_ok_of_same same read]
    rfl
  · rw [if_neg same]

/-- A module at another place is as unknown as it was before one was read. -/
theorem find?_store_eq_none_iff {c : Cache} {module other : Path} {names : List String} :
    (c.store module names).find? other = none ↔
      module.components ≠ other.components ∧ c.find? other = none := by
  rw [find?_store]
  by_cases same : module.components = other.components
  · simp [Path.same, same]
  · simp [Path.same, same]

theorem unknownPlaces_cons_of_known {c : Cache} {module : Path} {names : List String}
    (known : c.find? module = some names) (rest : List Path) :
    c.unknownPlaces (module :: rest) = c.unknownPlaces rest := by
  ext place
  rw [mem_unknownPlaces_iff, mem_unknownPlaces_iff, List.exists_mem_cons_iff]
  simp [known]

/-- Once an unknown module was read, its place is the only one that is no longer unknown. -/
theorem unknownPlaces_cons_of_unknown {c : Cache} {module : Path}
    (unknown : c.find? module = none) (names : List String) (rest : List Path) :
    c.unknownPlaces (module :: rest) =
      insert module.components ((c.store module names).unknownPlaces rest) := by
  ext place
  rw [Finset.mem_insert, mem_unknownPlaces_iff, mem_unknownPlaces_iff, List.exists_mem_cons_iff]
  simp only [find?_store_eq_none_iff]
  constructor
  · rintro (⟨_, rfl⟩ | ⟨m, member, missing, rfl⟩)
    · exact Or.inl rfl
    · by_cases same : module.components = m.components
      · exact Or.inl same.symm
      · exact Or.inr ⟨m, member, ⟨same, missing⟩, rfl⟩
  · rintro (rfl | ⟨m, member, ⟨_, missing⟩, rfl⟩)
    · exact Or.inl ⟨unknown, rfl⟩
    · exact Or.inr ⟨m, member, missing, rfl⟩

theorem not_mem_unknownPlaces_store (c : Cache) (module : Path) (names : List String)
    (rest : List Path) : module.components ∉ (c.store module names).unknownPlaces rest := by
  rw [mem_unknownPlaces_iff]
  rintro ⟨m, _, missing, same⟩
  exact (find?_store_eq_none_iff.mp missing).1 same.symm

namespace Filled

variable {p : Project} {before after : Cache} {modules : List Path}

theorem append {between : Cache} {others : List Path} (first : Filled p before modules between)
    (rest : Filled p between others after) : Filled p before (modules ++ others) after := by
  induction first with
  | done => exact rest
  | known known _ ih => exact .known known (ih rest)
  | read unknown read _ ih => exact .read unknown read (ih rest)

theorem namesIn_eq (h : Filled p before modules after) (module : Path) :
    p.namesIn after module = p.namesIn before module := by
  induction h with
  | done => rfl
  | known _ _ ih => exact ih
  | read unknown read _ ih => rw [ih, namesIn_store unknown read]

/-- What is known afterwards was known before, or is what the file of a needed module says. -/
theorem find?_eq_some_iff (h : Filled p before modules after) {module : Path}
    {names : List String} :
    after.find? module = some names ↔
      before.find? module = some names ∨
        before.find? module = none ∧ (∃ m ∈ modules, m.same module = true) ∧
          ∃ file, p.extract module = .ok ⟨file, names⟩ := by
  induction h with
  | done => simp
  | @known before after needed told rest known others ih =>
    rw [ih, List.exists_mem_cons_iff]
    refine or_congr_right (and_congr_right fun unknown => and_congr_left fun _ => ?_)
    have apart : ¬ needed.same module = true := fun same => by
      rw [before.find?_eq_of_same same, unknown] at known
      cases known
    exact ⟨Or.inr, fun h => h.resolve_left apart⟩
  | @read before after needed found rest unknown read others ih =>
    rw [ih, find?_store, List.exists_mem_cons_iff]
    by_cases same : needed.same module = true
    · rw [if_pos same, ← before.find?_eq_of_same same, unknown]
      have reads := Project.extract_eq_ok_of_same same read
      simp only [reads, same, true_or, true_and, reduceCtorEq, false_and, or_false, false_or,
        Option.some.injEq, Except.ok.injEq]
      constructor
      · rintro rfl
        exact ⟨found.file, rfl⟩
      · rintro ⟨file, rfl⟩
        rfl
    · simp [same]

/-- Whatever is added is of another place than all that is known, and each place is added once. -/
theorem entries (h : Filled p before modules after) :
    ∃ added, after.entries = added ++ before.entries ∧
      after.extractions = before.extractions + added.length ∧
      (added.map fun e => e.1.components).Nodup ∧
      (added.map fun e => e.1.components).toFinset = before.unknownPlaces modules := by
  induction h with
  | done => exact ⟨[], rfl, rfl, List.nodup_nil, rfl⟩
  | @known before after needed told rest known others ih =>
    obtain ⟨added, entries, count, once, places⟩ := ih
    exact ⟨added, entries, count, once, places.trans (unknownPlaces_cons_of_known known rest).symm⟩
  | @read before after needed found rest unknown read others ih =>
    obtain ⟨added, entries, count, once, places⟩ := ih
    have new : needed.components ∉ added.map fun e => e.1.components := by
      rw [← List.mem_toFinset, places]
      exact not_mem_unknownPlaces_store before needed found.names rest
    refine ⟨added ++ [(needed, found.names)], ?_, ?_, ?_, ?_⟩
    · rw [entries, store, List.append_assoc]
      rfl
    · have stored : (before.store needed found.names).extractions = before.extractions + 1 := rfl
      rw [count, stored, List.length_append, List.length_singleton]
      omega
    · rw [List.map_append, List.nodup_append]
      refine ⟨once, List.nodup_singleton _, ?_⟩
      intro place inside last own same
      rw [same, List.mem_singleton.mp own] at inside
      exact new inside
    · rw [unknownPlaces_cons_of_unknown unknown found.names, ← places, List.map_append,
        List.toFinset_append, Finset.insert_eq, Finset.union_comm]
      rfl

end Filled

end Cache

end RouteManifest
