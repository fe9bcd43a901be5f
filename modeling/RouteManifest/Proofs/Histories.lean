import RouteManifest.Proofs.CacheFilling

/-!
# Requests to one cache while files change

Modules are asked for one after another in one session, and between two requests the files may
change in any way. What is answered is told by the requests before and by the answers to them: the
first success at a place is repeated for ever, whatever became of the file since; as long as there
is none, each request reads the file as it is by then. An error is not remembered, so that a file
that was repaired is seen.
-/

namespace RouteManifest

/-- A place that is not known is none of those with an entry. -/
theorem Cache.not_mem_of_find?_eq_none {c : Cache} {module : Path}
    (unknown : c.find? module = none) :
    module.components ∉ c.entries.map fun e => e.1.components := by
  intro member
  obtain ⟨entry, inside, same⟩ := List.mem_map.mp member
  rw [Cache.find?, Option.map_eq_none_iff, List.find?_eq_none] at unknown
  exact unknown entry inside (by simpa [Path.same] using same)

/-- A request for the exports of a module, and the files as they are when it is made. -/
structure Request where
  files : FileTree
  module : Path

/-- The names of a module, or why there are none. -/
abbrev Answer := Except (Halt ExtractError) (List String)

namespace Request

/-- What the file of the module says at the time of the request, with no cache in between. -/
def reading (root : Path) (r : Request) : Answer :=
  ((Project.mk r.files root).extract r.module).map (·.names)

/-- The request as it is made in a session. -/
def ask (root : Path) (r : Request) : Work ExtractError (List String) :=
  (Project.mk r.files root).exportsOf r.module

variable {root : Path} {r : Request} {session : Session}

theorem ask_of_known {names : List String} (known : session.cache.find? r.module = some names) :
    (r.ask root session).1 = .ok names ∧ (r.ask root session).2.cache = session.cache := by
  rw [ask, Project.exportsOf_run, known]
  exact ⟨rfl, rfl⟩

theorem ask_of_unread {halt : Halt ExtractError} (unknown : session.cache.find? r.module = none)
    (unread : r.reading root = .error halt) :
    (r.ask root session).1 = .error halt ∧ (r.ask root session).2.cache = session.cache := by
  rw [ask, Project.exportsOf_run, unknown]
  rw [reading] at unread
  cases found : (Project.mk r.files root).extract r.module with
  | error other =>
    rw [found] at unread
    cases unread
    exact ⟨rfl, rfl⟩
  | ok extract =>
    rw [found] at unread
    cases unread

theorem ask_of_read {names : List String} (unknown : session.cache.find? r.module = none)
    (read : r.reading root = .ok names) :
    (r.ask root session).1 = .ok names ∧
      (r.ask root session).2.cache = session.cache.store r.module names := by
  rw [ask, Project.exportsOf_run, unknown]
  obtain ⟨found, told, rfl⟩ := map_eq_ok_iff.mp read
  rw [told]
  exact ⟨rfl, rfl⟩

end Request

/-- A request and the answer to it. -/
structure Exchange where
  request : Request
  answer : Answer

/-- The names that were the first to be answered for a place, if the module was ever read. -/
def firstSuccess? (exchanges : List Exchange) (module : Path) : Option (List String) :=
  exchanges.findSome? fun e => if e.request.module.same module then e.answer.toOption else none

/-- What was asked and answered in a session, in order, and what the session has come to. -/
structure History where
  exchanges : List Exchange
  session : Session

namespace History

/-- Nothing was asked yet. -/
def begun : History := ⟨[], .fresh⟩

/-- One more request is made and answered. -/
def next (root : Path) (h : History) (r : Request) : History :=
  ⟨h.exchanges ++ [⟨r, (r.ask root h.session).1⟩], (r.ask root h.session).2⟩

/-- All that comes of requests that are made one after another. -/
def ofRequests (root : Path) (requests : List Request) : History :=
  requests.foldl (next root) begun

/-- What holds at the beginning and is kept by each request holds of every history. -/
theorem ofRequests_induction {root : Path} {P : History → Prop} (start : P begun)
    (step : ∀ h r, P h → P (h.next root r)) (requests : List Request) :
    P (ofRequests root requests) :=
  List.foldlRecOn requests (next root) start fun h holds r _ => step h r holds

theorem requests_next (root : Path) (h : History) (r : Request) :
    (h.next root r).exchanges.map (·.request) = h.exchanges.map (·.request) ++ [r] := by
  simp [next]

theorem requests_ofRequests (root : Path) (requests : List Request) :
    (ofRequests root requests).exchanges.map (·.request) = requests := by
  suffices ∀ h : History, (requests.foldl (next root) h).exchanges.map (·.request) =
      h.exchanges.map (·.request) ++ requests from this begun
  induction requests with
  | nil => simp
  | cons r rest ih =>
    intro h
    rw [List.foldl_cons, ih, requests_next, List.append_assoc, List.singleton_append]

/-- The cache is what the exchanges have made of it: it knows the first success at each place and
nothing else, and it has counted one reading for each place that it knows. -/
structure Lawful (h : History) : Prop where
  remembered : ∀ module, h.session.cache.find? module = firstSuccess? h.exchanges module
  counted : h.session.cache.extractions = h.session.cache.entries.length
  apart : (h.session.cache.entries.map fun e => e.1.components).Nodup

theorem firstSuccess?_append (exchanges : List Exchange) (e : Exchange) (module : Path) :
    firstSuccess? (exchanges ++ [e]) module =
      (firstSuccess? exchanges module).or
        (if e.request.module.same module then e.answer.toOption else none) := by
  simp [firstSuccess?, List.findSome?_append]

theorem lawful_begun : Lawful begun := ⟨fun _ => rfl, rfl, List.nodup_nil⟩

/-- A request leaves a lawful history lawful, whether the module is known, can be read or
neither. -/
theorem Lawful.next {h : History} (lawful : h.Lawful) (root : Path) (r : Request) :
    (h.next root r).Lawful := by
  cases known : h.session.cache.find? r.module with
  | some names =>
    have kept : (r.ask root h.session).2.cache = h.session.cache :=
      (Request.ask_of_known known).2
    refine ⟨fun module => ?_, ?_, ?_⟩
    · rw [History.next, kept, lawful.remembered, firstSuccess?_append]
      by_cases same : r.module.same module = true
      · rw [← lawful.remembered module, ← h.session.cache.find?_eq_of_same same, known]
        rfl
      · rw [if_neg same, Option.or_none]
    · exact kept ▸ lawful.counted
    · exact kept ▸ lawful.apart
  | none =>
    cases reading : r.reading root with
    | error halt =>
      obtain ⟨told, kept⟩ := Request.ask_of_unread known reading
      refine ⟨fun module => ?_, ?_, ?_⟩
      · rw [History.next, kept, lawful.remembered, firstSuccess?_append, told]
        simp [Except.toOption]
      · exact kept ▸ lawful.counted
      · exact kept ▸ lawful.apart
    | ok names =>
      obtain ⟨told, kept⟩ := Request.ask_of_read known reading
      refine ⟨fun module => ?_, ?_, ?_⟩
      · rw [History.next, kept, Cache.find?_store, lawful.remembered, firstSuccess?_append, told]
        by_cases same : r.module.same module = true
        · rw [← lawful.remembered module, ← h.session.cache.find?_eq_of_same same, known]
          simp [same, Except.toOption]
        · simp [same]
      · rw [History.next, kept]
        exact congrArg (· + 1) lawful.counted
      · rw [History.next, kept]
        exact List.nodup_cons.mpr ⟨Cache.not_mem_of_find?_eq_none known, lawful.apart⟩

theorem lawful_ofRequests (root : Path) (requests : List Request) :
    (ofRequests root requests).Lawful :=
  ofRequests_induction lawful_begun (fun _ r lawful => lawful.next root r) requests

/-- As long as the files stay as they are, the cache is sound and every answer is that of the files
without it. -/
def Faithful (root : Path) (files : FileTree) (h : History) : Prop :=
  (∀ e ∈ h.exchanges, e.request.files = files) →
    h.session.cache.Sound ⟨files, root⟩ ∧ ∀ e ∈ h.exchanges, e.answer = e.request.reading root

theorem faithful_begun (root : Path) (files : FileTree) : Faithful root files begun :=
  fun _ => ⟨Cache.sound_empty _, fun _ h => (nomatch h)⟩

theorem Faithful.next {root : Path} {files : FileTree} {h : History}
    (faithful : Faithful root files h) (r : Request) : Faithful root files (h.next root r) := by
  intro unchanged
  have before : ∀ e ∈ h.exchanges, e.request.files = files := fun e member =>
    unchanged e (List.mem_append_left _ member)
  have now : r.files = files := unchanged _ (List.mem_append_right _ (List.mem_singleton.mpr rfl))
  obtain ⟨sound, answers⟩ := faithful before
  subst now
  obtain ⟨told, left⟩ := Answers.exportsOf ⟨r.files, root⟩ r.module h.session sound
  refine ⟨left, ?_⟩
  intro e member
  rcases List.mem_append.mp member with earlier | latest
  · exact answers e earlier
  · rw [List.mem_singleton.mp latest]
    exact told

theorem faithful_ofRequests (root : Path) (files : FileTree) (requests : List Request) :
    Faithful root files (ofRequests root requests) :=
  ofRequests_induction (faithful_begun root files) (fun _ r faithful => faithful.next r) requests

/-- What a request is answered after any requests before it, with any change of the files from one
to the next. If the place was read with success before, then the names are those of the first such
answer, and nothing changes. If it was not, then the answer is that of the files as they are now;
names are remembered, and with an error nothing changes. The cache has always counted as many
readings as it has places, no place twice; and if the files were the same throughout, then all
answers, names and errors, are those of the files without a cache. -/
theorem ask_of_ofRequests (root : Path) (requests : List Request) (r : Request) :
    let h := ofRequests root requests
    let answer := (r.ask root h.session).1
    let cache := (r.ask root h.session).2.cache
    h.exchanges.map (·.request) = requests ∧
    (∀ names, firstSuccess? h.exchanges r.module = some names →
      answer = .ok names ∧ cache = h.session.cache) ∧
    (firstSuccess? h.exchanges r.module = none →
      answer = r.reading root ∧
      (∀ halt, answer = .error halt → cache = h.session.cache) ∧
      (∀ names, answer = .ok names → cache = h.session.cache.store r.module names)) ∧
    (h.session.cache.extractions = h.session.cache.entries.length ∧
      (h.session.cache.entries.map fun e => e.1.components).Nodup) ∧
    (∀ files, (∀ q ∈ requests, q.files = files) →
      ∀ e ∈ h.exchanges, e.answer = e.request.reading root) := by
  intro h answer cache
  have lawful : h.Lawful := lawful_ofRequests root requests
  have asked : h.exchanges.map (·.request) = requests := requests_ofRequests root requests
  refine ⟨asked, ?_, ?_, ⟨lawful.counted, lawful.apart⟩, ?_⟩
  · intro names first
    exact Request.ask_of_known ((lawful.remembered r.module).trans first)
  · intro never
    have unknown := (lawful.remembered r.module).trans never
    cases reading : r.reading root with
    | error halt =>
      obtain ⟨told, kept⟩ := Request.ask_of_unread unknown reading
      refine ⟨told, fun _ _ => kept, fun names read => ?_⟩
      cases told.symm.trans read
    | ok names =>
      obtain ⟨told, kept⟩ := Request.ask_of_read unknown reading
      refine ⟨told, fun halt unread => ?_, fun others read => ?_⟩
      · cases told.symm.trans unread
      · cases told.symm.trans read
        exact kept
  · intro files unchanged e member
    refine (faithful_ofRequests root files requests ?_).2 e member
    intro e member
    exact unchanged _ (asked ▸ List.mem_map_of_mem member)

/-- Files of which `m` is the only one, or is missing. -/
def lonelyFiles (text : Option String) : FileTree :=
  ⟨text.toList.map fun t => (["m.ts"], .file t.toUTF8), []⟩

/-- A file that appears is seen, and its first names stay when it changes or goes away. -/
example :
    ((ofRequests ⟨"/"⟩ [⟨lonelyFiles none, ⟨"/m"⟩⟩, ⟨lonelyFiles (some "export let a"), ⟨"/m"⟩⟩,
        ⟨lonelyFiles (some "export let b"), ⟨"/./m/"⟩⟩, ⟨lonelyFiles none, ⟨"//m"⟩⟩]).exchanges.map
      (·.answer.toOption)) = [none, some ["a"], some ["a"], some ["a"]] := by
  decide +kernel

end History

end RouteManifest
