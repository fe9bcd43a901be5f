import RouteManifest.Proofs.Specifiers

/-!
# Normal paths and their endings

A normal path is the path of a place, and what it ends in is told by the last name of the place:
its extension, what stands before the extension, and the path with more text behind it. What a
directory and a path seen from it come to is normal whatever the path is written like.
-/

namespace RouteManifest

namespace Path

/-! ## Paths of places -/

/-- The normal paths are the paths of places. -/
theorem normal_iff {p : Path} :
    p.Normal ↔ ∃ names, (∀ s ∈ names, IsName s) ∧ p = ofPlace names := by
  constructor
  · intro normal
    obtain ⟨names, steps, written⟩ := normal.components
    refine ⟨names, fun s member => ?_, ?_⟩
    · refine isName_of_mem_components (p := p) ?_
      rw [steps]
      exact List.mem_cons_of_mem _ (List.mem_map_of_mem member)
    · rw [steps, ofComponents?, List.map_map] at written
      have texts : List.map (Component.text ∘ Component.name) = List.map id := rfl
      rw [texts, List.map_id] at written
      exact (Option.some.inj written).symm
  · rintro ⟨names, proper, rfl⟩
    exact normal_ofPlace proper

/-- The path of a place is the root, or it has a last name. -/
theorem Normal.root_or_named {p : Path} (normal : p.Normal) :
    p = ⟨"/"⟩ ∨ ∃ front last, (∀ s ∈ front, IsName s) ∧ IsName last ∧
      p = ofPlace (front ++ [last]) := by
  obtain ⟨names, proper, rfl⟩ := normal_iff.mp normal
  rcases List.eq_nil_or_concat names with rfl | ⟨front, last, rfl⟩
  · exact Or.inl (by decide)
  · rw [List.concat_eq_append, List.forall_mem_append, List.forall_mem_singleton] at proper
    exact Or.inr ⟨front, last, proper.1, proper.2, by rw [List.concat_eq_append]⟩

theorem text_ofPlace_ne_empty (names : List String) : (ofPlace names).text ≠ "" := by
  intro empty
  have led := congrArg String.toList empty
  simp [ofPlace] at led

/-- What stands before the last name in the path of a place. -/
def before (front : List String) : String := (ofPlace (front ++ [""])).text

theorem text_ofPlace_concat (front : List String) (last : String) :
    (ofPlace (front ++ [last])).text = before front ++ last := by
  unfold before ofPlace
  cases front with
  | nil => simp
  | cons first rest =>
    rw [String.intercalate_append_of_ne_nil (by simp) (by simp),
      String.intercalate_append_of_ne_nil (by simp) (by simp)]
    simp [String.append_assoc]

theorem before_toList (front : List String) : ∃ cs, (before front).toList = cs ++ ['/'] := by
  unfold before ofPlace
  cases front with
  | nil => exact ⟨[], by simp⟩
  | cons first rest =>
    rw [String.intercalate_append_of_ne_nil (by simp) (by simp)]
    exact ⟨'/' :: (String.intercalate "/" (first :: rest)).toList, by simp⟩

/-- Behind the path of a place that has a last name, a separator stands before the next. -/
theorem before_concat (front : List String) (last : String) :
    before (front ++ [last]) = (ofPlace (front ++ [last])).text ++ "/" := by
  rw [before, ofPlace, String.intercalate_append_of_ne_nil (by simp) (List.cons_ne_nil _ _)]
  simp [ofPlace, String.append_assoc]

theorem append_ofPlace (front : List String) (last more : String) :
    (ofPlace (front ++ [last])).append more = ofPlace (front ++ [last ++ more]) := by
  have text : ((ofPlace (front ++ [last])).append more).text =
      (ofPlace (front ++ [last ++ more])).text := by
    rw [append, text_ofPlace_concat, text_ofPlace_concat, String.append_assoc]
  exact congrArg mk text

theorem IsName.extended {s ending : String} (name : IsName s) (some_text : ending ≠ "")
    (plain : '/' ∉ ending.toList) : IsName (s ++ "." ++ ending) := by
  have long : 2 < (s ++ "." ++ ending).toList.length := by
    have own := List.length_pos_iff.mpr fun empty => name.1 (String.toList_eq_nil_iff.mp empty)
    have more := List.length_pos_iff.mpr fun empty => some_text (String.toList_eq_nil_iff.mp empty)
    simp only [String.toList_append, List.length_append]
    have dot : ".".toList.length = 1 := rfl
    omega
  refine ⟨?_, ?_, ?_, ?_⟩
  · intro same
    rw [same] at long
    exact absurd long (by decide)
  · intro same
    rw [same] at long
    exact absurd long (by decide)
  · intro same
    rw [same] at long
    exact absurd long (by decide)
  · have apart := name.2.2.2
    simp [apart, plain]

/-- A name behind the path of a place leads one step further. -/
theorem join_ofPlace {names : List String} (proper : ∀ s ∈ names, IsName s) {s : String}
    (name : IsName s) : (ofPlace names).join ⟨s⟩ = ofPlace (names ++ [s]) := by
  have relative : (Path.mk s).isAbsolute = false := by
    unfold isAbsolute
    split
    · rename_i cs led
      exact absurd (by rw [led]; exact List.mem_cons_self) name.2.2.2
    · rfl
  rcases List.eq_nil_or_concat names with rfl | ⟨front, last, rfl⟩
  · rw [join, relative]
    simp [ofPlace]
  · rw [List.concat_eq_append] at proper ⊢
    have own := proper last (by simp)
    have named : last.toList ≠ [] := fun empty => own.1 (String.toList_eq_nil_iff.mp empty)
    have final : (ofPlace (front ++ [last])).text.toList.getLast? =
        some (last.toList.getLast named) := by
      rw [text_ofPlace_concat, String.toList_append, List.getLast?_append_of_ne_nil _ named,
        List.getLast?_eq_some_getLast named]
    have apart : last.toList.getLast named ≠ '/' := fun same =>
      own.2.2.2 (same ▸ List.getLast_mem named)
    have joined : (ofPlace (front ++ [last])).join ⟨s⟩ =
        ⟨(ofPlace (front ++ [last])).text ++ "/" ++ s⟩ := by
      rw [join, relative, if_neg Bool.false_ne_true, final]
      split
      · rename_i closed
        cases closed
      · rename_i closed
        exact absurd (Option.some.inj closed) apart
      · rfl
    rw [joined, ← before_concat, ← text_ofPlace_concat]

/-! ## Extensions -/

theorem drop_length_takeWhile {α : Type} (p : α → Bool) (xs : List α) :
    xs.drop (xs.takeWhile p).length = xs.dropWhile p := by
  have parted := congrArg (List.drop (xs.takeWhile p).length)
    (List.takeWhile_append_dropWhile (p := p) (l := xs))
  rw [List.drop_left] at parted
  exact parted.symm

/-- A name is split before an ending without dots, if something stands before the dot. -/
theorem splitName_eq_some_iff {name stem ending : String} :
    splitName name = (stem, some ending) ↔
      name = stem ++ "." ++ ending ∧ '.' ∉ ending.toList ∧ stem ≠ "" := by
  unfold splitName
  simp only [drop_length_takeWhile]
  have parted := List.takeWhile_append_dropWhile (p := fun c => decide (c ≠ '.'))
    (l := name.toList.reverse)
  constructor
  · intro h
    have plain : '.' ∉ (name.toList.reverse.takeWhile fun c => decide (c ≠ '.')) := fun dotted => by
      simpa using List.all_eq_true.mp List.all_takeWhile _ dotted
    have stop := List.head_dropWhile_not (fun c => decide (c ≠ '.')) (l := name.toList.reverse)
    split at h
    · cases h
    · rename_i d front rest
      rw [rest] at parted
      simp only [rest, List.head_cons, decide_eq_false_iff_not, not_not] at stop
      have dot : d = '.' := stop (List.cons_ne_nil d front)
      subst dot
      split at h
      · cases h
      · rename_i some_text
        cases h
        refine ⟨?_, ?_, ?_⟩
        · rw [← String.toList_inj, ← List.reverse_inj]
          simpa using parted.symm
        · simpa using plain
        · intro empty
          exact some_text (by simpa using congrArg String.toList empty)
  · rintro ⟨rfl, plain, some_text⟩
    have back : (stem ++ "." ++ ending).toList.reverse =
        ending.toList.reverse ++ '.' :: stem.toList.reverse := by simp
    have passed : ∀ c ∈ ending.toList.reverse, decide (c ≠ '.') = true := by
      intro c member
      rw [decide_eq_true_eq]
      rintro rfl
      exact plain (List.mem_reverse.mp member)
    have named : stem.toList ≠ [] := fun empty => some_text (String.toList_eq_nil_iff.mp empty)
    rw [back, List.dropWhile_append_of_pos passed, List.takeWhile_append_of_pos passed]
    simp [named]

theorem pieceComponent_of_isName {s : String} (name : IsName s) (leading : Bool) :
    pieceComponent leading s.toList = some (.name s) := by
  obtain ⟨some_text, not_here, not_up, -⟩ := name
  have here : s.toList ≠ ['.'] := fun same => not_here (String.toList_inj.mp same)
  have up : s.toList ≠ ['.', '.'] := fun same => not_up (String.toList_inj.mp same)
  simp [pieceComponent, some_text, here, up]

theorem go_concat (i : Nat) (leading : Bool) (ps : List (List Char)) (piece : List Char) :
    numberedComponents.go i leading (ps ++ [piece]) =
      numberedComponents.go i leading ps ++
        (pieceComponent (leading && ps.isEmpty) piece).toList.map
          fun c => (i + ps.length + 1, c) := by
  induction ps generalizing i leading with
  | nil => cases own : pieceComponent leading piece <;> simp [numberedComponents.go, own]
  | cons first rest ih =>
    have count : i + 1 + rest.length + 1 = i + (rest.length + 1) + 1 := by omega
    rw [List.cons_append, numberedComponents.go, numberedComponents.go]
    cases pieceComponent leading first with
    | none => simp [ih, count]
    | some c => simp [ih, count]

variable {front : List String} {last : String}

theorem proper_concat (proper : ∀ s ∈ front, IsName s) (name : IsName last) :
    ∀ s ∈ front ++ [last], IsName s :=
  List.forall_mem_append.mpr ⟨proper, List.forall_mem_singleton.mpr name⟩

theorem pieces_concat (proper : ∀ s ∈ front, IsName s) (name : IsName last) :
    pieces (ofPlace (front ++ [last])).text.toList = [] :: (front ++ [last]).map String.toList :=
  pieces_ofPlace (proper_concat proper name)
    (List.append_ne_nil_of_right_ne_nil _ (List.cons_ne_nil _ _))

/-- The last name of a place is the last component of its path. -/
theorem getLast?_numberedComponents_ofPlace (proper : ∀ s ∈ front, IsName s) (name : IsName last) :
    (ofPlace (front ++ [last])).numberedComponents.getLast? =
      some (front.length + 2, .name last) := by
  have parted := pieces_concat proper name
  have split : [] :: (front ++ [last]).map String.toList =
      ([] :: front.map String.toList) ++ [last.toList] := by simp
  rw [numberedComponents, parted, split, go_concat, pieceComponent_of_isName name]
  simp

theorem extension?_ofPlace (proper : ∀ s ∈ front, IsName s) (name : IsName last) :
    (ofPlace (front ++ [last])).extension? = (splitName last).2 := by
  rw [extension?, fileName?, getLast?_numberedComponents_ofPlace proper name]
  rfl

theorem withoutExtension_ofPlace (proper : ∀ s ∈ front, IsName s) (name : IsName last) :
    (ofPlace (front ++ [last])).withoutExtension = ofPlace (front ++ [(splitName last).1]) := by
  have directory : (ofPlace (front ++ [last])).slice 0 (front.length + 1) ++ "/" =
      before front := by
    have chosen : ([] :: (front ++ [last]).map String.toList).take (front.length + 1) =
        [] :: front.map String.toList := by
      simp
    rw [slice, pieces_concat proper name, chosen, List.drop_zero, ← String.toList_inj]
    unfold before ofPlace
    cases front with
    | nil => simp
    | cons first rest =>
      rw [String.intercalate_append_of_ne_nil (by simp) (by simp)]
      simp [String.toList_intercalate]
  have text : (ofPlace (front ++ [last])).withoutExtension.text =
      before front ++ (splitName last).1 := by
    rw [withoutExtension, getLast?_numberedComponents_ofPlace proper name, ← directory]
    simp
  rw [← text_ofPlace_concat] at text
  exact congrArg mk text

/-- What stands before a dot and an ending in a path, if a name goes on up to there. -/
def beforeEnding? (p : Path) (ending : String) : Option Path :=
  let front := p.text.toList.take (p.text.length - ("." ++ ending).length)
  if front ++ '.' :: ending.toList = p.text.toList ∧ front.getLast?.any (· ≠ '/') then
    some ⟨String.ofList front⟩
  else none

theorem beforeEnding?_eq_some_iff {p q : Path} {ending : String} :
    p.beforeEnding? ending = some q ↔
      p.text = q.text ++ ("." ++ ending) ∧ ∃ c, q.text.toList.getLast? = some c ∧ c ≠ '/' := by
  simp only [beforeEnding?, Option.any_eq_true, decide_eq_true_eq]
  constructor
  · intro h
    obtain ⟨⟨whole, named⟩, same⟩ := Option.ite_none_right_eq_some.mp h
    cases same
    refine ⟨?_, by rwa [String.toList_ofList]⟩
    rw [← String.toList_inj, String.toList_append, String.toList_ofList, String.toList_append]
    exact whole.symm
  · rintro ⟨whole, named⟩
    have front : p.text.toList.take (p.text.length - ("." ++ ending).length) = q.text.toList := by
      rw [whole, String.toList_append, String.length_append, Nat.add_sub_cancel]
      exact List.take_left' String.length_toList
    rw [front, if_pos ⟨by simp [whole], named⟩, String.ofList_toList]

/-- The path of a place has an ending behind a name if its last name has it as its extension. -/
theorem beforeEnding?_ofPlace (name : IsName last) {ending : String} (plain : '.' ∉ ending.toList)
    (inside : '/' ∉ ending.toList) {q : Path} :
    (ofPlace (front ++ [last])).beforeEnding? ending = some q ↔
      ∃ stem, splitName last = (stem, some ending) ∧ q = ofPlace (front ++ [stem]) := by
  obtain ⟨cs, closed⟩ := before_toList front
  rw [beforeEnding?_eq_some_iff, text_ofPlace_concat]
  constructor
  · rintro ⟨whole, c, final, apart⟩
    have named : ∀ back, q.text.toList ≠ back ++ ['/'] := by
      intro back same
      rw [same, List.getLast?_concat] at final
      exact apart (Option.some.inj final).symm
    have lists := congrArg String.toList whole
    rw [String.toList_append, String.toList_append, String.toList_append, closed,
      List.append_eq_append_iff] at lists
    rcases lists with ⟨more, own, rest⟩ | ⟨more, above, rest⟩
    · refine ⟨String.ofList more, splitName_eq_some_iff.mpr ⟨?_, plain, ?_⟩, ?_⟩
      · rw [← String.toList_inj, rest]
        simp
      · intro empty
        have none_left : more = [] := by simpa using congrArg String.toList empty
        rw [none_left, List.append_nil] at own
        exact named cs own
      · have text : q.text = (ofPlace (front ++ [String.ofList more])).text := by
          rw [text_ofPlace_concat, ← String.toList_inj, own]
          simp [closed]
        exact congrArg mk text
    · -- the separator before the last name would be part of the ending
      rcases List.eq_nil_or_concat more with rfl | ⟨others, d, rfl⟩
      · rw [List.append_nil] at above
        exact absurd above.symm (named cs)
      · rw [List.concat_eq_append, ← List.append_assoc] at above
        have separator : [d] = ['/'] := (List.append_inj_right' above rfl).symm
        have among : '/' ∈ ".".toList ++ ending.toList := by
          rw [rest, (List.cons.inj separator).1]
          simp
        simp [inside] at among
  · rintro ⟨stem, split, rfl⟩
    obtain ⟨rfl, -, some_text⟩ := splitName_eq_some_iff.mp split
    have named : stem.toList ≠ [] := fun empty => some_text (String.toList_eq_nil_iff.mp empty)
    rw [text_ofPlace_concat]
    refine ⟨by simp [String.append_assoc], stem.toList.getLast named, ?_, ?_⟩
    · rw [String.toList_append, List.getLast?_append_of_ne_nil _ named,
        List.getLast?_eq_some_getLast named]
    · intro separator
      have among := List.getLast_mem named
      rw [separator] at among
      exact name.2.2.2 (by simp [among])

/-- The absolute path that a path means when it is seen from a directory, by names alone. -/
def seenFrom (p base : Path) : Path :=
  .ofPlace (placeOf (if p.isAbsolute then p.components else base.components ++ p.components))

/-- What a path seen from a normal directory resolves to. -/
theorem Normal.resolve?_seenFrom {base : Path} (normal : base.Normal) (p : Path) :
    p.resolve? base = some (p.seenFrom base) := by
  unfold seenFrom
  cases absolute : p.isAbsolute with
  | true =>
    rw [if_pos rfl, resolve?_of_absolute absolute, components_of_absolute absolute]
    exact reached?_eq [] (root_not_mem_stepsOf _ _)
  | false =>
    obtain ⟨names, start, -⟩ := normal.components
    rw [if_neg Bool.false_ne_true, resolve?_of_relative normal absolute, start, List.reverse_cons,
      reached?_eq names (root_not_mem_of_relative absolute), placeOf, List.foldl_append,
      ← placeOf, placeOf_names]

theorem normal_seenFrom (p base : Path) : (p.seenFrom base).Normal := by
  refine normal_placeOf fun s member => ?_
  split at member
  · exact isName_of_mem_components member
  · rcases List.mem_append.mp member with above | own
    · exact isName_of_mem_components above
    · exact isName_of_mem_components own

end Path

end RouteManifest
