import RecordSearch.Settings.Merge

/-! Which file a setting comes from. The files are given with the highest precedence first and laid over the
    defaults from the last to the first. If all choices in them mean something, each setting is that of
    the first file that gives it, or else the default (`Effective`). Otherwise the last file with a
    choice that means nothing is refused for it, whatever stands before it (`merge_precedence`). -/

namespace RecordSearch.Settings

/-! ### What a file gives -/

/-- A text is accepted for a choice if it is one of the names to choose from, in small or capital
    letters. -/
def Choice.Accepts : Choice → String → Prop
  | comparator, text => ∃ kind : ComparatorKind, lowerAscii text = kind.name
  | scoreMode, text => ∃ mode, lowerAscii text = scoreModeName mode

namespace Source

variable {α : Type}

/-- What a file gives for a search setting. -/
def searching (get : SearchLayer → Option α) (s : Source) : Option α := s.layer.search.bind get

/-- What a file gives for a setting of the fuzzy comparator. -/
def matching (get : FuzzyLayer → Option α) (s : Source) : Option α := s.layer.fuzzy.bind get

/-- The text that a file gives for a choice. -/
def chosen : Choice → Source → Option String
  | .comparator => searching SearchLayer.comparator
  | .scoreMode => searching SearchLayer.scoreMode

/-- All choices of a file mean something. -/
def Valid (s : Source) : Prop := ∀ choice, ∀ text ∈ s.chosen choice, choice.Accepts text

/-- A file is refused for its comparator, or if there is nothing against that for its score mode. -/
inductive Refused (s : Source) : InvalidChoice → Prop
  | comparator {text : String} (given : s.chosen .comparator = some text)
      (refused : ¬ Choice.comparator.Accepts text) : Refused s ⟨s.path, .comparator, text⟩
  | scoreMode {text : String} (accepted : ∀ text ∈ s.chosen .comparator, Choice.comparator.Accepts text)
      (given : s.chosen .scoreMode = some text) (refused : ¬ Choice.scoreMode.Accepts text) :
      Refused s ⟨s.path, .scoreMode, text⟩

end Source

/-- The first thing that any of the files gives for a setting. -/
def first {α : Type} (given : Source → Option α) (sources : List Source) : Option α :=
  sources.findSome? given

/-- Each setting is that of the first file that gives it, or else the default. -/
structure Takes (sources : List Source) (values : Values) : Prop where
  comparator : values.search.comparator.name =
    ((first (Source.chosen .comparator) sources).map lowerAscii).getD
      Values.default.search.comparator.name
  recovery : values.search.recovery =
    (first (Source.searching SearchLayer.recovery) sources).getD Values.default.search.recovery
  scoreMode : scoreModeName values.search.scoreMode =
    ((first (Source.chosen .scoreMode) sources).map lowerAscii).getD
      (scoreModeName Values.default.search.scoreMode)
  limit : values.search.limit =
    (first (Source.searching SearchLayer.limit) sources).getD Values.default.search.limit
  index : values.search.index =
    (first (Source.searching SearchLayer.index) sources).getD Values.default.search.index
  maxDistance : values.fuzzy.maxDistance =
    (first (Source.matching FuzzyLayer.maxDistance) sources).getD Values.default.fuzzy.maxDistance
  transpositions : values.fuzzy.transpositions =
    (first (Source.matching FuzzyLayer.transpositions) sources).getD
      Values.default.fuzzy.transpositions

/-- A configuration has the settings that files give, the directory of the first file, and the paths of
    all in order. -/
structure Effective (sources : List Source) (config : Config) : Prop where
  settings : Takes sources config.settings
  root : config.root = sources.head?.bind fun s => Files.parent s.path
  sources : config.sources = sources.map Source.path

/-! ### Choices -/

theorem find?_name_eq_some_iff {α : Type} {name : α → String} (hname : Function.Injective name)
    {xs : List α} {x : α} (hx : x ∈ xs) {text : String} :
    (xs.find? fun y => name y == text) = some x ↔ text = name x := by
  constructor
  · intro h
    exact (beq_iff_eq.mp (List.find?_some (p := fun y => name y == text) h)).symm
  · rintro rfl
    obtain ⟨y, hy⟩ := Option.isSome_iff_exists.mp
      (List.find?_isSome (p := fun y => name y == name x) |>.mpr ⟨x, hx, beq_self_eq_true _⟩)
    rw [hy, hname (beq_iff_eq.mp (List.find?_some (p := fun y => name y == name x) hy))]

theorem ofName?_eq_some_iff {text : String} {kind : ComparatorKind} :
    ComparatorKind.ofName? text = some kind ↔ lowerAscii text = kind.name := by
  have hname : Function.Injective ComparatorKind.name := by
    rintro (_ | _) (_ | _) h <;> first | rfl | exact absurd h (by decide)
  exact find?_name_eq_some_iff hname (by cases kind <;> simp)

theorem scoreModeOfName?_eq_some_iff {text : String} {mode : Search.ScoreMode} :
    scoreModeOfName? text = some mode ↔ lowerAscii text = scoreModeName mode := by
  have hname : Function.Injective scoreModeName := by
    rintro (_ | _) (_ | _) h <;> first | rfl | exact absurd h (by decide)
  exact find?_name_eq_some_iff hname (by cases mode <;> simp)

section Choose

variable {α : Type} {path : String} {choice : Choice} {ofName? : String → Option α}
  {name : α → String} {current : α} {given : Option String}

/-- A choice that means something, if it is given, is made. -/
theorem choose_eq_ok (hname : ∀ {text x}, ofName? text = some x ↔ lowerAscii text = name x)
    (h : ∀ text ∈ given, ∃ x, lowerAscii text = name x) :
    ∃ x, choose path choice ofName? current given = .ok x ∧
      name x = (given.map lowerAscii).getD (name current) := by
  cases given with
  | none => exact ⟨current, rfl, rfl⟩
  | some text =>
    obtain ⟨x, hx⟩ := h text rfl
    refine ⟨x, ?_, hx.symm⟩
    rw [choose, hname.mpr hx]

/-- A choice that means nothing is refused. -/
theorem choose_eq_error (hname : ∀ {text x}, ofName? text = some x ↔ lowerAscii text = name x)
    {text : String} (h : ¬ ∃ x, lowerAscii text = name x) :
    choose path choice ofName? current (some text) = .error ⟨path, choice, text⟩ := by
  have hnone : ofName? text = none := by
    rw [Option.eq_none_iff_forall_ne_some]
    exact fun x hx => h ⟨x, hname.mp hx⟩
  rw [choose, hnone]

end Choose

/-! ### Laying files over settings -/

section Over

variable {values : Values} {s : Source} {rest : List Source}

/-- Settings with those of a file over them, where the file has a section or not. -/
theorem over_eq : values.over s = (do
    let comparator ← choose s.path .comparator ComparatorKind.ofName? values.search.comparator
      (s.chosen .comparator)
    let scoreMode ← choose s.path .scoreMode scoreModeOfName? values.search.scoreMode
      (s.chosen .scoreMode)
    .ok ⟨⟨comparator, (s.searching SearchLayer.recovery).getD values.search.recovery, scoreMode,
        (s.searching SearchLayer.limit).getD values.search.limit,
        (s.searching SearchLayer.index).getD values.search.index⟩,
      ⟨(s.matching FuzzyLayer.maxDistance).getD values.fuzzy.maxDistance,
        (s.matching FuzzyLayer.transpositions).getD values.fuzzy.transpositions⟩⟩) := by
  obtain ⟨path, root, search, fuzzy⟩ := s
  rcases search with _ | search <;> rcases fuzzy with _ | fuzzy <;>
    simp only [Values.over, SearchSettings.over, bind_assoc] <;> rfl

theorem first_cons {α : Type} (given : Source → Option α) (default : α) :
    (first given (s :: rest)).getD default = (given s).getD ((first given rest).getD default) := by
  rw [first, List.findSome?_cons]
  cases given s <;> rfl

theorem first_cons_map {α β : Type} (given : Source → Option α) (f : α → β) (default : β) :
    ((first given (s :: rest)).map f).getD default =
      ((given s).map f).getD (((first given rest).map f).getD default) := by
  rw [first, List.findSome?_cons]
  cases given s <;> rfl

/-- A file whose choices mean something takes precedence over the files after it. -/
theorem over_valid (hvalid : s.Valid) (h : Takes rest values) :
    ∃ values', values.over s = .ok values' ∧ Takes (s :: rest) values' := by
  obtain ⟨comparator, hcomparator, hcomparatorName⟩ :
      ∃ kind, choose s.path .comparator ComparatorKind.ofName? values.search.comparator
          (s.chosen .comparator) = .ok kind ∧
        kind.name = ((s.chosen .comparator).map lowerAscii).getD values.search.comparator.name :=
    choose_eq_ok ofName?_eq_some_iff (hvalid .comparator)
  obtain ⟨scoreMode, hscoreMode, hscoreModeName⟩ :
      ∃ mode, choose s.path .scoreMode scoreModeOfName? values.search.scoreMode
          (s.chosen .scoreMode) = .ok mode ∧
        scoreModeName mode =
          ((s.chosen .scoreMode).map lowerAscii).getD (scoreModeName values.search.scoreMode) :=
    choose_eq_ok scoreModeOfName?_eq_some_iff (hvalid .scoreMode)
  rw [over_eq, hcomparator, hscoreMode]
  refine ⟨_, rfl, ?_⟩
  constructor
  case comparator => rw [first_cons_map, ← h.comparator]; exact hcomparatorName
  case recovery => rw [first_cons, ← h.recovery]
  case scoreMode => rw [first_cons_map, ← h.scoreMode]; exact hscoreModeName
  case limit => rw [first_cons, ← h.limit]
  case index => rw [first_cons, ← h.index]
  case maxDistance => rw [first_cons, ← h.maxDistance]
  case transpositions => rw [first_cons, ← h.transpositions]

theorem exists_given_not {α : Type} {p : α → Prop} {given : Option α} (h : ¬ ∀ x ∈ given, p x) :
    ∃ x, given = some x ∧ ¬ p x := by
  obtain ⟨x, hx⟩ := Classical.not_forall.mp h
  exact ⟨x, Classical.not_imp.mp hx⟩

/-- A file with a choice that means nothing is refused, whatever settings it is laid over. -/
theorem over_refused (values : Values) (h : ¬ s.Valid) :
    ∃ e, values.over s = .error e ∧ s.Refused e := by
  by_cases hcomparator : ∀ text ∈ s.chosen .comparator, Choice.comparator.Accepts text
  · -- so it is the score mode
    have hscoreMode : ¬ ∀ text ∈ s.chosen .scoreMode, Choice.scoreMode.Accepts text := by
      intro hscoreMode
      refine h fun choice => ?_
      cases choice with
      | comparator => exact hcomparator
      | scoreMode => exact hscoreMode
    obtain ⟨text, hgiven, hrefused⟩ := exists_given_not hscoreMode
    refine ⟨_, ?_, .scoreMode hcomparator hgiven hrefused⟩
    obtain ⟨kind, hkind, -⟩ :
        ∃ kind, choose s.path .comparator ComparatorKind.ofName? values.search.comparator
            (s.chosen .comparator) = .ok kind ∧
          kind.name = ((s.chosen .comparator).map lowerAscii).getD values.search.comparator.name :=
      choose_eq_ok ofName?_eq_some_iff hcomparator
    rw [over_eq, hkind, hgiven, choose_eq_error scoreModeOfName?_eq_some_iff hrefused]
    rfl
  · obtain ⟨text, hgiven, hrefused⟩ := exists_given_not hcomparator
    refine ⟨_, ?_, .comparator hgiven hrefused⟩
    rw [over_eq, hgiven, choose_eq_error ofName?_eq_some_iff hrefused]
    rfl

end Over

/-! ### Merging files -/

/-- The first file is laid over the others last. -/
theorem foldlM_over_cons (s : Source) (rest : List Source) :
    (s :: rest).reverse.foldlM Values.over .default =
      (rest.reverse.foldlM Values.over .default).bind fun values => values.over s := by
  rw [List.reverse_cons, List.foldlM_append]
  cases rest.reverse.foldlM Values.over .default with
  | error e => rfl
  | ok values =>
    change (values.over s).bind _ = values.over s
    cases values.over s <;> rfl

theorem foldlM_over_valid : ∀ {sources : List Source}, (∀ s ∈ sources, s.Valid) →
    ∃ values, sources.reverse.foldlM Values.over .default = .ok values ∧ Takes sources values
  | [], _ => ⟨.default, rfl, ⟨rfl, rfl, rfl, rfl, rfl, rfl, rfl⟩⟩
  | s :: rest, h => by
      obtain ⟨hvalid, hrest⟩ := List.forall_mem_cons.mp h
      obtain ⟨values, hvalues, htakes⟩ := foldlM_over_valid hrest
      rw [foldlM_over_cons, hvalues]
      exact over_valid hvalid htakes

theorem foldlM_over_refused : ∀ {sources : List Source}, (¬ ∀ s ∈ sources, s.Valid) →
    ∃ before s after e, sources = before ++ s :: after ∧ (∀ t ∈ after, t.Valid) ∧ s.Refused e ∧
      sources.reverse.foldlM Values.over .default = .error e
  | [], h => absurd (fun _ hmem => nomatch hmem) h
  | s :: rest, h => by
      by_cases hrest : ∀ t ∈ rest, t.Valid
      · have hinvalid : ¬ s.Valid := fun hvalid => h (List.forall_mem_cons.mpr ⟨hvalid, hrest⟩)
        obtain ⟨values, hvalues, -⟩ := foldlM_over_valid hrest
        obtain ⟨e, he, hrefused⟩ := over_refused values hinvalid
        refine ⟨[], s, rest, e, rfl, hrest, hrefused, ?_⟩
        rw [foldlM_over_cons, hvalues]
        exact he
      · -- the error is that of a file further on, and no file before it mends it
        obtain ⟨before, t, after, e, hsplit, hafter, hrefused, herror⟩ := foldlM_over_refused hrest
        refine ⟨s :: before, t, after, e, by rw [hsplit, List.cons_append], hafter, hrefused, ?_⟩
        rw [foldlM_over_cons, herror]
        rfl

/-- If all choices in files mean something, merging them succeeds with the settings that the first files
    to give them have; otherwise the last file with a choice that means nothing is refused. -/
theorem merge_precedence (sources : List Source) :
    ((∀ s ∈ sources, s.Valid) → ∃ config, merge sources = .ok config ∧ Effective sources config) ∧
    ((¬ ∀ s ∈ sources, s.Valid) → ∃ before s after e, sources = before ++ s :: after ∧
      (∀ t ∈ after, t.Valid) ∧ s.Refused e ∧ merge sources = .error e) := by
  constructor
  · intro hvalid
    obtain ⟨values, hvalues, htakes⟩ := foldlM_over_valid hvalid
    refine ⟨⟨values, _, _⟩, ?_, htakes, rfl, rfl⟩
    rw [merge, hvalues]
    rfl
  · intro hinvalid
    obtain ⟨before, s, after, e, hsplit, hafter, hrefused, herror⟩ := foldlM_over_refused hinvalid
    refine ⟨before, s, after, e, hsplit, hafter, hrefused, ?_⟩
    rw [merge, herror]
    rfl

/-- The settings of two files together, and a comparator that means nothing behind one that is accepted. -/
theorem merge_precedence_two :
    let near : Source :=
      ⟨"/home/notes/.lexico.toml", none, some ⟨none, none, some "Accumulate", some 3, none⟩, none⟩
    let far : Source :=
      ⟨"/home/.lexico.toml", none, some ⟨some "FUZZY", some false, none, some 10, some ["name"]⟩,
        some ⟨some 1, none⟩⟩
    let stray : Source := ⟨"/.lexico.toml", none, some ⟨some "exact", none, none, none, none⟩, none⟩
    (∃ config, merge [near, far] = .ok config ∧ Effective [near, far] config ∧
      config.settings = ⟨⟨.fuzzy, false, .accumulate, 3, ["name"]⟩, ⟨1, true⟩⟩) ∧
    ∃ before s after e, [near, far, stray] = before ++ s :: after ∧ (∀ t ∈ after, t.Valid) ∧
      s.Refused e ∧ merge [near, far, stray] = .error e := by
  intro near far stray
  have hnear : near.Valid := by
    rintro (_ | _) text htext
    · cases htext
    · cases htext
      exact ⟨.accumulate, by decide⟩
  have hfar : far.Valid := by
    rintro (_ | _) text htext
    · cases htext
      exact ⟨.fuzzy, by decide⟩
    · cases htext
  have hstray : ¬ stray.Valid := by
    intro h
    obtain ⟨kind, hkind⟩ := h .comparator "exact" rfl
    revert hkind
    cases kind <;> decide
  refine ⟨?_, (merge_precedence _).2 fun h => hstray (h stray (by simp))⟩
  obtain ⟨config, hmerge, heffective⟩ := (merge_precedence [near, far]).1
    (List.forall_mem_cons.mpr ⟨hnear, List.forall_mem_singleton.mpr hfar⟩)
  refine ⟨config, hmerge, heffective, ?_⟩
  have hsettings : (merge [near, far]).map Config.settings =
      .ok ⟨⟨.fuzzy, false, .accumulate, 3, ["name"]⟩, ⟨1, true⟩⟩ := by rfl
  rw [hmerge] at hsettings
  exact Except.ok.inj hsettings

end RecordSearch.Settings
