import RecordSearch.Proofs.Settings.Precedence
import RecordSearch.Proofs.Toml.Writing
import RecordSearch.Settings.Printer

/-! Settings written and loaded again. Settings are written as two sections, whose numbers are small
    enough if files have given them (`writable_of_merge`). A table with the values of a section gives its
    settings in whatever order it has them, so the text of settings is read as a layer that gives all of
    them (`exists_text`), and that layer replaces whatever it is laid over. A configuration that files
    give is therefore given again by its own text (`merge_reloaded`). -/

namespace RecordSearch.Settings

open RecordSearch.Toml (Value IsName)

/-! ### The sections of settings -/

/-- Numbers that a file can give. -/
structure Values.Writable (values : Values) : Prop where
  limit : values.search.limit < Nat.pow 2 64
  maxDistance : values.fuzzy.maxDistance < Nat.pow 2 8

theorem wellFormed_search {s : SearchSettings} (hlimit : s.limit < Nat.pow 2 64) :
    s.toSection.WellFormed where
  name := by simp [SearchSettings.toSection, IsName, Toml.isKeyChar]
  different := by simp [SearchSettings.toSection]
  keys := by simp [SearchSettings.toSection, IsName, Toml.isKeyChar]
  values := by
    simp only [SearchSettings.toSection, List.forall_mem_cons]
    exact ⟨.text _, .flag _, .text _, .number hlimit, .texts _, nofun⟩

theorem wellFormed_fuzzy {s : FuzzySettings} (hdistance : s.maxDistance < Nat.pow 2 8) :
    s.toSection.WellFormed where
  name := by simp [FuzzySettings.toSection, IsName, Toml.isKeyChar]
  different := by simp [FuzzySettings.toSection]
  keys := by simp [FuzzySettings.toSection, IsName, Toml.isKeyChar]
  values := by
    simp only [FuzzySettings.toSection, List.forall_mem_cons]
    exact ⟨.number (Nat.lt_trans hdistance (by decide)), .flag _, nofun⟩

theorem wellFormed_toSections {values : Values} (h : values.Writable) :
    ∀ s ∈ values.toSections, s.WellFormed := by
  rw [Values.toSections, List.forall_mem_cons, List.forall_mem_singleton]
  exact ⟨wellFormed_search h.limit, wellFormed_fuzzy h.maxDistance⟩

theorem mem_toSections (values : Values) :
    values.search.toSection ∈ values.toSections ∧ values.fuzzy.toSection ∈ values.toSections := by
  simp [Values.toSections]

theorem nodup_toSections (values : Values) : (values.toSections.map Prod.fst).Nodup := by
  simp [Values.toSections, SearchSettings.toSection, FuzzySettings.toSection]

/-! ### The layer of settings -/

/-- The layer that gives all settings. -/
def Values.layer (values : Values) : Layer :=
  ⟨none,
    some ⟨some values.search.comparator.name, some values.search.recovery,
      some (scoreModeName values.search.scoreMode), some values.search.limit, some values.search.index⟩,
    some ⟨some values.fuzzy.maxDistance, some values.fuzzy.transpositions⟩⟩

theorem optional_number {bound n : Nat} (h : n < bound) :
    optional (asNatBelow bound) (some (.integer n)) = some (some n) := by
  rw [optional, asNatBelow, if_pos (by omega), Int.toNat_natCast]
  rfl

theorem optional_texts (texts : List String) :
    optional asTexts (some (.array (texts.map .string))) = some (some texts) := by
  rw [optional, asTexts, Toml.mapM_asText, Option.map_some]

/-- A table gives settings by their names. -/
theorem searchLayer_table (fields : List (String × Value)) :
    SearchLayer.ofValue? (.table fields) = (do
      let comparator ← optional Value.asText (fields.lookup "comparator")
      let recovery ← optional asBool (fields.lookup "error_recovery")
      let scoreMode ← optional Value.asText (fields.lookup "score_mode")
      let limit ← optional (asNatBelow (Nat.pow 2 64)) (fields.lookup "limit")
      let index ← optional asTexts (fields.lookup "index")
      some ⟨comparator, recovery, scoreMode, limit, index⟩) := rfl

theorem fuzzyLayer_table (fields : List (String × Value)) :
    FuzzyLayer.ofValue? (.table fields) = (do
      let maxDistance ← optional (asNatBelow (Nat.pow 2 8)) (fields.lookup "max_distance")
      let transpositions ← optional asBool (fields.lookup "transpositions")
      some ⟨maxDistance, transpositions⟩) := rfl

/-- A table with the values of a section gives its settings, in whatever order it has them. -/
theorem ofValue?_search {s : SearchSettings} (hlimit : s.limit < Nat.pow 2 64)
    {entries : List (String × Value)}
    (hentries : ∀ key, entries.lookup key = s.toSection.2.lookup key) :
    SearchLayer.ofValue? (.table entries) =
      some ⟨some s.comparator.name, some s.recovery, some (scoreModeName s.scoreMode), some s.limit,
        some s.index⟩ := by
  have hcomparator : s.toSection.2.lookup "comparator" = some (.string s.comparator.name) := by
    simp [SearchSettings.toSection]
  have hrecovery : s.toSection.2.lookup "error_recovery" = some (.bool s.recovery) := by
    simp [SearchSettings.toSection, List.lookup]
  have hscoreMode : s.toSection.2.lookup "score_mode" = some (.string (scoreModeName s.scoreMode)) := by
    simp [SearchSettings.toSection, List.lookup]
  have hnumber : s.toSection.2.lookup "limit" = some (.integer s.limit) := by
    simp [SearchSettings.toSection, List.lookup]
  have hindex : s.toSection.2.lookup "index" = some (.array (s.index.map .string)) := by
    simp [SearchSettings.toSection, List.lookup]
  simp only [searchLayer_table, hentries]
  rw [hcomparator, hrecovery, hscoreMode, hnumber, hindex, optional_number hlimit, optional_texts]
  rfl

theorem ofValue?_fuzzy {s : FuzzySettings} (hdistance : s.maxDistance < Nat.pow 2 8)
    {entries : List (String × Value)}
    (hentries : ∀ key, entries.lookup key = s.toSection.2.lookup key) :
    FuzzyLayer.ofValue? (.table entries) = some ⟨some s.maxDistance, some s.transpositions⟩ := by
  have hnumber : s.toSection.2.lookup "max_distance" = some (.integer s.maxDistance) := by
    simp [FuzzySettings.toSection]
  have htranspositions : s.toSection.2.lookup "transpositions" = some (.bool s.transpositions) := by
    simp [FuzzySettings.toSection, List.lookup]
  simp only [fuzzyLayer_table, hentries]
  rw [hnumber, htranspositions, optional_number hdistance]
  rfl

/-- A document with the sections of settings gives all of them, and says nothing of other files. -/
theorem ofFields?_of_describes {values : Values} (h : values.Writable)
    {fields : List (String × Value)} (hfields : Toml.Describes fields values.toSections) :
    Layer.ofFields? fields = some values.layer := by
  have hroot : fields.lookup "root" = none := hfields.others "root" (by
    simp [Values.toSections, SearchSettings.toSection, FuzzySettings.toSection])
  obtain ⟨search, hsearch, hsearchEntries⟩ := hfields.tables _ (mem_toSections values).1
  obtain ⟨fuzzy, hfuzzy, hfuzzyEntries⟩ := hfields.tables _ (mem_toSections values).2
  replace hsearch : fields.lookup "search" = some (.table search) := hsearch
  replace hfuzzy : fields.lookup "fuzzy" = some (.table fuzzy) := hfuzzy
  rw [Layer.ofFields?, hroot, hsearch, hfuzzy, optional, optional, optional,
    ofValue?_search h.limit hsearchEntries, ofValue?_fuzzy h.maxDistance hfuzzyEntries]
  rfl

/-- Settings can be written, and their text is read as the layer that gives all of them. -/
theorem exists_text {toml : Toml.Format} (htoml : toml.Lawful) {values : Values}
    (h : values.Writable) :
    ∃ text, values.text toml = some text ∧ Layer.read toml text = some values.layer := by
  have hnames := nodup_toSections values
  have hformed := wellFormed_toSections h
  obtain ⟨text, htext⟩ := htoml.writes values.toSections hnames hformed
  obtain ⟨fields, hread, hfields⟩ := htoml.reads values.toSections hnames hformed text htext
  refine ⟨text, htext, ?_⟩
  rw [Layer.read, hread, Option.bind_some, ofFields?_of_describes h hfields]

/-- Whatever settings it is laid over, that layer gives its own. -/
theorem over_layer (values current : Values) (path : String) :
    current.over ⟨path, values.layer⟩ = .ok values := by
  have hcomparator : ComparatorKind.ofName? values.search.comparator.name =
      some values.search.comparator := by
    rw [ofName?_eq_some_iff]
    cases values.search.comparator <;> decide
  have hscoreMode : scoreModeOfName? (scoreModeName values.search.scoreMode) =
      some values.search.scoreMode := by
    rw [scoreModeOfName?_eq_some_iff]
    cases values.search.scoreMode <;> decide
  have hchosen : (Source.mk path values.layer).chosen .comparator =
      some values.search.comparator.name := rfl
  have hchosen' : (Source.mk path values.layer).chosen .scoreMode =
      some (scoreModeName values.search.scoreMode) := rfl
  rw [over_eq, hchosen, hchosen', choose, choose, hcomparator, hscoreMode]
  rfl

/-! ### Settings that files give -/

theorem lt_of_asNatBelow {bound n : Nat} {v : Value} (h : asNatBelow bound v = some n) : n < bound := by
  cases v with
  | integer k =>
    rw [asNatBelow] at h
    split at h
    · next hk =>
      cases h
      omega
    · cases h
  | _ => cases h

theorem exists_of_optional {α : Type} {readAs : Value → Option α} {found : Option Value} {x : α}
    (h : optional readAs found = some (some x)) : ∃ v, readAs v = some x := by
  cases found with
  | none => cases h
  | some v =>
    obtain ⟨y, hy, hx⟩ := Option.map_eq_some_iff.mp h
    exact ⟨v, Option.some.inj hx ▸ hy⟩

/-- A number that a file gives for a setting with a bound is below it. -/
theorem lt_of_optional {bound n : Nat} {found : Option Value}
    (h : optional (asNatBelow bound) found = some (some n)) : n < bound := by
  obtain ⟨v, hv⟩ := exists_of_optional h
  exact lt_of_asNatBelow hv

/-- The sections of a file are read from values. -/
theorem sections_of_read {toml : Toml.Format} {text : String} {layer : Layer}
    (h : Layer.read toml text = some layer) :
    (∀ search, layer.search = some search → ∃ v, SearchLayer.ofValue? v = some search) ∧
    ∀ fuzzy, layer.fuzzy = some fuzzy → ∃ v, FuzzyLayer.ofValue? v = some fuzzy := by
  obtain ⟨fields, -, hfields⟩ := Option.bind_eq_some_iff.mp h
  simp only [Layer.ofFields?, Option.bind_eq_bind, Option.bind_eq_some_iff] at hfields
  obtain ⟨root, -, search, hsearch, fuzzy, hfuzzy, hlayer⟩ := hfields
  cases hlayer
  constructor
  · rintro search rfl
    exact exists_of_optional hsearch
  · rintro fuzzy rfl
    exact exists_of_optional hfuzzy

theorem limit_lt {search : SearchLayer} {v : Value} (h : SearchLayer.ofValue? v = some search) {n : Nat}
    (hn : search.limit = some n) : n < Nat.pow 2 64 := by
  simp only [SearchLayer.ofValue?, Option.bind_eq_bind, Option.bind_eq_some_iff] at h
  obtain ⟨get, -, comparator, -, recovery, -, scoreMode, -, limit, hlimit, index, -, hsearch⟩ := h
  cases hsearch
  cases hn
  exact lt_of_optional hlimit

theorem maxDistance_lt {fuzzy : FuzzyLayer} {v : Value} (h : FuzzyLayer.ofValue? v = some fuzzy)
    {n : Nat} (hn : fuzzy.maxDistance = some n) : n < Nat.pow 2 8 := by
  simp only [FuzzyLayer.ofValue?, Option.bind_eq_bind, Option.bind_eq_some_iff] at h
  obtain ⟨get, -, maxDistance, hdistance, transpositions, -, hfuzzy⟩ := h
  cases hfuzzy
  cases hn
  exact lt_of_optional hdistance

section

variable {sources : List Source} {config : Config}

/-- Files that are merged give their settings in order of precedence. -/
theorem takes_of_merge (h : merge sources = .ok config) : Takes sources config.settings := by
  by_cases hvalid : ∀ s ∈ sources, s.Valid
  · obtain ⟨values, hvalues, htakes⟩ := foldlM_over_valid hvalid
    rw [merge, hvalues] at h
    exact Except.ok.inj h ▸ htakes
  · obtain ⟨_, _, _, e, -, -, -, he⟩ := foldlM_over_refused hvalid
    rw [merge, he] at h
    cases h

/-- What is chosen from files has a property that what they give and the default have. -/
theorem first_getD {α : Type} {given : Source → Option α} {p : α → Prop} {default : α}
    (h : ∀ s ∈ sources, ∀ x, given s = some x → p x) (hdefault : p default) :
    p ((first given sources).getD default) := by
  cases hfirst : first given sources with
  | none => exact hdefault
  | some x =>
    obtain ⟨s, hs, hx⟩ := List.exists_of_findSome?_eq_some hfirst
    exact h s hs x hx

/-- The settings of merged files can be given by a file. -/
theorem writable_of_merge {toml : Toml.Format}
    (hread : ∀ s ∈ sources, ∃ text, Layer.read toml text = some s.layer)
    (h : merge sources = .ok config) : config.settings.Writable := by
  have htakes := takes_of_merge h
  constructor
  case limit =>
    rw [htakes.limit]
    refine first_getD (p := (· < Nat.pow 2 64)) (fun s hs n hn => ?_) (by decide)
    obtain ⟨text, htext⟩ := hread s hs
    obtain ⟨search, hsearch, hlimit⟩ := Option.bind_eq_some_iff.mp hn
    obtain ⟨v, hv⟩ := (sections_of_read htext).1 search hsearch
    exact limit_lt hv hlimit
  case maxDistance =>
    rw [htakes.maxDistance]
    refine first_getD (p := (· < Nat.pow 2 8)) (fun s hs n hn => ?_) (by decide)
    obtain ⟨text, htext⟩ := hread s hs
    obtain ⟨fuzzy, hfuzzy, hdistance⟩ := Option.bind_eq_some_iff.mp hn
    obtain ⟨v, hv⟩ := (sections_of_read htext).2 fuzzy hfuzzy
    exact maxDistance_lt hv hdistance

/-- A configuration that files give can be written, and is given again by a file with its text, whatever
    reads and writes the files, as long as it reads what it has written. -/
theorem merge_reloaded {toml : Toml.Format} (htoml : toml.Lawful)
    (hread : ∀ s ∈ sources, ∃ text, Layer.read toml text = some s.layer)
    (h : merge sources = .ok config) (path : String) :
    ∃ text layer reloaded, config.settings.text toml = some text ∧
      Layer.read toml text = some layer ∧ merge [⟨path, layer⟩] = .ok reloaded ∧
      reloaded.settings = config.settings := by
  obtain ⟨text, htext, hlayer⟩ := exists_text htoml (writable_of_merge hread h)
  refine ⟨text, config.settings.layer, ⟨config.settings, Files.parent path, [path]⟩, htext, hlayer,
    ?_, rfl⟩
  have hfold : [Source.mk path config.settings.layer].reverse.foldlM Values.over .default =
      .ok config.settings := by
    rw [foldlM_over_cons]
    exact over_layer config.settings .default path
  rw [merge, hfold]
  rfl

end

/-- The configuration of two files, with the largest numbers and with paths that need escapes, lines of
    their own and either kind of marks. -/
theorem merge_reloaded_two :
    let nearText := "[search]\nlimit = 0xFFFFFFFFFFFFFFFF\n" ++
      "index = [\"a\\\"b'c\", 'd\\e', \"\"\"f\ng\"\"\", \"\\u0001\\t'''\", '']\n[fuzzy]\nmax_distance = 255\n"
    let farText := "[search]\ncomparator = \"Fuzzy\"\nlimit = 3\n"
    let paths := ["a\"b'c", "d\\e", "f\ng", "\x01\t'''", ""]
    let near : Source := ⟨"/home/notes/.lexico.toml",
      none, some ⟨none, none, none, some 18446744073709551615, some paths⟩, some ⟨some 255, none⟩⟩
    let far : Source :=
      ⟨"/home/.lexico.toml", none, some ⟨some "Fuzzy", none, none, some 3, none⟩, none⟩
    let config : Config := ⟨⟨⟨.fuzzy, true, .reset, 18446744073709551615, paths⟩, ⟨255, true⟩⟩,
      some "/home/notes", ["/home/notes/.lexico.toml", "/home/.lexico.toml"]⟩
    Layer.read .standard nearText = some near.layer ∧
      Layer.read .standard farText = some far.layer ∧ merge [near, far] = .ok config ∧
      ∃ text layer reloaded, config.settings.text .standard = some text ∧
        Layer.read .standard text = some layer ∧
        merge [⟨"/again/.lexico.toml", layer⟩] = .ok reloaded ∧
        reloaded.settings = config.settings := by
  intro nearText farText paths near far config
  have hnear : Layer.read .standard nearText = some near.layer := by decide +kernel
  have hfar : Layer.read .standard farText = some far.layer := by decide +kernel
  have hmerge : merge [near, far] = .ok config := by
    simp only [near, far, config, paths]
    rfl
  refine ⟨hnear, hfar, hmerge, merge_reloaded Toml.lawful_standard (fun s hs => ?_) hmerge _⟩
  rcases List.mem_pair.mp hs with rfl | rfl
  · exact ⟨nearText, hnear⟩
  · exact ⟨farText, hfar⟩

end RecordSearch.Settings
