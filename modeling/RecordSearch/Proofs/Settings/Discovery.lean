import RecordSearch.Proofs.Files.Path
import RecordSearch.Settings.Discovery
import RecordSearch.Toml.Writer

/-! Which files are in effect. On the way up from a directory a file is met unless one before it ends the
    search, and what is found are the files that are met, in the order of the way (`Found`). The
    global file comes last, unless the search ended or the file was found on the way
    (`discover_absolute`). -/

namespace RecordSearch.Settings

open RecordSearch.Files (Names Store IsPart absolute components)

/-- A file ends the search: it can be read, what it says are settings, and it says `root = true`. -/
def Ends (toml : Toml.Format) (files : Store) (path : String) : Prop :=
  ∃ text layer, files.read path = .ok text ∧ Layer.read toml text = some layer ∧
    layer.root = some true

/-- No path before this one ends the search. -/
def Reached (toml : Toml.Format) (files : Store) (places : List String) (path : String) : Prop :=
  ∃ before after, places = before ++ path :: after ∧ ∀ place ∈ before, ¬ Ends toml files place

/-- Where the file of a directory would be and those of the directories above it, the nearest first. -/
def placesAbove (names : Names) : List String :=
  names.inits.reverse.map fun above => absolute (above ++ [fileName])

example : placesAbove ["home", "user"] =
    ["/home/user/.lexico.toml", "/home/.lexico.toml", "/.lexico.toml"] := by decide

section

variable {toml : Toml.Format} {files : Store} {place path : String} {places found : List String}
  {ended : Bool}

theorem isRootFile_iff : isRootFile toml files path = true ↔ Ends toml files path := by
  rw [isRootFile, Ends]
  cases files.read path with
  | error cause => simp
  | ok text => simp [Option.bind_eq_some_iff]

theorem reached_cons : Reached toml files (place :: places) path ↔
    path = place ∨ ¬ Ends toml files place ∧ Reached toml files places path := by
  constructor
  · rintro ⟨before, after, hplaces, hbefore⟩
    cases before with
    | nil => exact .inl (List.cons.inj hplaces).1.symm
    | cons first before =>
      obtain ⟨rfl, hrest⟩ := List.cons.inj hplaces
      rw [List.forall_mem_cons] at hbefore
      exact .inr ⟨hbefore.1, before, after, hrest, hbefore.2⟩
  · rintro (rfl | ⟨hplace, before, after, rfl, hbefore⟩)
    · exact ⟨[], places, rfl, nofun⟩
    · exact ⟨place :: before, after, rfl, List.forall_mem_cons.mpr ⟨hplace, hbefore⟩⟩

/-! ### The way up -/

/-- What is found at some places, and whether the search ended there. -/
structure Found (toml : Toml.Format) (files : Store) (places found : List String) (ended : Bool) :
    Prop where
  sublist : found.Sublist places
  mem_iff : ∀ path, path ∈ found ↔ Reached toml files places path ∧ files.isFile path = true
  ended_iff : ended = true ↔ ∃ place ∈ places, Ends toml files place

theorem Found.nil : Found toml files [] [] false where
  sublist := .slnil
  mem_iff path := by
    refine iff_of_false List.not_mem_nil ?_
    rintro ⟨⟨before, after, hnil, -⟩, -⟩
    exact absurd hnil (by simp)
  ended_iff := by simp

/-- What is no file is left out. -/
theorem Found.skip (h : Found toml files places found ended) (hfile : files.isFile place = false)
    (hends : ¬ Ends toml files place) : Found toml files (place :: places) found ended where
  sublist := h.sublist.cons place
  mem_iff path := by
    rw [h.mem_iff, reached_cons]
    constructor
    · rintro ⟨hreached, hpath⟩
      exact ⟨.inr ⟨hends, hreached⟩, hpath⟩
    · rintro ⟨rfl | ⟨-, hreached⟩, hpath⟩
      · rw [hfile] at hpath
        cases hpath
      · exact ⟨hreached, hpath⟩
  ended_iff := by rw [h.ended_iff, List.exists_mem_cons_iff, or_iff_right hends]

/-- A file that ends nothing is found, and so are those after it. -/
theorem Found.go (h : Found toml files places found ended) (hfile : files.isFile place = true)
    (hends : ¬ Ends toml files place) :
    Found toml files (place :: places) (place :: found) ended where
  sublist := h.sublist.cons_cons place
  mem_iff path := by
    rw [List.mem_cons, h.mem_iff, reached_cons]
    constructor
    · rintro (rfl | ⟨hreached, hpath⟩)
      · exact ⟨.inl rfl, hfile⟩
      · exact ⟨.inr ⟨hends, hreached⟩, hpath⟩
    · rintro ⟨rfl | ⟨-, hreached⟩, hpath⟩
      · exact .inl rfl
      · exact .inr ⟨hreached, hpath⟩
  ended_iff := by rw [h.ended_iff, List.exists_mem_cons_iff, or_iff_right hends]

/-- A file that ends the search is the last that is found. -/
theorem Found.stop (hfile : files.isFile place = true) (hends : Ends toml files place) :
    Found toml files (place :: places) [place] true where
  sublist := List.singleton_sublist.mpr List.mem_cons_self
  mem_iff path := by
    rw [List.mem_singleton, reached_cons]
    constructor
    · rintro rfl
      exact ⟨.inl rfl, hfile⟩
    · rintro ⟨rfl | ⟨hnot, -⟩, -⟩
      · rfl
      · exact absurd hends hnot
  ended_iff := iff_of_true rfl ⟨place, List.mem_cons_self, hends⟩

/-- What can be read is a file. -/
theorem Ends.isFile (h : Ends toml files path) : files.isFile path = true := by
  obtain ⟨text, -, hread, -⟩ := h
  rw [Store.read] at hread
  split at hread
  · next content hlookup => rw [Store.isFile, hlookup]
  all_goals cases hread

/-- The walk through some directories finds the files that it meets. -/
theorem discoverAlong_found (toml : Toml.Format) (files : Store) : ∀ directories : List String,
    Found toml files (directories.map (Files.join · fileName))
      (discoverAlong toml files directories).1 (discoverAlong toml files directories).2
  | [] => .nil
  | directory :: rest => by
      have hrest := discoverAlong_found toml files rest
      rw [List.map_cons, discoverAlong]
      split
      · next hfile =>
        split
        · next hroot => exact .stop hfile (isRootFile_iff.mp hroot)
        · next hroot => exact hrest.go hfile fun hends => hroot (isRootFile_iff.mpr hends)
      · next hfile =>
        exact hrest.skip (Bool.eq_false_iff.mpr hfile) fun hends => hfile hends.isFile

end

/-! ### The global file -/

/-- The global file, if it is in effect beside those found on the way. -/
def globals (files : Store) (home : Option String) (found : List String) (ended : Bool) :
    List String :=
  (globalPath home).toList.filter fun path =>
    !ended && files.isFile path && !found.any (Files.same path)

theorem discover_eq {toml : Toml.Format} {files : Store} {home : Option String} {directory : String}
    {found : List String} {ended : Bool}
    (h : discoverAlong toml files (Files.ancestors directory) = (found, ended)) :
    discover toml files home directory = found ++ globals files home found ended := by
  rw [discover, h, globals]
  cases globalPath home with
  | none => exact (List.append_nil found).symm
  | some path =>
    rw [Option.toList_some, List.filter_singleton]
    simp only
    split
    · next hbeside => rw [hbeside, cond_true]
    · next hbeside => rw [Bool.eq_false_iff.mpr hbeside, cond_false, List.append_nil]

theorem length_globals_le (files : Store) (home : Option String) (found : List String)
    (ended : Bool) : (globals files home found ended).length ≤ 1 :=
  (List.length_filter_le _ _).trans Option.length_toList_le

theorem pairwise_globals (R : String → String → Prop) (files : Store) (home : Option String)
    (found : List String) (ended : Bool) : (globals files home found ended).Pairwise R := by
  have hone : (globalPath home).toList.Pairwise R := by
    cases globalPath home with
    | none => exact .nil
    | some path => exact List.pairwise_singleton R path
  exact hone.filter _

/-- The global file is added if no search ended and no file found says the same path. -/
theorem mem_globals {files : Store} {home : Option String} {found : List String} {ended : Bool}
    {path : String} : path ∈ globals files home found ended ↔ globalPath home = some path ∧
      files.isFile path = true ∧ ended = false ∧
      ∀ near ∈ found, components path ≠ components near := by
  simp only [globals, List.mem_filter, Option.mem_toList, Bool.and_eq_true,
    Bool.not_eq_true', List.any_eq_false, Files.same, decide_eq_true_eq]
  tauto

/-! ### Files of absolute paths -/

theorem isPart_fileName : IsPart fileName := by decide

section

variable {names : Names} (h : ∀ name ∈ names, IsPart name)

include h

theorem isPart_of_mem_inits {above : Names} (habove : above ∈ names.inits) :
    ∀ name ∈ above, IsPart name :=
  fun name hname => h name (((List.mem_inits above names).mp habove).subset hname)

theorem map_join_ancestors : (Files.ancestors (absolute names)).map (Files.join · fileName) =
    placesAbove names := by
  rw [Files.ancestors_absolute h, List.map_map, placesAbove]
  refine List.map_congr_left fun above habove => ?_
  exact Files.join_absolute (isPart_of_mem_inits h (List.mem_reverse.mp habove)) isPart_fileName

/-- The files of a directory and of those above it are all different. -/
theorem pairwise_placesAbove :
    (placesAbove names).Pairwise fun place place' => components place ≠ components place' := by
  have hcomponents : ∀ above ∈ names.inits.reverse, components (absolute (above ++ [fileName])) =
      (['/'], (above ++ [fileName]).map String.toList) := by
    intro above habove
    refine Files.components_absolute (List.forall_mem_append.mpr ⟨?_, ?_⟩)
    · exact isPart_of_mem_inits h (List.mem_reverse.mp habove)
    · simpa using isPart_fileName
  have hlengths : names.inits.reverse.Pairwise fun above above' => above'.length < above.length := by
    clear hcomponents h
    induction names using List.reverseRecOn with
    | nil => exact List.pairwise_singleton _ _
    | append_singleton names name ih =>
      rw [Files.inits_concat, List.pairwise_cons]
      refine ⟨fun above habove => ?_, ih⟩
      have hprefix := (List.mem_inits above names).mp (List.mem_reverse.mp habove)
      rw [List.length_append, List.length_singleton]
      exact Nat.lt_succ_of_le hprefix.length_le
  rw [placesAbove, List.pairwise_map]
  refine hlengths.imp_of_mem fun {above above'} habove habove' hlt heq => ?_
  rw [hcomponents above habove, hcomponents above' habove'] at heq
  have hlength := congrArg (fun c : List Char × List (List Char) => c.2.length) heq
  simp at hlength
  omega

end

/-- The files in effect are those of the directory and of the directories above it, the nearest first,
    up to the first that ends the search, and the global one comes last if none did and it is not
    among them. A file that cannot be read, or that says no settings, is in effect and ends
    nothing. None is there twice. -/
theorem discover_absolute {names : Names} (h : ∀ name ∈ names, IsPart name) (toml : Toml.Format)
    (files : Store) (home : Option String) :
    ∃ nearby globals, discover toml files home (absolute names) = nearby ++ globals ∧
      nearby.Sublist (placesAbove names) ∧
      (∀ path, path ∈ nearby ↔
        Reached toml files (placesAbove names) path ∧ files.isFile path = true) ∧
      globals.length ≤ 1 ∧
      (∀ path, path ∈ globals ↔ globalPath home = some path ∧ files.isFile path = true ∧
        (∀ place ∈ placesAbove names, ¬ Ends toml files place) ∧
        ∀ near ∈ nearby, components path ≠ components near) ∧
      (nearby ++ globals).Pairwise fun path path' => components path ≠ components path' := by
  have hfound := discoverAlong_found toml files (Files.ancestors (absolute names))
  rw [map_join_ancestors h] at hfound
  cases hwalk : discoverAlong toml files (Files.ancestors (absolute names)) with
  | mk found ended =>
    rw [hwalk] at hfound
    have hnone : ended = false ↔ ∀ place ∈ placesAbove names, ¬ Ends toml files place := by
      rw [← Bool.not_eq_true, hfound.ended_iff]
      push Not
      rfl
    refine ⟨found, globals files home found ended, discover_eq hwalk, hfound.sublist,
      hfound.mem_iff, length_globals_le files home found ended, fun path => ?_, ?_⟩
    · rw [mem_globals, hnone]
    · rw [List.pairwise_append]
      exact ⟨(pairwise_placesAbove h).sublist hfound.sublist, pairwise_globals _ _ _ _ _,
        fun near hnear path hpath => ((mem_globals.mp hpath).2.2.2 near hnear).symm⟩

/-- A project whose own file cannot be read, below a directory whose file ends the search. -/
def unreadableProject : Store where
  lookup path :=
    if path = "/home/user/project/.lexico.toml" then
      .ok (.unreadable (.other "Permission denied (os error 13)"))
    else if path = "/home/user/.lexico.toml" then .ok (.text "root = true\n")
    else if path = "/.lexico.toml" then .ok (.text "")
    else .error .notFound

/-- The file that cannot be read and the one that ends the search are in effect, the global one is not. -/
theorem discover_absolute_unreadable : ∃ nearby globals,
    discover .standard unreadableProject (some "/") (absolute ["home", "user", "project"]) =
        nearby ++ globals ∧
      "/home/user/project/.lexico.toml" ∈ nearby ∧ "/home/user/.lexico.toml" ∈ nearby ∧
      unreadableProject.isFile "/.lexico.toml" = true ∧ globals = [] := by
  have hparts : ∀ name ∈ ["home", "user", "project"], IsPart name := by decide
  obtain ⟨nearby, globals, hdiscover, -, hnearby, -, hglobals, -⟩ :=
    discover_absolute hparts .standard unreadableProject (some "/")
  have hplaces : placesAbove ["home", "user", "project"] = ["/home/user/project/.lexico.toml",
      "/home/user/.lexico.toml", "/home/.lexico.toml", "/.lexico.toml"] := by decide
  have hproject : ¬ Ends .standard unreadableProject "/home/user/project/.lexico.toml" := by
    rw [← isRootFile_iff]
    decide +kernel
  have huser : Ends .standard unreadableProject "/home/user/.lexico.toml" := by
    rw [← isRootFile_iff]
    decide +kernel
  have hprojectFile : unreadableProject.isFile "/home/user/project/.lexico.toml" = true := by
    decide +kernel
  refine ⟨nearby, globals, hdiscover, (hnearby _).mpr ⟨?_, hprojectFile⟩,
    (hnearby _).mpr ⟨?_, huser.isFile⟩, by decide +kernel, ?_⟩
  · rw [hplaces]
    exact reached_cons.mpr (.inl rfl)
  · rw [hplaces]
    exact reached_cons.mpr (.inr ⟨hproject, reached_cons.mpr (.inl rfl)⟩)
  · refine List.eq_nil_iff_forall_not_mem.mpr fun path hpath => ?_
    obtain ⟨-, -, hnone, -⟩ := (hglobals path).mp hpath
    exact hnone _ (by rw [hplaces]; simp) huser

end RecordSearch.Settings
