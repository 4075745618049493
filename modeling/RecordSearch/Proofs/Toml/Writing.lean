import RecordSearch.Proofs.Toml.Documents
import RecordSearch.Toml.Writer

/-! Documents of sections are written and read again. The values of settings can all be written, and
    each is read from its text (`exists_valueText?`), so the lines of a section are read as its
    statements and the statements of all sections build the document anew (`lawful_standard`). -/

namespace RecordSearch.Toml

/-! ### Values -/

theorem mapM_asText : ∀ texts : List String, (texts.map Value.string).mapM Value.asText = some texts
  | [] => rfl
  | text :: texts => by
      rw [List.map_cons, List.mapM_cons, mapM_asText texts]
      rfl

/-- A list of texts is written as an array of strings. -/
theorem denotes_listText (depth : Nat) (texts : List String) :
    Denotes (depth + 1) (listText texts).toList (.array (texts.map .string)) := by
  match texts with
  | [] => exact denotes_array_nil
  | [text] =>
    rw [listText, String.toList_append, String.toList_append]
    exact denotes_array_singleton (denotes_quote depth text)
  | first :: second :: more =>
    generalize htexts : first :: second :: more = texts
    have htext : (listText texts).toList =
        '[' :: ('\n' :: (texts.flatMap fun text => itemLine (quote text).toList) ++ [']']) := by
      subst htexts
      simp [listText, itemLine, List.flatMap_map]
    rw [htext]
    exact denotes_array_lines fun text _ => denotes_quote depth text

/-- What can be written for a setting is read from its text. -/
theorem exists_valueText? {v : Value} (h : v.IsSetting) :
    ∃ text, valueText? v = some text ∧ Denotes deepestValue text.toList v := by
  cases h with
  | text s => exact ⟨quote s, rfl, denotes_quote _ s⟩
  | flag b => exact ⟨boolText b, rfl, denotes_bool _ b⟩
  | number fits => exact ⟨_, rfl, denotes_toString _ (Nat.lt_trans fits (by decide))⟩
  | texts list =>
    refine ⟨listText list, ?_, denotes_listText 79 list⟩
    rw [valueText?, mapM_asText, Option.map_some]

/-! ### Lines -/

/-- The line of a section is its header. -/
theorem lines_header {name : String} (hname : IsName name.toList) :
    Lines ("[" ++ name ++ "]\n").toList [.table ⟨[], name⟩] := by
  have htext : ("[" ++ name ++ "]\n").toList = '[' :: (name.toList ++ [']']) ++ ['\n'] := by
    simp
  have hstates := states_table hname
  rw [String.ofList_toList] at hstates
  rw [htext]
  exact .line hstates .done

/-- The line of a value is an entry. -/
theorem lines_entryLine {key value : String} {v : Value} (hkey : IsName key.toList)
    (hv : Denotes deepestValue value.toList v) :
    Lines (entryLine key value).toList [.entry ⟨[], key⟩ v] := by
  have htext : (entryLine key value).toList =
      key.toList ++ ([' ', '=', ' '] ++ value.toList) ++ ['\n'] := by
    simp [entryLine]
  have hstates := states_entry hkey hv
  rw [String.ofList_toList] at hstates
  rw [htext]
  exact .line hstates .done

/-- Entries with plain keys and values of settings have a line each. -/
theorem exists_entriesText? : ∀ {entries : List (String × Value)},
    (∀ entry ∈ entries, IsName entry.1.toList) → (∀ entry ∈ entries, entry.2.IsSetting) →
    ∃ text, entriesText? entries = some text ∧ Lines text.toList (entries.map entryStatement)
  | [], _, _ => ⟨"", rfl, .done⟩
  | (key, v) :: entries, hkeys, hvalues => by
      rw [List.forall_mem_cons] at hkeys hvalues
      obtain ⟨value, hvalue, hdenotes⟩ := exists_valueText? hvalues.1
      obtain ⟨rest, hrest, hlines⟩ := exists_entriesText? hkeys.2 hvalues.2
      refine ⟨entryLine key value ++ rest, ?_, ?_⟩
      · simp only [entriesText?, hvalue, hrest, Option.bind_eq_bind, Option.bind_some]
      · rw [String.toList_append]
        exact (lines_entryLine hkeys.1 hdenotes).append hlines

theorem exists_sectionText? {s : Section} (h : s.WellFormed) :
    ∃ text, sectionText? (s.1, .table s.2) = some text ∧ Lines text.toList (sectionStatements s) ∧
      text.toList.head? = some '[' := by
  obtain ⟨lines, hlines, hentries⟩ := exists_entriesText? h.keys h.values
  refine ⟨"[" ++ s.1 ++ "]\n" ++ lines, ?_, ?_, ?_⟩
  · rw [sectionText?, hlines, Option.map_some]
  · rw [String.toList_append]
    exact (lines_header h.name).append hentries
  · simp

/-! ### Documents -/

theorem exists_write : ∀ {sections : List Section}, (∀ s ∈ sections, s.WellFormed) →
    ∃ text, write (document sections) = some text ∧
      Lines text.toList (sections.flatMap sectionStatements) ∧
      text.toList.head? ≠ some '\uFEFF'
  | [], _ => ⟨"", rfl, .done, by simp⟩
  | [s], h => by
      obtain ⟨text, htext, hlines, hhead⟩ := exists_sectionText? (h s (List.mem_singleton_self s))
      refine ⟨text, htext, ?_, by simp [hhead]⟩
      rwa [List.flatMap_singleton]
  | s :: next :: sections, h => by
      obtain ⟨hs, hsections⟩ := List.forall_mem_cons.mp h
      obtain ⟨first, hfirst, hfirstLines, hhead⟩ := exists_sectionText? hs
      obtain ⟨rest, hrest, hrestLines, -⟩ := exists_write hsections
      refine ⟨first ++ "\n" ++ rest, ?_, ?_, ?_⟩
      · change (do
          let first ← sectionText? (s.1, .table s.2)
          let rest ← write (document (next :: sections))
          some (first ++ "\n" ++ rest)) = _
        rw [hfirst, hrest]
        rfl
      · rw [String.toList_append, String.toList_append, List.append_assoc, List.flatMap_cons]
        exact hfirstLines.append (.empty hrestLines)
      · rw [String.toList_append, String.toList_append, List.append_assoc, List.head?_append, hhead]
        simp

/-- Tables with different names are found by their names. -/
theorem describes_document : ∀ {sections : List Section}, (sections.map Prod.fst).Nodup →
    Describes (document sections) sections
  | [], _ => ⟨nofun, fun _ _ => rfl⟩
  | s :: sections, h => by
      obtain ⟨hnew, hsections⟩ := List.nodup_cons.mp h
      have hrest := describes_document hsections
      have hlookup : ∀ name, (document (s :: sections)).lookup name =
          if name = s.1 then some (.table s.2) else (document sections).lookup name := by
        intro name
        change ((s.1, Value.table s.2) :: document sections).lookup name = _
        rw [List.lookup_cons]
        by_cases heq : name = s.1
        · rw [if_pos heq, beq_iff_eq.mpr heq]
        · rw [if_neg heq, beq_false_of_ne heq]
      constructor
      case tables =>
        rintro s' hs'
        rw [hlookup]
        rcases List.mem_cons.mp hs' with rfl | hmem
        · exact ⟨s'.2, if_pos rfl, fun _ => rfl⟩
        · have hne : s'.1 ≠ s.1 := fun heq => hnew (heq ▸ List.mem_map_of_mem hmem)
          rw [if_neg hne]
          exact hrest.tables s' hmem
      case others =>
        intro name hname
        rw [List.map_cons, List.mem_cons, not_or] at hname
        rw [hlookup, if_neg hname.1]
        exact hrest.others name hname.2

/-- The format of the program writes documents of sections and reads them again. -/
theorem lawful_standard : Format.standard.Lawful where
  writes sections _ hformed := by
    obtain ⟨text, htext, -⟩ := exists_write hformed
    exact ⟨text, htext⟩
  reads sections hnames hformed text htext := by
    obtain ⟨text', htext', hlines, hmark⟩ := exists_write hformed
    obtain rfl : text' = text := Option.some.inj (htext'.symm.trans htext)
    refine ⟨document sections, ?_, describes_document hnames⟩
    have hread : read text' = some (document sections) := by
      rw [hlines.read hmark, build_sections hnames fun s hs => (hformed s hs).different]
    exact hread

end RecordSearch.Toml
