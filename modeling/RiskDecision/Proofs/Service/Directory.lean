import RiskDecision.Proofs.Files.Names
import RiskDecision.Proofs.Service.Atomicity
import RiskDecision.Proofs.Sorting

/-!
# Loading a directory is loading its texts one by one

Loading a directory filters, sorts, takes names apart and goes on after a failure. All of that comes
to a fold: the regular files with the extension `json` and a text in them, in ascending order of
their names, are loaded as texts for the domains that they are named for, each by the service that
the one before it left. What is no such file, or cannot be loaded, might as well not be there. Two
files can be named for one domain in different spellings; then the later one is in force.
-/

namespace RiskDecision

/-! ## The texts of a directory -/

/-- A text in a file that is named for a domain. -/
structure CatalogText where
  name : String
  domain : String
  text : String
  deriving DecidableEq

namespace CatalogText

/-- The text is that of an entry: of a regular file with the extension `json` in any case, and with
something before it, which is the domain. -/
inductive FoundAs : CatalogText → String × Entry → Prop
  | file {domain extension text : String} {bytes : ByteArray} (named : domain ≠ "")
      (json : Text.lower extension = "json") (utf8 : String.fromUTF8? bytes = some text) :
      FoundAs ⟨domain ++ "." ++ extension, domain, text⟩ (domain ++ "." ++ extension, .file bytes)

/-- The text of an entry, if it has one. -/
def found? (e : String × Entry) : Option CatalogText :=
  if Path.isCatalogName e.1 then e.2.text?.map fun text => ⟨e.1, Path.stem e.1, text⟩ else none

theorem found?_eq_some_iff {e : String × Entry} {f : CatalogText} :
    found? e = some f ↔ f.FoundAs e := by
  obtain ⟨name, entry⟩ := e
  constructor
  · intro h
    by_cases hname : Path.isCatalogName name = true
    · rw [found?, if_pos hname] at h
      obtain ⟨text, htext, rfl⟩ := Option.map_eq_some_iff.mp h
      obtain ⟨extension, hcut, named, json⟩ := Path.isCatalogName_and_stem_iff.mp ⟨hname, rfl⟩
      cases entry with
      | directory entries => exact nomatch htext
      | file bytes =>
          have hfound := FoundAs.file named json htext
          rw [← hcut] at hfound
          exact hfound
    · rw [found?, if_neg hname] at h
      exact nomatch h
  · rintro @⟨domain, extension, text, bytes, named, json, utf8⟩
    obtain ⟨hname, hstem⟩ := Path.isCatalogName_and_stem_iff.mpr ⟨extension, rfl, named, json⟩
    have htext : (Entry.file bytes).text? = some text := utf8
    rw [found?, if_pos hname, htext, hstem]
    rfl

theorem name_of_found? {e : String × Entry} {f : CatalogText} (h : found? e = some f) :
    f.name = e.1 := by
  cases found?_eq_some_iff.mp h
  rfl

/-- A directory has no text, and a file has one if it is a catalog file. -/
theorem found?_of_not_catalogFile {e : String × Entry}
    (h : ¬(!e.2.isDirectory && Path.isCatalogName e.1) = true) : found? e = none := by
  obtain ⟨name, entry⟩ := e
  cases entry with
  | directory entries =>
      rw [found?]
      split <;> rfl
  | file bytes =>
      rw [found?, if_neg]
      exact h

end CatalogText

namespace Service

variable {s : Service}

/-! ## One text after the other -/

/-- Loads a text for the domain that its file is named for. -/
def loadNamed (f : CatalogText) : Operation Fault LoadReport := loadText f.domain f.text

/-- Loads one more text. If it can be loaded there is one more report. -/
def loadNext (done : List LoadReport × Service) (f : CatalogText) : List LoadReport × Service :=
  match (loadNamed f).run done.2 with
  | .ok report s => (done.1 ++ [report], s)
  | .error _ s => (done.1, s)

/-- Loads texts one after the other. -/
def loadEach (s : Service) (files : List CatalogText) : List LoadReport × Service :=
  files.foldl loadNext ([], s)

/-- The text can be loaded. -/
def Loads (s : Service) (f : CatalogText) : Prop := ∃ report s', (loadNamed f).run s = .ok report s'

/-- The file is named for a domain, in some spelling. -/
def IsNamedFor (domain : String) (f : CatalogText) : Prop :=
  Text.normalize f.domain = Text.normalize domain

/-- What is in force for a domain after texts were loaded: what the last one for the domain that can
be loaded publishes by itself, or what was in force before if there is none. -/
inductive LastLoaded (s : Service) (domain : String) : List CatalogText → Option Catalog → Prop
  | previous {files : List CatalogText}
      (noneLoads : ∀ f ∈ files, IsNamedFor domain f → ¬s.Loads f) :
      LastLoaded s domain files (s.store.get? domain)
  | last {before after : List CatalogText} {f : CatalogText} {report : LoadReport} {s' : Service}
      {c : Catalog} (named : IsNamedFor domain f) (loads : (loadNamed f).run s = .ok report s')
      (published : s'.store.get? domain = some c)
      (noneAfter : ∀ g ∈ after, IsNamedFor domain g → ¬s.Loads g) :
      LastLoaded s domain (before ++ f :: after) (some c)

/-- An entry that is no text of a catalog file, or one that cannot be loaded. -/
def Idle (s : Service) (e : String × Entry) : Prop := ∀ f, CatalogText.FoundAs f e → ¬s.Loads f

/-- The catalog that a text has, with the report on it. -/
def catalogOf? (f : CatalogText) : Option (Catalog × LoadReport) :=
  (Catalog.ofText f.domain f.text).toOption

/-- The catalogs of those texts that have one. -/
def catalogsOf (files : List CatalogText) : List (Catalog × LoadReport) :=
  files.filterMap catalogOf?

theorem run_loadNamed (isOpen : s.closed = false) (f : CatalogText) :
    (loadNamed f).run s = s.loaded (Catalog.ofText f.domain f.text) :=
  run_loadText isOpen f.domain f.text

theorem run_loadNamed_of_some (isOpen : s.closed = false) {f : CatalogText}
    {c : Catalog × LoadReport} (h : catalogOf? f = some c) :
    (loadNamed f).run s = .ok c.2 (s.withCatalog c) := by
  rw [run_loadNamed isOpen]
  rw [catalogOf?] at h
  cases htext : Catalog.ofText f.domain f.text with
  | ok c' =>
      rw [htext] at h
      cases h
      rfl
  | error fault =>
      rw [htext] at h
      exact nomatch h

theorem loads_iff (isOpen : s.closed = false) {f : CatalogText} :
    s.Loads f ↔ ∃ c, catalogOf? f = some c := by
  rw [Loads, run_loadNamed isOpen, catalogOf?]
  cases Catalog.ofText f.domain f.text with
  | ok c => exact iff_of_true ⟨_, _, rfl⟩ ⟨_, rfl⟩
  | error fault =>
      refine iff_of_false ?_ ?_
      · rintro ⟨report, s', h⟩
        exact nomatch h
      · rintro ⟨c, h⟩
        exact nomatch h

/-- A text is loaded for the domain that its file is named for. -/
theorem domain_of_catalogOf? {f : CatalogText} {c : Catalog × LoadReport}
    (h : catalogOf? f = some c) : c.1.domain = .ofText f.domain := by
  rw [catalogOf?, Catalog.toOption_ofText] at h
  obtain ⟨entries, -, rfl⟩ := Option.map_eq_some_iff.mp h
  rfl

/-- **ONE BY ONE**: the reports are those on the catalogs there are, which are all published. -/
theorem foldl_loadNext (isOpen : s.closed = false) (reports : List LoadReport)
    (files : List CatalogText) :
    files.foldl loadNext (reports, s)
      = (reports ++ (catalogsOf files).map Prod.snd, s.withCatalogs (catalogsOf files)) := by
  induction files generalizing s reports with
  | nil =>
      rw [catalogsOf, List.filterMap_nil, List.map_nil, List.append_nil]
      rfl
  | cons f rest ih =>
      rw [List.foldl_cons, loadNext, run_loadNamed isOpen]
      cases h : Catalog.ofText f.domain f.text with
      | ok c =>
          have hcons : catalogsOf (f :: rest) = c :: catalogsOf rest :=
            List.filterMap_cons_some (by rw [catalogOf?, h]; rfl)
          rw [hcons, List.map_cons, ← List.singleton_append, ← List.append_assoc]
          exact ih (s := s.withCatalog c) isOpen (reports ++ [c.2])
      | error fault =>
          have hcons : catalogsOf (f :: rest) = catalogsOf rest :=
            List.filterMap_cons_none (by rw [catalogOf?, h]; rfl)
          rw [hcons]
          exact ih isOpen reports

theorem loadEach_eq (isOpen : s.closed = false) (files : List CatalogText) :
    s.loadEach files = ((catalogsOf files).map Prod.snd, s.withCatalogs (catalogsOf files)) :=
  foldl_loadNext isOpen [] files

/-! ## What is in force -/

/-- The last text is loaded by the service that the others have left. -/
theorem withCatalogs_concat (s : Service) (files : List CatalogText) (f : CatalogText) :
    s.withCatalogs (catalogsOf (files ++ [f]))
      = match catalogOf? f with
        | some c => (s.withCatalogs (catalogsOf files)).withCatalog c
        | none => s.withCatalogs (catalogsOf files) := by
  rw [catalogsOf, List.filterMap_append, withCatalogs, List.foldl_append]
  cases h : catalogOf? f with
  | some c =>
      rw [List.filterMap_cons_some h]
      rfl
  | none =>
      rw [List.filterMap_cons_none h]
      rfl

theorem get?_withCatalog (s : Service) (c : Catalog × LoadReport) (domain : String) :
    (s.withCatalog c).store.get? domain
      = if c.1.domain = .ofText domain then some (s.withDomainPolicy c.1)
        else s.store.get? domain := by
  rw [← domain_withDomainPolicy s c.1]
  exact Store.get?_publish s.store (s.withDomainPolicy c.1) domain

/-- The policies that are given to catalogs depend on the settings only. -/
theorem withDomainPolicy_withCatalogs (s : Service) (cs : List (Catalog × LoadReport))
    (c : Catalog) : (s.withCatalogs cs).withDomainPolicy c = s.withDomainPolicy c := by
  rw [withDomainPolicy, withDomainPolicy, settings_withCatalogs]

/-- One more text that is not for the domain, or cannot be loaded, leaves in force what is. -/
theorem LastLoaded.concat {domain : String} {files : List CatalogText} {c : Option Catalog}
    (h : LastLoaded s domain files c) {f : CatalogText} (idle : IsNamedFor domain f → ¬s.Loads f) :
    LastLoaded s domain (files ++ [f]) c := by
  have hafter : ∀ {after : List CatalogText}, (∀ g ∈ after, IsNamedFor domain g → ¬s.Loads g) →
      ∀ g ∈ after ++ [f], IsNamedFor domain g → ¬s.Loads g := by
    intro after hnone g hg
    rcases List.mem_append.mp hg with hg | hg
    · exact hnone g hg
    · rw [List.mem_singleton.mp hg]
      exact idle
  cases h with
  | previous noneLoads => exact .previous (hafter noneLoads)
  | last named loads published noneAfter =>
      rw [List.append_assoc, List.cons_append]
      exact .last named loads published (hafter noneAfter)

/-- **THE LAST TEXT THAT CAN BE LOADED** for a domain is in force. -/
theorem lastLoaded_loadEach (isOpen : s.closed = false) (domain : String)
    (files : List CatalogText) :
    LastLoaded s domain files ((s.loadEach files).2.store.get? domain) := by
  rw [loadEach_eq isOpen]
  -- from the end, since the last text decides
  induction files using List.reverseRecOn with
  | nil => exact .previous nofun
  | append_singleton files f ih =>
      dsimp only at ih ⊢
      rw [withCatalogs_concat]
      cases h : catalogOf? f with
      | none =>
          refine ih.concat fun _ hloads => ?_
          obtain ⟨c, hc⟩ := (loads_iff isOpen).mp hloads
          rw [h] at hc
          exact nomatch hc
      | some c =>
          have hdomain := domain_of_catalogOf? h
          dsimp only
          rw [get?_withCatalog]
          by_cases hnamed : IsNamedFor domain f
          · have hsame : c.1.domain = .ofText domain := by
              rw [hdomain]
              exact DomainName.ofText_eq_iff.mpr hnamed
            rw [if_pos hsame]
            refine .last hnamed (run_loadNamed_of_some isOpen h) ?_ nofun
            rw [get?_withCatalog, if_pos hsame, withDomainPolicy_withCatalogs]
          · rw [if_neg fun hsame => hnamed (DomainName.ofText_eq_iff.mp (hdomain.symm.trans hsame))]
            exact ih.concat fun named => absurd named hnamed

/-! ## Directories -/

/-- Names have an order. -/
theorem nameLe_trans (a b c : String × Entry) (hab : decide (a.1 ≤ b.1) = true)
    (hbc : decide (b.1 ≤ c.1) = true) : decide (a.1 ≤ c.1) = true :=
  decide_eq_true (String.le_trans (of_decide_eq_true hab) (of_decide_eq_true hbc))

theorem nameLe_total (a b : String × Entry) :
    (decide (a.1 ≤ b.1) || decide (b.1 ≤ a.1)) = true := by
  rw [Bool.or_eq_true, decide_eq_true_iff, decide_eq_true_iff]
  exact String.le_total a.1 b.1

theorem mem_catalogFiles_iff {entries : List (String × Entry)} {e : String × Entry} :
    e ∈ catalogFiles entries
      ↔ e ∈ entries ∧ e.2.isDirectory = false ∧ Path.isCatalogName e.1 = true := by
  rw [catalogFiles, (List.mergeSort_perm _ _).mem_iff, List.mem_filter, Bool.and_eq_true_iff,
    Bool.not_eq_true']

/-- Entries may be left out before or after the catalog files are put in order. -/
theorem catalogFiles_filter (entries : List (String × Entry)) (keep : String × Entry → Bool) :
    catalogFiles (entries.filter keep) = (catalogFiles entries).filter keep := by
  rw [catalogFiles, catalogFiles, filter_mergeSort nameLe_trans nameLe_total, List.filter_comm]

/-- The texts of a directory in ascending order of the names of their files. -/
def textsOf (entries : List (String × Entry)) : List CatalogText :=
  (catalogFiles entries).filterMap CatalogText.found?

theorem textsOf_sorted (entries : List (String × Entry)) :
    (textsOf entries).Pairwise fun f g => f.name ≤ g.name := by
  have hsorted := List.pairwise_mergeSort nameLe_trans nameLe_total
    (entries.filter fun e => !e.2.isDirectory && Path.isCatalogName e.1)
  refine hsorted.filterMap _ fun e e' hle f hf f' hf' => ?_
  rw [CatalogText.name_of_found? hf, CatalogText.name_of_found? hf']
  exact of_decide_eq_true hle

theorem textsOf_perm (entries : List (String × Entry)) :
    (textsOf entries).Perm (entries.filterMap CatalogText.found?) := by
  refine ((List.mergeSort_perm _ _).filterMap _).trans (List.Perm.of_eq ?_)
  rw [List.filterMap_filter]
  refine List.filterMap_congr fun e _ => ?_
  split
  · rfl
  · next h => exact (CatalogText.found?_of_not_catalogFile h).symm

/-- The catalog of a catalog file is that of the text in it. -/
theorem toOption_catalogOfFile_eq_bind {e : String × Entry} (h : Path.isCatalogName e.1 = true) :
    (catalogOfFile e.1 (some e.2)).toOption = (CatalogText.found? e).bind catalogOf? := by
  rw [toOption_catalogOfFile, entriesOfFile?, Option.bind_some, CatalogText.found?, if_pos h]
  cases e.2.text? with
  | none => rfl
  | some text => exact (Catalog.toOption_ofText (Path.stem e.1) text).symm

theorem catalogsOfFiles_catalogFiles (entries : List (String × Entry)) :
    catalogsOfFiles (catalogFiles entries)
      = (catalogFiles entries).filterMap fun e => (CatalogText.found? e).bind catalogOf? := by
  exact List.filterMap_congr fun e he =>
    toOption_catalogOfFile_eq_bind (mem_catalogFiles_iff.mp he).2.2

theorem catalogsOf_textsOf (entries : List (String × Entry)) :
    catalogsOf (textsOf entries) = catalogsOfFiles (catalogFiles entries) := by
  rw [catalogsOfFiles_catalogFiles, catalogsOf, textsOf, List.filterMap_filterMap]

/-- Idle entries are those without a catalog. -/
theorem idle_iff (isOpen : s.closed = false) {e : String × Entry} :
    s.Idle e ↔ (CatalogText.found? e).bind catalogOf? = none := by
  rw [Option.bind_eq_none_iff]
  constructor
  · intro idle f hf
    rw [Option.eq_none_iff_forall_not_mem]
    intro c hc
    exact idle f (CatalogText.found?_eq_some_iff.mp hf) ((loads_iff isOpen).mpr ⟨c, hc⟩)
  · intro h f hf hloads
    obtain ⟨c, hc⟩ := (loads_iff isOpen).mp hloads
    rw [h f (CatalogText.found?_eq_some_iff.mpr hf)] at hc
    exact nomatch hc

/-- Idle entries may be left out. -/
theorem catalogsOfFiles_filter (isOpen : s.closed = false) {entries : List (String × Entry)}
    {keep : String × Entry → Bool} (idle : ∀ e ∈ entries, keep e = false → s.Idle e) :
    catalogsOfFiles (catalogFiles (entries.filter keep))
      = catalogsOfFiles (catalogFiles entries) := by
  rw [catalogsOfFiles_catalogFiles, catalogsOfFiles_catalogFiles, catalogFiles_filter,
    List.filterMap_filter]
  refine List.filterMap_congr fun e he => ?_
  split
  · rfl
  · next hkeep =>
      have hidle := idle e (mem_catalogFiles_iff.mp he).1 (Bool.not_eq_true _ ▸ hkeep)
      exact ((idle_iff isOpen).mp hidle).symm

/-- **DIRECTORIES.** Loading a directory has the effect of loading the texts of its catalog files
one by one, in ascending order of the names: the reports are those of the loads that succeed, and
the service is the one that all of them leave. For each domain the last text that can be loaded is
in force afterwards. Entries that are no such files, or cannot be loaded, may be left out. -/
theorem loadDirectory_eq_loadEach (isOpen : s.closed = false) :
    (∀ e f, CatalogText.found? e = some f ↔ f.FoundAs e) ∧
    (∀ entries, ∃ files : List CatalogText,
      files.Pairwise (fun f g => f.name ≤ g.name) ∧
      files.Perm (entries.filterMap CatalogText.found?) ∧
      (loadDirectory (some (.directory entries))).run s
        = .ok (s.loadEach files).1 (s.loadEach files).2 ∧
      ∀ domain, LastLoaded s domain files ((s.loadEach files).2.store.get? domain)) ∧
    ∀ (entries : List (String × Entry)) (keep : String × Entry → Bool),
      (∀ e ∈ entries, keep e = false → s.Idle e) →
      (loadDirectory (some (.directory entries))).run s
        = (loadDirectory (some (.directory (entries.filter keep)))).run s := by
  have hrun : ∀ entries, (loadDirectory (some (.directory entries))).run s
      = .ok ((catalogsOfFiles (catalogFiles entries)).map Prod.snd)
          (s.withCatalogs (catalogsOfFiles (catalogFiles entries))) :=
    fun entries => run_loadFiles isOpen (catalogFiles entries)
  refine ⟨fun e f => CatalogText.found?_eq_some_iff, ?_, ?_⟩
  · intro entries
    refine ⟨textsOf entries, textsOf_sorted entries, textsOf_perm entries, ?_,
      fun domain => lastLoaded_loadEach isOpen domain (textsOf entries)⟩
    rw [hrun, loadEach_eq isOpen, catalogsOf_textsOf]
  · intro entries keep idle
    rw [hrun, hrun, catalogsOfFiles_filter isOpen idle]

/-- A directory with a text that is no catalog file and with two spellings of one domain, for which
a catalog is in force already. The text of the later file breaks off, so that of the earlier one
comes into force. -/
theorem loadDirectory_eq_loadEach_bank :
    let entries : List (String × Entry) :=
      [("notes.txt", .file "[]".toUTF8), ("bank.json", .file "[".toUTF8),
        ("bank.JSON", .file "[\x7b\"ruleId\": \"NEW\"\x7d, null]".toUTF8)]
    let keep (e : String × Entry) : Bool := e.1 == "bank.JSON"
    let s := (start {}).after (loadCatalog (.ofRules "bank" [.named "OLD"]))
    (s.ruleIds "bank" = some ["OLD"] ∧
      (s.after (loadDirectory (some (.directory entries)))).ruleIds "bank" = some ["NEW"]) ∧
    s.closed = false ∧
    (∃ files : List CatalogText,
      files.Pairwise (fun f g => f.name ≤ g.name) ∧
      files.Perm (entries.filterMap CatalogText.found?) ∧
      (loadDirectory (some (.directory entries))).run s
        = .ok (s.loadEach files).1 (s.loadEach files).2 ∧
      ∀ domain, LastLoaded s domain files ((s.loadEach files).2.store.get? domain)) ∧
    (∀ e ∈ entries, keep e = false → s.Idle e) ∧
    (loadDirectory (some (.directory entries))).run s
      = (loadDirectory (some (.directory (entries.filter keep)))).run s := by
  intro entries keep s
  have isOpen : s.closed = false := rfl
  have hnone : ∀ e ∈ entries, keep e = false →
      ((CatalogText.found? e).bind catalogOf?).isNone = true := by
    decide +kernel
  have hidle : ∀ e ∈ entries, keep e = false → s.Idle e :=
    fun e he hkeep => (idle_iff isOpen).mpr (Option.isNone_iff_eq_none.mp (hnone e he hkeep))
  obtain ⟨-, hfold, hfilter⟩ := loadDirectory_eq_loadEach isOpen
  have hsame := hfilter entries keep hidle
  have hnew : (s.after (loadDirectory (some (.directory entries)))).ruleIds "bank"
      = some ["NEW"] := by
    rw [after, hsame]
    decide +kernel
  exact ⟨⟨by decide +kernel, hnew⟩, isOpen, hfold entries, hidle, hsame⟩

end Service

end RiskDecision
