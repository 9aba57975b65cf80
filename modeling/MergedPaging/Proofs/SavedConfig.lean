/-
Settings that are saved load back unchanged: the document of the settings is put together from
lines, its lines build the tables that they were written from, and the tables hold the settings.
Settings with a size that is too large for TOML are not saved, and settings that break a
condition are saved but refused when they are loaded.
-/
import MergedPaging.Proofs.DocumentText

namespace MergedPaging

namespace Config

open Toml

variable (c : Config)

/-- The lines of the document that say something. -/
def documentLines : List Line := [
  .entry ⟨"failure_policy", []⟩ (.string c.failurePolicy.name),
  .entry ⟨"parallel", []⟩ (.boolean c.parallel),
  .table ⟨"paging", []⟩,
  .entry ⟨"default_size", []⟩ (.integer c.paging.defaultSize),
  .entry ⟨"max_size", []⟩ (.integer c.paging.maxSize),
  .entry ⟨"max_drain_pages", []⟩ (.integer c.paging.maxDrainPages),
  .table ⟨"sources", []⟩,
  .entry ⟨"enabled", []⟩ (.array (c.sources.enabled.map .string))]

/-- The tables of the document. -/
def documentFields : Fields := [
  ("failure_policy", .string c.failurePolicy.name),
  ("parallel", .boolean c.parallel),
  ("paging", .table .header [
    ("default_size", .integer c.paging.defaultSize),
    ("max_size", .integer c.paging.maxSize),
    ("max_drain_pages", .integer c.paging.maxDrainPages)]),
  ("sources", .table .header [("enabled", .array (c.sources.enabled.map .string))])]

/-- The sizes among the settings. -/
def sizes : List Nat :=
  [c.paging.defaultSize, c.paging.maxSize, c.paging.maxDrainPages]

variable {c}

theorem isWritable_iff : c.isWritable = true ↔ ∀ n ∈ c.sizes, n ≤ 2 ^ 63 - 1 := by
  simp only [isWritable, sizes, Bool.and_eq_true, decide_eq_true_eq, List.forall_mem_cons,
    List.not_mem_nil, false_imp_iff, implies_true, and_true]
  rw [Text.int64Limit]
  omega

theorem toToml?_eq_some_iff {text : String} :
    c.toToml? = some text ↔ (∀ n ∈ c.sizes, n ≤ 2 ^ 63 - 1) ∧ c.document = text := by
  rw [toToml?, Option.ite_none_right_eq_some, Option.some.injEq, isWritable_iff]

theorem toToml?_eq_none_iff : c.toToml? = none ↔ ∃ n ∈ c.sizes, 2 ^ 63 - 1 < n := by
  simp only [toToml?, ite_eq_right_iff, reduceCtorEq, imp_false, isWritable_iff, not_forall,
    Nat.not_le, exists_prop]

theorem toList_document :
    c.document.toList =
      (writeEntry "failure_policy" (ofString c.failurePolicy.name) <|
      writeEntry "parallel" (toString c.parallel) <|
      '\n' :: (writeHeader "paging" <|
      writeEntry "default_size" (toString c.paging.defaultSize) <|
      writeEntry "max_size" (toString c.paging.maxSize) <|
      writeEntry "max_drain_pages" (toString c.paging.maxDrainPages) <|
      '\n' :: (writeHeader "sources" <|
      writeEntry "enabled" (ofStrings c.sources.enabled) []))) := by
  -- `unfold` and `rw` run out of time on a text of this length.
  delta document
  simp only [String.toList_append, List.append_assoc]
  rfl

theorem document_of_sizes (h : ∀ n ∈ c.sizes, n ≤ 2 ^ 63 - 1) :
    Document c.document.toList c.documentLines := by
  have hnat {n : Nat} (hn : n ∈ c.sizes) : Spells (toString n).toList (.integer n) :=
    spells_nat (Nat.lt_succ_of_le (h n hn))
  -- One step for each line, in the order of the text.
  rw [toList_document]
  apply Document.entry (by decide) (spells_string _)
  apply Document.entry (by decide) (spells_bool _)
  apply Document.blank
  apply Document.table (by decide)
  apply Document.entry (by decide) (hnat (by simp [sizes]))
  apply Document.entry (by decide) (hnat (by simp [sizes]))
  apply Document.entry (by decide) (hnat (by simp [sizes]))
  apply Document.blank
  apply Document.table (by decide)
  exact .entry (by decide) (spells_strings _) .nil

theorem build_documentLines :
    Fields.build [] [] c.documentLines = some c.documentFields := rfl

theorem named?_name (p : FailurePolicy) :
    Toml.named? FailurePolicy.ofName? (.string p.name) = some p := by
  cases p with
  | abort => rfl
  | skipAsEmpty => rfl

theorem list?_strings (strings : List String) :
    Toml.list? Toml.string? (.array (strings.map .string)) = some strings := by
  induction strings with
  | nil => rfl
  | cons s strings ih =>
      simp only [list?] at ih
      simp [list?, ih, string?]

theorem ofToml?_documentFields : ofToml? (.table .header c.documentFields) = some c := by
  have hpolicy := named?_name c.failurePolicy
  have henabled := list?_strings c.sources.enabled
  simp [ofToml?, setting, setting?, documentFields, PagingConfig.ofToml?,
    SourcesConfig.ofToml?, nat?, bool?, List.lookup_cons, hpolicy, henabled]

/-- What is loaded from a document is the settings that it holds, once they are checked. -/
theorem parse_document (h : ∀ n ∈ c.sizes, n ≤ 2 ^ 63 - 1) :
    parse c.document = (c.check.mapError .invalid).map fun _ => c := by
  have hread : (Toml.parse c.document >>= fun fields => ofToml? (.table .header fields)) =
      some c := by
    rw [parse_eq_build (document_of_sizes h), build_documentLines]
    exact ofToml?_documentFields
  rw [parse, hread]
  dsimp only
  rcases c.check with fault | ⟨⟩
  · rfl
  · rfl

/-- Valid settings whose sizes TOML can write are saved and load back unchanged, whatever the
listed ids consist of.  Settings are not saved if and only if one of their sizes is too large,
and settings that are saved but not valid are refused for their first fault. -/
theorem saved_loads_back (c : Config) :
    (c.check = .ok () → (∀ n ∈ c.sizes, n ≤ 2 ^ 63 - 1) →
      ∃ text, c.toToml? = some text ∧ parse text = .ok c) ∧
    ((∃ n ∈ c.sizes, 2 ^ 63 - 1 < n) ↔ c.toToml? = none) ∧
    ∀ text fault, c.toToml? = some text → c.check = .error fault →
      parse text = .error (.invalid fault) := by
  refine ⟨?_, toToml?_eq_none_iff.symm, ?_⟩
  · intro hcheck hsizes
    refine ⟨c.document, toToml?_eq_some_iff.2 ⟨hsizes, rfl⟩, ?_⟩
    rw [parse_document hsizes, hcheck]
    rfl
  · intro text fault hsaved hcheck
    obtain ⟨hsizes, htext⟩ := toToml?_eq_some_iff.1 hsaved
    rw [← htext, parse_document hsizes, hcheck]
    rfl

end Config

namespace Sample

/-- Ids that take every way of quoting. -/
def wordyConfig : Config where
  failurePolicy := .skipAsEmpty
  sources := ⟨["plain", "it's", "\"quoted\"", "'both' \"kinds\"", "\n\"\"\"", "\t'''",
    "ends with '\"", "\\", "\u0000\u007F", "\r\n"]⟩

/-- Settings that list a source twice. -/
def repeatingConfig : Config where
  sources := ⟨["west", "west"]⟩

def hugeConfig : Config where
  paging := { maxSize := 2 ^ 63 }

theorem wordy_config_loads_back :
    (∃ text, wordyConfig.toToml? = some text ∧ Config.parse text = .ok wordyConfig) ∧
    hugeConfig.toToml? = none ∧
    Config.parse repeatingConfig.document = .error (.invalid (.repeatedSource "west")) := by
  have hwordy := Config.saved_loads_back wordyConfig
  have hhuge := Config.saved_loads_back hugeConfig
  have hrepeating := Config.saved_loads_back repeatingConfig
  refine ⟨hwordy.1 ?_ ?_, hhuge.2.1.1 ⟨2 ^ 63, ?_, ?_⟩, hrepeating.2.2 _ _ ?_ ?_⟩
  · rfl
  · simp [Config.sizes, wordyConfig]
  · simp [Config.sizes, hugeConfig]
  · decide
  · rfl
  · rfl

end Sample

end MergedPaging
