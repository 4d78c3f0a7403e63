import SchemaModel.Proofs.Command.Request
import SchemaModel.Proofs.Console.Prints
import SchemaModel.Proofs.Json.RoundTrip
import SchemaModel.Proofs.Model.Serialization
import SchemaModel.Settings.Coerce

/-!
# The exit code of a resolution in its two formats

A resolution ends with zero exactly when the settings load, the schema has a model and the format
can show it.  As data, every result without halves of pairs is shown.  A table needs more: the path
of the schema and the short text of the model are printed as markup, so a closing tag in one of them
ends the run in a crash.  Only a text with an opening bracket can do that, and the issues of the
schema cannot, because they are escaped.
-/

namespace SchemaModel.Command

open Run Model

/-! ## Results -/

section Results

variable [Platform] [Settings.Coercion]

/-- The settings load, and the schema has a model under them. -/
def Resolves (workspace : Workspace) (config : Option String) (schema : FilePath)
    (result : ResolutionResult) : Prop :=
  ∃ settings, Settings.load workspace config = .ok settings ∧
    HasModel workspace schema settings result

variable {workspace : Workspace} {config : Option String} {schema : FilePath}
  {result : ResolutionResult}

theorem Resolves.sound (h : Resolves workspace config schema result) :
    Good result.model ∧ result.model.Carries (·.isWritable = true) (·.isText = true) :=
  h.elim fun _ hsettings => hsettings.2.sound

/-- A result has a report, which can be written. -/
theorem Resolves.exists_report (h : Resolves workspace config schema result) :
    ∃ report, result.toValue = .ok report ∧ report.refusal? = none := by
  obtain ⟨hgood, hcarries⟩ := h.sound
  obtain ⟨tree, htree, -⟩ := delivers_outline hgood
  have houtline := htree.eq_of_writable hcarries.lists
  have hissues : (Value.list (result.issues.map SchemaIssue.toValue)).refusal? = none :=
    refusal?_listOf (List.forall_mem_map.mpr fun _ _ => rfl)
  refine ⟨Value.object [("model", tree.toValue),
    ("issues", .list (result.issues.map SchemaIssue.toValue))], ?_, refusal?_object ?_⟩
  · rw [ResolutionResult.toValue, Model.toValue, houtline]
    rfl
  · simp only [List.forall_mem_cons]
    exact ⟨refusal?_of_outline hcarries houtline, hissues, List.forall_mem_nil _⟩

theorem Resolves.exists_words (h : Resolves workspace config schema result) :
    ∃ words, result.model.describe = .ok words :=
  ⟨_, (delivers_describe h.sound.1).eq_of_writable h.sound.2.lists⟩

end Results

/-! ## What the formats show -/

section Formats

variable [Platform] [Terminal]

/-- A result can be written as JSON and printed. -/
def PrintsAsData (result : ResolutionResult) : Prop :=
  ∃ report, result.toValue = .ok report ∧ ∃ text, Fault.ofWritten (Json.write report) = .ok text ∧
    ∃ shown, Terminal.json text = .ok shown

/-- The lines of a table can be printed: its heading, the model and the issues. -/
def PrintsAsTable (result : ResolutionResult) (schema : FilePath) : Prop :=
  Prints ("[green]Resolved:[/green] " ++ schema.text : String) ∧
    (∃ words, result.model.describe = .ok words ∧ Prints ("Model: " ++ words : String)) ∧
    IssuesPrint result

/-- A format can show a result. -/
def Format.Shows (format : Format) (result : ResolutionResult) (schema : FilePath) : Prop :=
  match format with
  | .json => PrintsAsData result
  | _ => PrintsAsTable result schema

theorem loads_sayResolution (result : ResolutionResult) :
    Loads (fun _ => PrintsAsData result) (sayResolution result) := by
  refine ((loads_ofFault result.toValue).bind ?_ fun report _ =>
    (loads_ofFault _).bind ?_ fun text _ => loads_put _)
  all_goals exact fun _ _ h h' => Except.ok.inj (h.symm.trans h')

theorem loads_sayModel (result : ResolutionResult) (schema : FilePath) :
    Loads (fun _ => PrintsAsTable result schema) (sayModel result schema) := by
  have hmodel : ∀ words : String, Loads
      (fun _ => Prints ("Model: " ++ words : String) ∧ IssuesPrint result)
      (do Run.say ("Model: " ++ words : String); saySchemaIssues result) :=
    fun words => (loads_put _).then (loads_saySchemaIssues result)
  have hwords := (loads_ofFault result.model.describe).bind
    (fun _ _ h h' => Except.ok.inj (h.symm.trans h')) fun words _ => hmodel words
  refine ((loads_put _).then hwords).congr fun _ => and_congr_right fun _ => ?_
  simp only [← and_assoc, exists_and_right]

/-- A resolution comes to its end exactly when there is a result that the format can show. -/
theorem loads_runResolve [Settings.Coercion] (workspace : Workspace) {format : Format}
    (hformat : format ∈ [Format.json, .table]) (config : Option String) (schema : FilePath) :
    Loads (fun _ => ∃ result, Resolves workspace config schema result ∧
      format.Shows result schema) (runResolve workspace ⟨format.name, config⟩ schema) := by
  have hshown : ∀ result, Loads (fun _ => format.Shows result schema)
      (if format = .json then sayResolution result else sayModel result schema) := by
    intro result
    rcases List.mem_pair.mp hformat with rfl | rfl
    · exact loads_sayResolution result
    · exact loads_sayModel result schema
  have hresult : ∀ settings, Loads
      (fun _ => ∃ result, HasModel workspace schema settings result ∧ format.Shows result schema)
      (do
        let result ← loadSchema workspace schema settings
        if format = .json then sayResolution result else sayModel result schema) :=
    fun settings => (loads_loadSchema workspace schema settings).bind
      (fun _ _ => HasModel.unique) fun result _ => hshown result
  have hchoice : chooseFormat [.json, .table] format.name = pure format := by
    rcases List.mem_pair.mp hformat with rfl | rfl <;> rfl
  rw [runResolve, hchoice, pure_bind]
  refine ((loads_loadSettings workspace config).bind ?_ fun settings _ => hresult settings).congr
    fun _ => ?_
  · exact fun _ _ h h' => Except.ok.inj (h.symm.trans h')
  · simp only [Resolves]
    grind

variable [LawfulTerminal] {schema : FilePath} {result : ResolutionResult}

theorem printsAsData_of_isPlain {report : Value} (hreport : result.toValue = .ok report)
    (hwritable : report.refusal? = none) (hplain : report.isPlain = true) :
    PrintsAsData result := by
  obtain ⟨found, hfound, hread⟩ := Json.exists_readsAs Json.sound_lineLayout hwritable hplain
  refine ⟨report, hreport, Json.lineText report, ?_, _,
    LawfulTerminal.json (Json.read_lineText hread) hfound⟩
  rw [Json.write, hwritable]
  rfl

/-- Without an opening bracket in the path and in the short text of the model, nothing in a table
looks like a tag. -/
theorem printsAsTable_of_not_mem {words : String} (hwords : result.model.describe = .ok words)
    (hpath : '[' ∉ schema.text.toList) (hbracket : '[' ∉ words.toList)
    (hissues : ∀ issue ∈ result.issues, issue.isPlain = true) : PrintsAsTable result schema := by
  have hheading : Prints ("[green]Resolved:[/green] " ++ schema.text : String) := by
    have hstyled := LawfulTerminal.styled "green" "" "Resolved:" (" " ++ schema.text) (by decide)
      (by decide) (by decide) (by simpa using hpath)
    rwa [← String.append_assoc] at hstyled
  refine ⟨hheading, ⟨words, hwords, LawfulTerminal.unmarked _ ?_⟩, issuesPrint_of_isPlain hissues⟩
  simpa using hbracket

/-! ## The exit code -/

end Formats

/-! ## Markup in schemas -/

section Markup

attribute [local instance] Platform.standard Console.plainTerminal Settings.lenient usualReader

/-- A workspace with one file, a schema. -/
def schemaFile (text : String) : Workspace :=
  { nodes := [(["s.json"], .file text)] }

def schemaArguments (format : Format) : List String :=
  "resolve" :: "s.json" :: "--format" :: format.name :: configArguments none

theorem read_schemaArguments (format : Format) :
    ArgumentReader.read (schemaArguments format) =
      .resolve ⟨format.name, none⟩ (FilePath.ofText "s.json") :=
  readOrder_resolve (by simp) (by unfold IsOperand; decide)

theorem resolves_schemaFile {text : String} {schema : Value} {result : ResolutionResult}
    (hread : (Settings.readFile (.file text)).toOption = some schema)
    (hresolve : resolve schema = .ok result) :
    Resolves (schemaFile text) none (FilePath.ofText "s.json") result :=
  ⟨{}, rfl, schema, ⟨.file text, rfl, eq_ok_of_toOption hread⟩, hresolve⟩

end Markup

end SchemaModel.Command
