import SchemaModel.Proofs.Command.Request
import SchemaModel.Proofs.Console.Prints
import SchemaModel.Proofs.Json.RoundTrip
import SchemaModel.Proofs.Model.Check
import SchemaModel.Settings.Coerce

/-!
# The verdict of a validation as an exit code

A validation ends with zero when everything it needs can be loaded and the model accepts the
document, and with one otherwise.  An accepted document has no issues, so all that a report then
takes from outside are the issues of the schema, which only a table shows.  They are escaped: no tag
in them can come between the verdict and the exit code, but a half of a pair can.
-/

namespace SchemaModel

/-- What a result says is written without loss. -/
theorem ValidationResult.lossless_toValue [Platform] (result : ValidationResult) :
    Json.Lossless result.toValue := by
  have hcode : Json.Lossless (.int result.exitCode) := by
    have hshort : ∀ n ≤ 1, Platform.writes (n : Nat) = true := by
      intro n hn
      rw [Platform.writes, Option.isNone_iff_eq_none, Platform.exceeded?,
        Option.filter_eq_none_iff]
      intro limit hlimit
      have hleast := Platform.least limit hlimit
      have hlength : (Nat.toDigits 10 (n : Int).natAbs).length ≤ 1 :=
        (Nat.length_toDigits_le_iff (by decide) (by decide)).mpr (by omega)
      simp only [decide_eq_true_eq]
      omega
    exact .int (hshort _ (by rw [exitCode]; split <;> decide))
  have hissue : ∀ issue : ValueIssue, Json.Lossless
      (Value.object [("path", .str issue.path), ("reason", .str issue.reason)]) := by
    intro issue
    exact .mapping (by simp) rfl (by simp [Json.Lossless.str])
  have hissues : Json.Lossless (.list (result.issues.map fun issue =>
      Value.object [("path", .str issue.path), ("reason", .str issue.reason)])) :=
    .list (List.forall_mem_map.mpr fun issue _ => hissue issue)
  exact .mapping (by simp) rfl (by simp [Json.Lossless.bool, hcode, hissues])

namespace Command

open Run Model

/-! ## Reports -/

section Reports

variable {result : ValidationResult}

/-- Only a rejected document has issues, and then a crash tells the same as the exit code. -/
theorem fails_of_issues (h : result.accepted = true → result.issues = [])
    (hissues : ¬ result.issues.isEmpty = true) : result.accepted = false := by
  cases haccepted : result.accepted with
  | true => exact absurd (List.isEmpty_iff.mpr (h haccepted)) hissues
  | false => rfl

variable [Platform]

theorem write_result (result : ValidationResult) :
    Fault.ofWritten (Json.write result.toValue) = .ok (Json.lineText result.toValue) := by
  rw [Json.write, result.lossless_toValue.refusal?_eq_none]
  rfl

variable [Terminal] [LawfulTerminal]

theorem json_result (result : ValidationResult) :
    Terminal.json (Json.lineText result.toValue) = .ok (Json.pageText result.toValue ++ "\n") :=
  LawfulTerminal.json (Json.read_lineText (result.lossless_toValue.readsAs Json.sound_lineLayout))
    result.lossless_toValue.isPlain

/-- The outcome is printed as data, whatever it is. -/
theorem leads_sayJson (exits : Nat → Prop) :
    Leads (fun _ => True) exits (Run.sayJson result.toValue) := by
  rw [Run.sayJson, write_result, ofFault, pure_bind, json_result]
  exact leads_put (.inl ⟨_, rfl⟩)

variable (h : result.accepted = true → result.issues = [])

include h

/-- Only the issues of a rejected document can keep a report under headings from being printed. -/
theorem leads_sayMarkdown :
    Leads (fun _ => True) (fun code => code = 1 ∧ result.accepted = false)
      (sayMarkdown result) := by
  have hverdict : Prints ("**Accepted:** " ++ shownFlag result.accepted : String) := by
    cases result.accepted <;> exact LawfulTerminal.unmarked _ (by decide)
  have hcode : Prints ("**Exit Code:** " ++ wholeText result.exitCode : String) := by
    rw [ValidationResult.exitCode]
    cases result.accepted <;> exact LawfulTerminal.unmarked _ (by decide)
  rw [sayMarkdown]
  refine (leads_put (.inl (LawfulTerminal.unmarked _ (by decide)))).then fun _ => ?_
  refine (leads_put (.inl hverdict)).then fun _ => ?_
  refine (leads_put (.inl hcode)).then fun _ => ?_
  refine (leads_put (.inl (LawfulTerminal.unmarked _ (by decide)))).then fun _ => ?_
  split
  · exact leads_pure trivial
  · next hissues =>
    have hfails : 1 = 1 ∧ result.accepted = false := ⟨rfl, fails_of_issues h hissues⟩
    refine (leads_put (.inr hfails)).then fun _ => leads_forM fun issue _ => ?_
    exact leads_put (.inr hfails)

/-- A table of an accepted document needs the issues of the schema to print. -/
theorem leads_sayStatus (resolution : ResolutionResult) :
    Leads (fun _ => result.accepted = true → IssuesPrint resolution)
      (fun code => code = 1 ∧ ¬ (result.accepted = true ∧ IssuesPrint resolution))
      (sayStatus result resolution) := by
  have hstatus : Prints ("[" ++ (if result.accepted then "green" else "red") ++
      "]Validation Status: " ++ (if result.accepted then "ACCEPTED" else "REJECTED") ++
      "[/" ++ (if result.accepted then "green" else "red") ++ "]" : String) := by
    cases result.accepted
    · exact LawfulTerminal.styled "red" "" "Validation Status: REJECTED" "" (by decide)
        (by decide) (by decide) (by decide)
    · exact LawfulTerminal.styled "green" "" "Validation Status: ACCEPTED" "" (by decide)
        (by decide) (by decide) (by decide)
  have hcode : Prints ("Exit Code: " ++ wholeText result.exitCode : String) := by
    rw [ValidationResult.exitCode]
    cases result.accepted <;> exact LawfulTerminal.unmarked _ (by decide)
  have hnone : Prints "\n[green]No issues found![/green]" :=
    LawfulTerminal.styled "green" "\n" "No issues found!" "" (by decide) (by decide) (by decide)
      (by decide)
  rw [sayStatus]
  refine (leads_put (.inl hstatus)).then fun _ => ?_
  refine (leads_put (.inl hcode)).then fun _ => ?_
  split
  · refine (leads_put (.inl hnone)).then fun _ => ?_
    refine (loads_saySchemaIssues resolution).imp (fun _ hprint _ => hprint) ?_
    exact fun code ⟨hcode, hfaulty⟩ => ⟨hcode, fun hboth => hfaulty () hboth.2⟩
  · next hissues =>
    have hrejected := fails_of_issues h hissues
    have hfails : 1 = 1 ∧ ¬ (result.accepted = true ∧ IssuesPrint resolution) := by
      simp [hrejected]
    refine (leads_put (.inr hfails)).then fun _ => (leads_put (.inr hfails)).then fun _ => ?_
    refine (loads_saySchemaIssues resolution).imp (fun _ _ => ?_) fun code hcode => ?_
    · simp [hrejected]
    · exact ⟨hcode.1, hfails.2⟩

/-- The exit code after a report: zero for an accepted document whose report is printed. -/
theorem leads_report (resolution : ResolutionResult) (format : Format) :
    let passes := result.accepted = true ∧ (format = .table → IssuesPrint resolution)
    Leads (fun _ : Unit => False) (fun code => code = 0 ∧ passes ∨ code = 1 ∧ ¬ passes) (do
      match format with
      | .json => Run.sayJson result.toValue
      | .markdown => sayMarkdown result
      | .table => sayStatus result resolution
      Run.exit result.exitCode) := by
  intro passes
  have hexit : (result.accepted = true → format = .table → IssuesPrint resolution) →
      result.exitCode = 0 ∧ passes ∨ result.exitCode = 1 ∧ ¬ passes := by
    intro hprint
    rw [ValidationResult.exitCode]
    cases haccepted : result.accepted with
    | true => exact .inl ⟨rfl, haccepted, hprint haccepted⟩
    | false => exact .inr ⟨rfl, fun hpasses => Bool.false_ne_true (haccepted.symm.trans hpasses.1)⟩
  cases format with
  | json => exact (leads_sayJson _).then fun _ => leads_exit (hexit fun _ => nofun)
  | markdown =>
      refine ((leads_sayMarkdown h).imp (fun _ h => h) ?_).then fun _ =>
        leads_exit (hexit fun _ => nofun)
      rintro code ⟨rfl, hrejected⟩
      exact .inr ⟨rfl, fun hpasses => Bool.false_ne_true (hrejected.symm.trans hpasses.1)⟩
  | table =>
      refine ((leads_sayStatus h resolution).imp (fun _ h => h) ?_).bind fun _ hprint =>
        leads_exit (hexit fun haccepted _ => hprint haccepted)
      rintro code ⟨rfl, hfails⟩
      exact .inr ⟨rfl, fun hpasses => hfails ⟨hpasses.1, hpasses.2 rfl⟩⟩

end Reports

/-! ## The verdict -/

section Verdict

variable [Platform]

theorem exists_validate_eq {model : Model} (h : Good model) (hwritable : model.Writable)
    (value : Value) (settings : ValidatorSettings) :
    ∃ result, model.validate value settings = .ok result ∧
      model.accepts value = .ok result.accepted ∧
      (result.accepted = true → result.issues = []) := by
  refine ⟨_, (delivers_validate h value settings).eq_of_writable hwritable,
    (delivers_accepts h value).eq_of_writable hwritable, fun haccepted => ?_⟩
  have hnone : model.failures value [] = [] := by
    rw [← List.isEmpty_iff, isEmpty_failures h]
    exact haccepted
  rw [hnone]
  cases settings.failFast <;> simp [recorded]

variable [Settings.Coercion]

/-- Everything that a validation needs can be loaded, and the model accepts the document. -/
def Passes (workspace : Workspace) (config : Option String) (schema data : FilePath)
    (resolution : ResolutionResult) : Prop :=
  ∃ settings value, Settings.load workspace config = .ok settings ∧
    HasModel workspace schema settings resolution ∧ HasDocument workspace data value ∧
    resolution.model.accepts value = .ok true

variable [Terminal] [LawfulTerminal]

/-- The exit code of a validation: zero for a document that passes if its report is printed, and one
otherwise. -/
theorem leads_runValidate (workspace : Workspace) (format : Format) (config : Option String)
    (schema data : FilePath) :
    let passes := ∃ resolution, Passes workspace config schema data resolution ∧
      (format = .table → IssuesPrint resolution)
    Leads (fun _ => False) (fun code => code = 0 ∧ passes ∨ code = 1 ∧ ¬ passes)
      (runValidate workspace ⟨format.name, config⟩ schema data) := by
  intro passes
  have hchoice : chooseFormat [.table, .json, .markdown] format.name = pure format := by
    cases format <;> rfl
  rw [runValidate, hchoice, pure_bind]
  refine (loads_loadSettings workspace config).andThen (fun hnone => .inr ⟨rfl, ?_⟩)
    fun settings hsettings => ?_
  · rintro ⟨-, ⟨settings, -, hload, -⟩, -⟩
    exact hnone settings hload
  refine (loads_loadSchema workspace schema settings).andThen (fun hnone => .inr ⟨rfl, ?_⟩)
    fun resolution hmodel => ?_
  · rintro ⟨resolution, ⟨other, -, hload, hmodel, -⟩, -⟩
    cases hsettings.symm.trans hload
    exact hnone resolution hmodel
  refine (loads_loadDocument workspace data "data").andThen (fun hnone => .inr ⟨rfl, ?_⟩)
    fun value hvalue => ?_
  · rintro ⟨-, ⟨-, value, -, -, hvalue, -⟩, -⟩
    exact hnone value hvalue
  obtain ⟨result, hvalidate, haccepts, hissues⟩ :=
    exists_validate_eq hmodel.sound.1 hmodel.writable value settings.validator
  have hpasses : passes ↔ result.accepted = true ∧ (format = .table → IssuesPrint resolution) := by
    constructor
    · rintro ⟨other, ⟨settings', value', hload, hmodel', hvalue', haccepts'⟩, hprint⟩
      cases hsettings.symm.trans hload
      cases hmodel.unique hmodel'
      cases hvalue.unique workspace hvalue'
      exact ⟨Except.ok.inj (haccepts.symm.trans haccepts'), hprint⟩
    · rintro ⟨haccepted, hprint⟩
      rw [haccepted] at haccepts
      exact ⟨resolution, ⟨settings, value, hsettings, hmodel, hvalue, haccepts⟩, hprint⟩
  rw [hvalidate, ofFault, pure_bind, hpasses]
  exact leads_report hissues resolution format

theorem exitCode_of_validate [ArgumentReader] (workspace : Workspace) {format : Format}
    {config : Option String} {schema data : FilePath} {arguments : List String}
    (hread : ArgumentReader.read arguments = .validate ⟨format.name, config⟩ schema data) :
    (run workspace arguments).exitCode = 0 ∧ (∃ resolution,
      Passes workspace config schema data resolution ∧
        (format = .table → IssuesPrint resolution)) ∨
    (run workspace arguments).exitCode = 1 ∧ ¬ ∃ resolution,
      Passes workspace config schema data resolution ∧
        (format = .table → IssuesPrint resolution) :=
  exitCode_of_leads _ hread
    ((leads_runValidate workspace format config schema data).imp (fun _ h => h.elim) fun _ h => h)

/-- The exit code of a validation tells acceptance, as data and as text without a table: it is zero
exactly when the settings load, the schema has a model, the data file holds a document and the model
accepts it.  A table needs moreover that the issues of the schema can be printed, as they can when
there are no halves of pairs in them.  The only other exit code is one. -/
theorem validate_exitCode_by_format [ArgumentReader] (workspace : Workspace)
    {config : Option String} {schema data : FilePath} {arguments : Format → List String}
    (hread : ∀ format,
      ArgumentReader.read (arguments format) = .validate ⟨format.name, config⟩ schema data) :
    let exitCode := fun format => (run workspace (arguments format)).exitCode
    (∀ format, format ≠ .table →
      (exitCode format = 0 ↔ ∃ resolution, Passes workspace config schema data resolution)) ∧
    (exitCode .table = 0 ↔
      ∃ resolution, Passes workspace config schema data resolution ∧ IssuesPrint resolution) ∧
    (∀ resolution, Passes workspace config schema data resolution →
      (∀ issue ∈ resolution.issues, issue.isPlain = true) → exitCode .table = 0) ∧
    ∀ format, exitCode format = 0 ∨ exitCode format = 1 := by
  intro exitCode
  have htells := fun format => exitCode_of_validate workspace (hread format)
  have hzero : ∀ format, exitCode format = 0 ↔ ∃ resolution,
      Passes workspace config schema data resolution ∧
        (format = .table → IssuesPrint resolution) := by
    intro format
    rcases htells format with ⟨hcode, hpasses⟩ | ⟨hcode, hpasses⟩
    · exact iff_of_true hcode hpasses
    · exact iff_of_false (by simp only [exitCode]; omega) hpasses
  refine ⟨fun format hformat => ?_, ?_, fun resolution hpasses hplain => ?_, fun format => ?_⟩
  · rw [hzero]
    exact exists_congr fun resolution => and_iff_left fun htable => absurd htable hformat
  · rw [hzero]
    exact exists_congr fun resolution => and_congr_right fun _ => forall_prop_of_true rfl
  · exact (hzero .table).mpr ⟨resolution, hpasses, fun _ => issuesPrint_of_isPlain hplain⟩
  · exact (htells format).imp And.left And.left

end Verdict

/-! ## Odd keywords -/

section Keywords

attribute [local instance] Platform.standard Console.plainTerminal Settings.lenient usualReader

/-- A workspace with a schema that has one keyword, which nothing supports, and a document. -/
def keywordFiles (keyword : String) : Workspace :=
  { nodes := [(["s.json"], .file ("\x7b\"" ++ keyword ++ "\": true\x7d")),
      (["d.json"], .file "null")] }

def validateArguments (format : Format) : List String :=
  "validate" :: "s.json" :: "d.json" :: "--format" :: format.name :: configArguments none

theorem read_validateArguments (format : Format) :
    ArgumentReader.read (validateArguments format) =
      .validate ⟨format.name, none⟩ (FilePath.ofText "s.json") (FilePath.ofText "d.json") :=
  readOrder_validate (by simp) (by unfold IsOperand; decide) (by unfold IsOperand; decide)

theorem passes_keywordFiles (keyword : String) {name : Text} {issues : List SchemaIssue}
    (hread : (Settings.readFile (.file ("\x7b\"" ++ keyword ++ "\": true\x7d"))).toOption =
      some (.mapping .dict [(.str name, .bool true)]))
    (hresolve : resolve (.mapping .dict [(.str name, .bool true)]) = .ok ⟨.unknown, issues⟩) :
    Passes (keywordFiles keyword) none (FilePath.ofText "s.json") (FilePath.ofText "d.json")
      ⟨.unknown, issues⟩ := by
  have hdocument : HasDocument (keywordFiles keyword) (FilePath.ofText "s.json")
      (.mapping .dict [(.str name, .bool true)]) := ⟨_, rfl, eq_ok_of_toOption hread⟩
  refine ⟨{}, .null, rfl, ⟨_, hdocument, hresolve⟩, ⟨.file "null", rfl, rfl⟩, ?_⟩
  rw [accepts]

/-- A keyword that reads like a closing tag does not come between the verdict and the exit code. -/
theorem validate_exitCode_of_closingTag :
    (run (keywordFiles "[/]") (validateArguments .json)).exitCode = 0 ∧
    (run (keywordFiles "[/]") (validateArguments .markdown)).exitCode = 0 ∧
    (run (keywordFiles "[/]") (validateArguments .table)).exitCode = 0 := by
  have hresolve : resolve (.mapping .dict [(.str "[/]", .bool true)]) =
      .ok ⟨.unknown, [⟨.unsupportedKeyword, .info, "keyword '[/]' is not supported and was ignored",
        "#/[~1]"⟩]⟩ := by
    rw [resolve, resolveNode_mapping]
    rfl
  have hpasses := passes_keywordFiles "[/]" (by decide +kernel) hresolve
  obtain ⟨hplain, -, htable, -⟩ :=
    validate_exitCode_by_format (keywordFiles "[/]") read_validateArguments
  have hjson := (hplain .json (by decide)).mpr ⟨_, hpasses⟩
  have hmarkdown := (hplain .markdown (by decide)).mpr ⟨_, hpasses⟩
  exact ⟨hjson, hmarkdown, htable _ hpasses (by decide)⟩

/-- The formats disagree where a half of a pair stands in a keyword. -/
theorem validate_formats_disagree :
    (∃ resolution, Passes (keywordFiles "\\ud800") none (FilePath.ofText "s.json")
      (FilePath.ofText "d.json") resolution) ∧
    (run (keywordFiles "\\ud800") (validateArguments .json)).exitCode = 0 ∧
    (run (keywordFiles "\\ud800") (validateArguments .markdown)).exitCode = 0 ∧
    (run (keywordFiles "\\ud800") (validateArguments .table)).exitCode = 1 := by
  obtain ⟨issues, hresolve⟩ : ∃ issues,
      resolve (.mapping .dict [(.str (Text.ofPoints [.half 0]), .bool true)]) =
        .ok ⟨.unknown, issues⟩ := by
    rw [resolve, resolveNode_mapping]
    exact ⟨_, rfl⟩
  have hpasses := passes_keywordFiles "\\ud800" (by decide +kernel) hresolve
  have hzero : ∀ format, format ≠ .table →
      (run (keywordFiles "\\ud800") (validateArguments format)).exitCode = 0 := by
    intro format hformat
    have htells := exitCode_of_validate (keywordFiles "\\ud800") (read_validateArguments format)
    exact (htells.resolve_right fun hfails => hfails.2
      ⟨_, hpasses, fun htable => absurd htable hformat⟩).1
  exact ⟨⟨_, hpasses⟩, hzero .json (by decide), hzero .markdown (by decide), by decide +kernel⟩

end Keywords

end Command

end SchemaModel
