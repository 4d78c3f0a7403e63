import SchemaModel.Proofs.Command.Validate

/-!
# The report of a validation as data

When everything that a validation needs can be loaded, a validation that reports as data prints one
document and nothing else, and the document reads back as the outcome: the verdict, the exit code
and the issues in their order, whatever characters stand in their places and reasons.
-/

namespace SchemaModel.Command

open Run Model

section Loading

variable [Platform] [Terminal] {workspace : Workspace}

theorem HasDocument.loadDocument_eq {path : FilePath} {value : Value}
    (h : HasDocument workspace path value) (label : String) :
    loadDocument workspace path label = pure value := by
  obtain ⟨node, hnode, hread⟩ := h
  rw [loadDocument, hnode]
  simp only [hread]

theorem HasModel.loadSchema_eq {path : FilePath} {settings : Settings}
    {resolution : ResolutionResult} (h : HasModel workspace path settings resolution) :
    loadSchema workspace path settings = pure resolution := by
  obtain ⟨schema, hschema, hresult⟩ := h
  rw [loadSchema, hschema.loadDocument_eq, pure_bind]
  simp only [hresult]

theorem loadSettings_eq [Settings.Coercion] {path : Option String} {settings : Settings}
    (h : Settings.load workspace path = .ok settings) :
    loadSettings workspace path = (do
      modify fun screen => { screen with logLevel := settings.logging.number }
      pure settings) := by
  rw [loadSettings, h]

end Loading

section Reading

variable [Platform] [Terminal] [Settings.Coercion] {workspace : Workspace} {config : Option String}
  {schema data : FilePath} {settings : Settings} {resolution : ResolutionResult} {value : Value}
  (hsettings : Settings.load workspace config = .ok settings)
  (hmodel : HasModel workspace schema settings resolution)
  (hvalue : HasDocument workspace data value)

include hsettings hmodel hvalue

/-- A validation that reports as data prints the outcome and ends with its exit code. -/
theorem runValidate_json {result : ValidationResult}
    (hresult : resolution.model.validate value settings.validator = .ok result) :
    runValidate workspace ⟨Format.json.name, config⟩ schema data = (do
      modify fun screen => { screen with logLevel := settings.logging.number }
      Run.sayJson result.toValue
      Run.exit result.exitCode) := by
  have hformat : chooseFormat [.table, .json, .markdown] Format.json.name = pure .json := rfl
  rw [runValidate, hformat, pure_bind, loadSettings_eq hsettings, bind_assoc]
  simp only [pure_bind, hmodel.loadSchema_eq, hvalue.loadDocument_eq, hresult, ofFault]

/-- The report of a validation as data reads back as an object of the verdict, the exit code and the
issues in their order, each with its path and its reason. -/
theorem validate_json_report_reads_back [LawfulTerminal] [ArgumentReader]
    {arguments : List String} (hread : ArgumentReader.read arguments =
      .validate ⟨Format.json.name, config⟩ schema data) :
    ∃ result, resolution.model.validate value settings.validator = .ok result ∧
      let outcome := run workspace arguments
      Json.read outcome.output = .ok (Value.object
        [("accepted", .bool result.accepted),
         ("exit_code", .int (if result.accepted then 0 else 1)),
         ("issues", .list (result.issues.map fun issue =>
           Value.object [("path", .str issue.path), ("reason", .str issue.reason)]))]) ∧
      outcome.exitCode = (if result.accepted then 0 else 1) ∧ outcome.crash = none := by
  obtain ⟨result, hresult, -⟩ :=
    exists_validate_eq hmodel.sound.1 hmodel.writable value settings.validator
  refine ⟨result, hresult, ?_⟩
  have hrun : run workspace arguments = ⟨result.exitCode,
      "" ++ (Json.pageText result.toValue ++ "\n"), settings.logging.number, none⟩ := by
    rw [run, hread, carryOut, runValidate_json hsettings hmodel hvalue hresult, Run.sayJson,
      write_result, ofFault, pure_bind, json_result]
    rfl
  have hvalue : result.toValue = Value.object
      [("accepted", .bool result.accepted),
       ("exit_code", .int (if result.accepted then 0 else 1)),
       ("issues", .list (result.issues.map fun issue =>
         Value.object [("path", .str issue.path), ("reason", .str issue.reason)]))] := by
    rw [ValidationResult.toValue, ValidationResult.exitCode]
    cases result.accepted <;> rfl
  rw [hrun]
  refine ⟨?_, rfl, rfl⟩
  rw [String.empty_append, ← hvalue]
  exact Json.read_pageText (result.lossless_toValue.readsAs Json.sound_pageLayout)

end Reading

section OddNames

attribute [local instance] Platform.standard Console.plainTerminal Settings.lenient usualReader

/-- A schema with quotes, controls and a character beyond the first plane in a name and a literal,
and a document that it rejects. -/
def oddFiles : Workspace :=
  { nodes := [
      (["s.json"], .file
        ("\x7b\"type\": \"object\", \"properties\": " ++
          "\x7b\"a\\\"\\n😀\": \x7b\"const\": \"\\u0001é\\\\\"\x7d\x7d\x7d")),
      (["d.json"], .file "\x7b\"a\\\"\\n😀\": null\x7d")] }

def oddModel : Model :=
  .object [(.str "a\"\n😀",
    .literal (.node ["properties", "a\"\n😀", "const"]) (.str "\x01é\\"))] [] true

/-- The issue of the rejected document, whose reason holds the literal with escapes of its own. -/
def oddIssue : ValueIssue :=
  ⟨"$['a\"\\n😀']", "expected \"\\u0001\\u00e9\\\\\""⟩

theorem validate_json_report_of_oddFiles :
    Json.read (run oddFiles (validateArguments .json)).output = .ok (Value.object
      [("accepted", .bool false), ("exit_code", .int 1),
       ("issues", .list [Value.object
         [("path", .str oddIssue.path), ("reason", .str oddIssue.reason)]])]) := by
  have hdocument : HasDocument oddFiles (FilePath.ofText "s.json")
      (.mapping .dict [(.str "type", .str "object"), (.str "properties", .mapping .dict
        [(.str "a\"\n😀", .mapping .dict [(.str "const", .str "\x01é\\")])])]) :=
    ⟨_, rfl, eq_ok_of_toOption (by decide +kernel)⟩
  have hvalue : HasDocument oddFiles (FilePath.ofText "d.json")
      (.mapping .dict [(.str "a\"\n😀", .null)]) :=
    ⟨_, rfl, eq_ok_of_toOption (by decide +kernel)⟩
  have hmodel : HasModel oddFiles (FilePath.ofText "s.json") {} ⟨oddModel, []⟩ := by
    refine ⟨_, hdocument, ?_⟩
    simp [oddModel, resolve, resolveNode, reportKeywords, isKnownKeyword, supportedKeywords,
      directive, Entries.get?, TypeName.ofName?, Pointer.child, keyText, Fault.unlessLong,
      Key.canShow, Key.text, resolveConst, Value.fits, Value.isJson, ofLiteral, resolveRequired,
      ofObject, allowsAdditional, Resolution.each, Resolution.ofFault, bind, pure, Except.map]
  obtain ⟨result, hresult, hread, -⟩ :=
    validate_json_report_reads_back rfl hmodel hvalue (read_validateArguments .json)
  have hknown : oddModel.validate (Value.mapping .dict [(.str "a\"\n😀", .null)])
      ({} : Settings).validator = .ok ⟨false, [oddIssue]⟩ :=
    eq_ok_of_toOption (by decide +kernel)
  rw [hknown] at hresult
  cases hresult
  exact hread

end OddNames

end SchemaModel.Command
