import SchemaModel.Command.Arguments
import SchemaModel.Proofs.Command.Ending
import SchemaModel.Proofs.Schema.Curtailed

/-!
# Requests

The commands begin alike: the settings and the model of the schema are loaded.  A schema that has a
model has one only, which is good and can be put into words, since a file holds nothing that is too
long for it.  The commands also print the issues of a schema alike, escaped, so that only a half of
a pair can make this fail.
-/

namespace SchemaModel

/-- Whether no half of a pair stands in the texts of an issue. -/
def SchemaIssue.isPlain (issue : SchemaIssue) : Bool :=
  issue.message.isPlain && issue.path.isPlain

namespace Command

open Run Model

theorem eq_ok_of_toOption {ε α : Type} {x : Except ε α} {a : α} (h : x.toOption = some a) :
    x = .ok a := by
  cases x with
  | error _ => cases h
  | ok _ => exact congrArg _ (Option.some.inj h)

/-! ## Models of schemas -/

section Models

variable [Platform] {workspace : Workspace}

theorem HasModel.unique {path : FilePath} {settings : Settings} {result result' : ResolutionResult}
    (h : HasModel workspace path settings result)
    (h' : HasModel workspace path settings result') : result = result' := by
  obtain ⟨schema, hschema, hresult⟩ := h
  obtain ⟨schema', hschema', hresult'⟩ := h'
  rw [hschema'.unique workspace hschema, hresult] at hresult'
  exact Except.ok.inj hresult'

theorem HasModel.sound {path : FilePath} {settings : Settings} {result : ResolutionResult}
    (h : HasModel workspace path settings result) :
    Good result.model ∧ result.model.Carries (·.isWritable = true) (·.isText = true) := by
  obtain ⟨schema, hschema, hresult⟩ := h
  obtain ⟨hjson, hdistinct, hordinary⟩ := hschema.clean workspace
  have hfree := (curtailed_resolve hdistinct settings.resolver).eq_of_ok hresult
  have hnode := @resolveNode_of_resolve settings.resolver .unlimited _ _ hfree
  exact ⟨(denotes_of_resolveNode hdistinct hnode).1,
    carries_resolveNode_of_json hjson hordinary hnode⟩

theorem HasModel.writable {path : FilePath} {settings : Settings} {result : ResolutionResult}
    (h : HasModel workspace path settings result) : result.model.Writable :=
  h.sound.2.lists

end Models

/-! ## Issues of schemas -/

section Issues

variable [Terminal]

/-- The issues of a schema are printed, if there are any. -/
def IssuesPrint (result : ResolutionResult) : Prop :=
  result.issues = [] ∨ Prints "\n[blue]Schema Issues:[/blue]" ∧
    ∃ shown, Terminal.table ["Code", "Severity", "Message", "Location"]
      (result.issues.map issueCells) = .ok shown

theorem loads_saySchemaIssues (result : ResolutionResult) :
    Loads (fun _ => IssuesPrint result) (saySchemaIssues result) := by
  rw [saySchemaIssues]
  split
  · next hempty => exact leads_pure (.inl (List.isEmpty_iff.mp hempty))
  · next hsome =>
    have hne : result.issues ≠ [] := fun heq => hsome (List.isEmpty_iff.mpr heq)
    exact ((loads_put _).then (loads_put _)).congr fun _ => (or_iff_right hne).symm

variable [Platform] [LawfulTerminal]

theorem prints_of_isPlain {text : Text} (h : text.isPlain = true) :
    Prints (Terminal.escape text) := by
  cases text with
  | plain text => exact LawfulTerminal.escaped text
  | broken points halved => cases h

/-- Whatever an issue says, it is printed unless a half of a pair stands in it. -/
theorem issuesPrint_of_isPlain {result : ResolutionResult}
    (h : ∀ issue ∈ result.issues, issue.isPlain = true) : IssuesPrint result := by
  have hheading : Prints "\n[blue]Schema Issues:[/blue]" :=
    LawfulTerminal.styled "blue" "\n" "Schema Issues:" "" (by decide) (by decide) (by decide)
      (by decide)
  refine .inr ⟨hheading, LawfulTerminal.table (by decide) (List.forall_mem_map.mpr ?_)⟩
  intro issue hissue
  obtain ⟨hmessage, hpath⟩ := Bool.and_eq_true_iff.mp (h issue hissue)
  have hcode : '[' ∉ issue.code.name.toList := by
    cases issue.code <;> decide
  have hseverity : ∀ colour ∈ headingColours,
      Prints ("[" ++ colour ++ "]" ++ issue.severity.capitals ++
        "[/" ++ colour ++ "]" : String) := by
    intro colour hcolour
    have hcapitals : IsBare issue.severity.capitals.toList := by
      cases issue.severity <;> decide
    simpa using LawfulTerminal.styled colour "" issue.severity.capitals "" hcolour (by decide)
      hcapitals (by decide)
  simp only [issueCells, List.forall_mem_cons]
  refine ⟨LawfulTerminal.unmarked _ hcode, hseverity _ ?_, prints_of_isPlain hmessage,
    prints_of_isPlain hpath, List.forall_mem_nil _⟩
  split <;> decide

end Issues

/-! ## The command line -/

/-- An argument that is read as the name of a file: it does not look like an option, and the null
character, which stands in no argument, is not in it. -/
def IsOperand (text : String) : Prop :=
  FilePath.isNameable text = true ∧ ¬ (text.toList.head? = some '-' ∧ 1 < text.length)

/-- The arguments that name a settings file. -/
def configArguments : Option String → List String
  | none => []
  | some path => ["--config", path]

theorem readArguments?_operand {text : String} (h : IsOperand text) (specs : List OptionSpec)
    (given : Given) (rest : List String) :
    readArguments? specs true given (text :: rest) =
      readArguments? specs true { given with positional := given.positional ++ [text] } rest := by
  have hdashes : text ≠ "--" := by
    rintro rfl
    exact h.2 (by decide)
  rw [readArguments?, if_neg hdashes, if_neg h.2, if_pos rfl]

theorem readArguments?_pending {specs : List OptionSpec} {option name : String}
    (hdashes : option ≠ "--") (hdash : option.toList.head? = some '-' ∧ 1 < option.length)
    (hread : readOption? specs option.toList = some (.pending [] name)) (given : Given)
    (value : String) (rest : List String) :
    readArguments? specs true given (option :: value :: rest) =
      readArguments? specs true { given with options := given.options ++ [(name, some value)] }
        rest := by
  rw [readArguments?, if_neg hdashes, if_pos hdash, hread]
  simp only [List.append_nil]

/-- What operands, a format and perhaps a settings file give. -/
def commandGiven (operands : List String) (format : Format) (config : Option String) : Given :=
  ⟨("format", some format.name) :: (config.map fun path => ("config", some path)).toList, operands⟩

/-- Options may follow the operands of a command. -/
theorem readArguments?_request (operands : List String) (format : Format)
    (config : Option String) :
    readArguments? commandOptions true ⟨[], operands⟩
        ("--format" :: format.name :: configArguments config) =
      some (commandGiven operands format config) := by
  have hformat : ∀ given value rest,
      readArguments? commandOptions true given ("--format" :: value :: rest) = _ :=
    readArguments?_pending (by decide) (by decide) rfl
  have hconfig : ∀ given value rest,
      readArguments? commandOptions true given ("--config" :: value :: rest) = _ :=
    readArguments?_pending (by decide) (by decide) rfl
  rw [hformat]
  cases config with
  | none => rfl
  | some path => exact hconfig _ _ _

section Orders

variable {format : Format} {config : Option String}
  (hconfig : ∀ path ∈ config, FilePath.isNameable path = true)

theorem readPath?_eq {text : String} (h : FilePath.isNameable text = true) :
    readPath? text = some (FilePath.ofText text) :=
  if_pos h

theorem readCommand_eq {arguments operands : List String}
    (h : readArguments? commandOptions true {} arguments =
      some (commandGiven operands format config)) (order? : Given → Option Order) :
    readCommand arguments order? = (order? (commandGiven operands format config)).getD .usage := by
  rw [readCommand, h]
  cases config <;> rfl

include hconfig

theorem readRequest?_eq (operands : List String) (default : String) :
    readRequest? (commandGiven operands format config) default = some ⟨format.name, config⟩ := by
  cases config with
  | none => rfl
  | some path =>
      have hpath : [path].mapM readPath? = some [FilePath.ofText path] := by
        rw [List.mapM_cons, readPath?_eq (hconfig path rfl)]
        rfl
      change (do
        let _ ← [path].mapM readPath?
        some (Request.mk format.name (some path))) = _
      rw [hpath]
      rfl

/-- The arguments of a resolution with a format and perhaps a settings file. -/
theorem readOrder_resolve {schema : String} (hschema : IsOperand schema) :
    readOrder ("resolve" :: schema :: "--format" :: format.name :: configArguments config) =
      .resolve ⟨format.name, config⟩ (FilePath.ofText schema) := by
  have hread : readArguments? commandOptions true {}
      (schema :: "--format" :: format.name :: configArguments config) =
        some (commandGiven [schema] format config) := by
    rw [readArguments?_operand hschema]
    exact readArguments?_request [schema] format config
  change readCommand _ resolveOrder? = _
  rw [readCommand_eq hread, resolveOrder?]
  simp only [commandGiven]
  rw [← commandGiven, readRequest?_eq hconfig, readPath?_eq hschema.1]
  rfl

/-- The arguments of a validation with a format and perhaps a settings file. -/
theorem readOrder_validate {schema data : String} (hschema : IsOperand schema)
    (hdata : IsOperand data) :
    readOrder
        ("validate" :: schema :: data :: "--format" :: format.name :: configArguments config) =
      .validate ⟨format.name, config⟩ (FilePath.ofText schema) (FilePath.ofText data) := by
  have hread : readArguments? commandOptions true {}
      (schema :: data :: "--format" :: format.name :: configArguments config) =
        some (commandGiven [schema, data] format config) := by
    rw [readArguments?_operand hschema, readArguments?_operand hdata]
    exact readArguments?_request [schema, data] format config
  change readCommand _ validateOrder? = _
  rw [readCommand_eq hread, validateOrder?]
  simp only [commandGiven]
  rw [← commandGiven, readRequest?_eq hconfig, readPath?_eq hschema.1, readPath?_eq hdata.1]
  rfl

end Orders

end Command

end SchemaModel
