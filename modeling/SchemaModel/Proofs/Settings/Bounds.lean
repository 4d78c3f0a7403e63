import SchemaModel.Proofs.Json.Reader
import SchemaModel.Proofs.Schema.Pointer
import SchemaModel.Settings.Coerce
import SchemaModel.Settings.Load

/-!
# Settings within bounds

However a depth or a number of issues is spelled, it is coerced to a whole number first and checked
then, so every section that can be read is within its bounds, and so are the defaults.  Settings are
loaded when the path can be looked up and leads to no directory: then either the document is at
fault or the settings are within their bounds.  A path that is too long to be looked up is at fault
itself, and so is a search from a directory that is too deep.
-/

namespace SchemaModel.Settings

/-! ## Sections -/

section Loading

variable [Coercion]

/-- A depth is a whole number from 1 to 128, however it is spelled. -/
theorem readDepth_eq_ok_iff {value : Value} {depth : Nat} :
    readDepth value = .ok depth ↔
      ∃ n : Int, Coercion.whole value = .ok n ∧ 1 ≤ n ∧ n ≤ 128 ∧ n.toNat = depth := by
  rw [readDepth]
  cases Coercion.whole value with
  | error problem => simp [bind, Except.bind]
  | ok n =>
      simp only [bind, Except.bind, Except.ok.injEq, exists_eq_left']
      by_cases hsmall : n < 1
      · simp only [hsmall, if_true, reduceCtorEq, false_iff]
        omega
      · by_cases hlarge : 128 < n
        · simp only [hsmall, hlarge, if_true, if_false, reduceCtorEq, false_iff]
          omega
        · simp only [hsmall, hlarge, if_false, Except.ok.injEq]
          omega

/-- A limit is a whole number from 1 on, however it is spelled. -/
theorem readIssueLimit_eq_ok_iff {value : Value} {limit : Nat} :
    readIssueLimit value = .ok limit ↔
      ∃ n : Int, Coercion.whole value = .ok n ∧ 1 ≤ n ∧ n.toNat = limit := by
  rw [readIssueLimit]
  cases Coercion.whole value with
  | error problem => simp [bind, Except.bind]
  | ok n =>
      simp only [bind, Except.bind, Except.ok.injEq, exists_eq_left']
      by_cases hsmall : n < 1
      · simp only [hsmall, if_true, reduceCtorEq, false_iff]
        omega
      · simp only [hsmall, if_false, Except.ok.injEq]
        omega

section Fields

omit [Coercion]

variable {α β : Type} {p : α → Prop} {default a : α}

theorem Checked.eq_ok_of_both {x : Checked α} {y : Checked β} {pair : α × β}
    (h : x.both y = .ok pair) : x = .ok pair.1 ∧ y = .ok pair.2 := by
  cases x with
  | error first => cases y <;> cases h
  | ok a =>
      cases y with
      | error second => cases h
      | ok b =>
          cases h
          exact ⟨rfl, rfl⟩

/-- What holds of the default and of all that can be read holds of a field. -/
theorem of_field {entries : List (Key × Value)} {place names : List Text}
    {read : Value → Except Problem α} (hdefault : p default)
    (hread : ∀ value a, read value = .ok a → p a)
    (h : field entries place names default read = .ok a) : p a := by
  rw [field] at h
  split at h
  · cases h
    exact hdefault
  · next name value hfound => exact hread value a (Json.mapError_eq_ok h)

/-- What holds of the default and of all that can be read holds of a section. -/
theorem of_readSection {entries : List (Key × Value)} {name owner : String}
    {read : List Text → List (Key × Value) → Checked α} (hdefault : p default)
    (hread : ∀ place fields a, read place fields = .ok a → p a)
    (h : readSection entries name owner default read = .ok a) : p a := by
  rw [readSection] at h
  split at h
  · cases h
    exact hdefault
  · next form fields hfound => exact hread [.plain name] fields a h
  · cases h

end Fields

theorem readResolver_maxDepth {place : List Text} {entries : List (Key × Value)}
    {resolver : ResolverSettings} (h : readResolver place entries = .ok resolver) :
    1 ≤ resolver.maxDepth ∧ resolver.maxDepth ≤ 128 := by
  obtain ⟨⟨depth, strict, report⟩, hboth, rfl⟩ := Json.map_eq_ok h
  refine of_field (p := fun depth => 1 ≤ depth ∧ depth ≤ 128) (by decide) ?_
    (Checked.eq_ok_of_both hboth).1
  intro value depth hdepth
  obtain ⟨n, -, hlower, hupper, rfl⟩ := readDepth_eq_ok_iff.mp hdepth
  omega

theorem readValidator_maxIssues {place : List Text} {entries : List (Key × Value)}
    {validator : ValidatorSettings} (h : readValidator place entries = .ok validator) :
    1 ≤ validator.maxIssues := by
  obtain ⟨⟨failFast, limit⟩, hboth, rfl⟩ := Json.map_eq_ok h
  refine of_field (p := fun limit => 1 ≤ limit) (by decide) ?_ (Checked.eq_ok_of_both hboth).2
  intro value limit hlimit
  obtain ⟨n, -, hlower, rfl⟩ := readIssueLimit_eq_ok_iff.mp hlimit
  omega

/-- The bounds of the settings that are numbers. -/
structure InBounds (settings : Settings) : Prop where
  depth_pos : 1 ≤ settings.resolver.maxDepth
  depth_le : settings.resolver.maxDepth ≤ 128
  issues_pos : 1 ≤ settings.validator.maxIssues

omit [Coercion] in
theorem inBounds_default : InBounds {} :=
  ⟨by decide, by decide, by decide⟩

theorem inBounds_of_read {entries : List (Key × Value)} {settings : Settings}
    (h : read entries = .ok settings) : settings.InBounds := by
  obtain ⟨⟨resolver, validator, logging, done⟩, hboth, rfl⟩ := Json.map_eq_ok h
  obtain ⟨hresolver, hrest⟩ := Checked.eq_ok_of_both hboth
  have hdepth := of_readSection (p := fun r => 1 ≤ r.maxDepth ∧ r.maxDepth ≤ 128) (by decide)
    (fun _ _ _ => readResolver_maxDepth) hresolver
  have hissues := of_readSection (p := fun v => 1 ≤ v.maxIssues) (by decide)
    (fun _ _ _ => readValidator_maxIssues) (Checked.eq_ok_of_both hrest).1
  exact ⟨hdepth.1, hdepth.2, hissues⟩

/-! ## Files -/

/-- Whether an error lies in what a file says, and not in the way to it. -/
def LoadError.inDocument : LoadError → Bool
  | .invalid .. => true
  | .notObject .. => true
  | .rejected .. => true
  | .directory => false
  | .lookup _ => false

variable [Platform]

/-- A document is at fault, or it gives settings within their bounds. -/
theorem ofFile_cases (path text : String) :
    (∃ error, ofFile path (.file text) = .error error ∧ error.inDocument = true) ∨
      ∃ settings, ofFile path (.file text) = .ok settings ∧ settings.InBounds := by
  rw [ofFile]
  split
  · next hread =>
    rw [readFile] at hread
    cases hdocument : Json.read (String.ofList (Text.unifyLineEnds text.toList)) with
    | error error => simp [hdocument, Except.mapError] at hread
    | ok value => simp [hdocument, Except.mapError] at hread
  · next error hread => exact .inl ⟨_, rfl, rfl⟩
  · next form entries hread =>
    cases hsettings : read entries with
    | error complaints => exact .inl ⟨_, rfl, rfl⟩
    | ok settings => exact .inr ⟨settings, rfl, inBounds_of_read hsettings⟩
  · exact .inl ⟨_, rfl, rfl⟩

theorem load_eq_of_lookUp {workspace : Workspace} {path : Option String}
    {found : Option (String × FileNode)} (h : lookUp workspace path = .ok found) :
    load workspace path = found.elim (.ok {}) fun file => ofFile file.1 file.2 := by
  rw [load, h]
  cases found <;> rfl

end Loading

/-- A settings file above the working directory, with a depth under both of its names and numbers in
other spellings. -/
def spelledSettings : Workspace :=
  { nodes := [([".schemashape.json"], .file
      ("\x7b\"resolver\": \x7b\"max_depth\": 999, \"maxDepth\": \" +1_28.0\"\x7d, " ++
        "\"validator\": \x7b\"max_issues\": true\x7d\x7d"))]
    here := ["below"] }

section LongNames

variable {name : List Char} (hslash : '/' ∉ name)
  (hlong : FilePath.maxName < (String.ofList name).utf8ByteSize)

include hlong

theorem ofList_ne_of_long {text : String} (htext : text.utf8ByteSize ≤ FilePath.maxName) :
    String.ofList name ≠ text := by
  rintro rfl
  omega

include hslash

/-- A long text without slashes is read as one name. -/
theorem ofText_longName : FilePath.ofText (String.ofList name) = ⟨"", [String.ofList name]⟩ := by
  have hchars : ∀ c ∈ name, decide (c = '/') = false := fun c hc =>
    decide_eq_false fun heq => hslash (heq ▸ hc)
  have hstart : name.takeWhile (· = '/') = [] := by
    cases name with
    | nil => rfl
    | cons c name => simp [hchars c List.mem_cons_self]
  have hempty : String.ofList name ≠ "" := ofList_ne_of_long hlong (by decide)
  have hdot : String.ofList name ≠ "." := ofList_ne_of_long hlong (by decide)
  simp only [FilePath.ofText, String.toList_ofList, hstart, Text.split_of_forall_not hchars]
  simp [hempty, hdot]

theorem find_longName (hnull : '\x00' ∉ name) {workspace : Workspace}
    (hhere : workspace.node? workspace.here = some .directory) :
    workspace.find (FilePath.ofText (String.ofList name)) = .error ⟨String.ofList name⟩ := by
  have hnameable : FilePath.isNameable (String.ofList name) = true := by
    simp [FilePath.isNameable, hnull]
  have hmeets : workspace.meetsLongName (.inside workspace.here) [String.ofList name] = true := by
    simp [Workspace.meetsLongName, hhere, hlong]
  have htext : FilePath.text ⟨"", [String.ofList name]⟩ = String.ofList name := by
    simp [FilePath.text]
  rw [ofText_longName hslash hlong, Workspace.find, htext, hnameable, Workspace.start, if_pos rfl,
    hmeets, Bool.or_true, Bool.and_true, if_pos rfl]

end LongNames

theorem load_eq_of_find [Platform] [Coercion] {workspace : Workspace} {text : String}
    {long : NameTooLong} (h : workspace.find (FilePath.ofText text) = .error long) :
    load workspace (some text) = .error (.lookup (.nameTooLong long.path)) := by
  rw [load, lookUp, h]
  rfl

/-- A name of 256 letters, one more than a name may have. -/
def longName : String :=
  String.ofList (List.replicate 256 'a')

end SchemaModel.Settings
