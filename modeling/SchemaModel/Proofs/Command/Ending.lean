import SchemaModel.Command.Run
import SchemaModel.Proofs.Console.Terminal
import SchemaModel.Proofs.Json.Reader

/-!
# How a run ends

A run gives a result or ends with an exit code; a crash ends it with the code of a failure.
`Run.Leads` says what holds of the result and of the code, whatever the screen shows before.  It
follows the steps of a run, and for each way of loading something there is one statement: there is a
result exactly when the thing can be loaded, and otherwise the run ends with a failure.
-/

namespace SchemaModel.Command

/-- The exit code that an ending leaves. -/
def Ending.code : Ending → Nat
  | .exit code => code
  | .crash _ => 1

namespace Run

variable {α β : Type}

/-- From any screen, a result that meets a condition or an ending whose code meets another. -/
structure Leads (post : α → Prop) (exits : Nat → Prop) (r : Run α) : Prop where
  outcome : ∀ screen : Screen,
    match (r.run.run screen).1 with
    | .ok a => post a
    | .error ending => exits ending.code

variable {post : α → Prop} {exits : Nat → Prop}

theorem leads_pure {a : α} (h : post a) : Leads post exits (pure a) :=
  ⟨fun _ => h⟩

theorem leads_exit {code : Nat} (h : exits code) : Leads post exits (Run.exit code) :=
  ⟨fun _ => h⟩

theorem leads_crash {cause : Crash} (h : exits 1) : Leads post exits (Run.crash cause) :=
  ⟨fun _ => h⟩

theorem leads_modify {f : Screen → Screen} : Leads (fun _ => True) exits (modify f : Run Unit) :=
  ⟨fun _ => trivial⟩

theorem leads_emit {text : String} : Leads (fun _ => True) exits (Run.emit text) :=
  leads_modify

theorem Leads.imp {post' : α → Prop} {exits' : Nat → Prop} {r : Run α} (h : Leads post exits r)
    (hpost : ∀ a, post a → post' a) (hexits : ∀ code, exits code → exits' code) :
    Leads post' exits' r := by
  constructor
  intro screen
  have hhere := h.outcome screen
  revert hhere
  cases (r.run.run screen).1 with
  | ok a => exact hpost a
  | error ending => exact hexits ending.code

theorem Leads.bind {mid : α → Prop} {post : β → Prop} {r : Run α} {f : α → Run β}
    (h : Leads mid exits r) (hf : ∀ a, mid a → Leads post exits (f a)) :
    Leads post exits (r >>= f) := by
  constructor
  intro screen
  have hhere := h.outcome screen
  rcases hstep : r.run.run screen with ⟨_ | _, after⟩
  · next ending =>
    have hrun : (r >>= f).run.run screen = (.error ending, after) := by
      rw [ExceptT.run_bind, StateT.run_bind, hstep]
      rfl
    rw [hstep] at hhere
    rw [hrun]
    exact hhere
  · next a =>
    have hrun : (r >>= f).run.run screen = (f a).run.run after := by
      rw [ExceptT.run_bind, StateT.run_bind, hstep]
      rfl
    rw [hstep] at hhere
    rw [hrun]
    exact (hf a hhere).outcome after

/-- What comes after a step whose result does not matter. -/
theorem Leads.then {post : β → Prop} {r : Run α} {f : α → Run β}
    (h : Leads (fun _ => True) exits r) (hf : ∀ a, Leads post exits (f a)) :
    Leads post exits (r >>= f) :=
  h.bind fun a _ => hf a

theorem leads_forM {f : α → Run Unit} {xs : List α}
    (h : ∀ x ∈ xs, Leads (fun _ => True) exits (f x)) :
    Leads (fun _ => True) exits (xs.forM f) := by
  induction xs with
  | nil => exact leads_pure trivial
  | cons x xs ih =>
      obtain ⟨hx, hxs⟩ := List.forall_mem_cons.mp h
      exact hx.then fun _ => ih hxs

/-- What holds of every ending of an order holds of the exit code of its arguments. -/
theorem exitCode_of_leads [ArgumentReader] [Platform] [Terminal] [Settings.Coercion]
    {workspace : Workspace} {arguments : List String} {order : Order} (exits : Nat → Prop)
    (hread : ArgumentReader.read arguments = order)
    (h : Leads (fun _ => exits 0) exits (carryOut workspace order)) :
    exits (run workspace arguments).exitCode := by
  have houtcome := h.outcome {}
  rw [run, hread]
  split
  · next hrun =>
    rw [hrun] at houtcome
    exact houtcome
  · next hrun =>
    rw [hrun] at houtcome
    exact houtcome
  · next hrun =>
    rw [hrun] at houtcome
    exact houtcome

theorem crash_eq_none_of_exitCode [ArgumentReader] [Platform] [Terminal] [Settings.Coercion]
    {workspace : Workspace} {arguments : List String}
    (h : (run workspace arguments).exitCode = 0) : (run workspace arguments).crash = none := by
  rw [run] at h ⊢
  split at h
  · rfl
  · rfl
  · cases h

/-! ## Loading and printing -/

/-- A run gives something of a kind, or there is nothing of that kind and it ends with a failure. -/
def Loads (kind : α → Prop) (r : Run α) : Prop :=
  Leads kind (fun code => code = 1 ∧ ∀ a, ¬ kind a) r

/-- An order that comes to its end exactly under a condition ends with zero or one accordingly. -/
theorem exitCode_of_loads [ArgumentReader] [Platform] [Terminal] [Settings.Coercion]
    {workspace : Workspace} {arguments : List String} {order : Order} {p : Prop}
    (hread : ArgumentReader.read arguments = order)
    (h : Loads (fun _ => p) (carryOut workspace order)) :
    (run workspace arguments).exitCode = 0 ∧ p ∨ (run workspace arguments).exitCode = 1 ∧ ¬ p := by
  refine exitCode_of_leads (fun code => code = 0 ∧ p ∨ code = 1 ∧ ¬ p) hread
    (h.imp (fun _ hp => .inl ⟨rfl, hp⟩) ?_)
  exact fun code ⟨hcode, hnone⟩ => .inr ⟨hcode, hnone ()⟩

theorem Loads.andThen {kind : α → Prop} {post : β → Prop} {r : Run α} {f : α → Run β}
    (h : Loads kind r) (hnone : (∀ a, ¬ kind a) → exits 1)
    (hf : ∀ a, kind a → Leads post exits (f a)) : Leads post exits (r >>= f) := by
  refine (h.imp (fun _ ha => ha) ?_).bind hf
  rintro code ⟨rfl, hfails⟩
  exact hnone hfails

/-- Of a kind of which there is at most one, what follows gives the kinds that go with it. -/
theorem Loads.bind {kind : α → Prop} {kind' : α → β → Prop} {r : Run α} {f : α → Run β}
    (h : Loads kind r) (hunique : ∀ a a', kind a → kind a' → a = a')
    (hf : ∀ a, kind a → Loads (kind' a) (f a)) :
    Loads (fun b => ∃ a, kind a ∧ kind' a b) (r >>= f) := by
  refine h.andThen (fun hnone => ⟨rfl, fun b ⟨a, ha, _⟩ => hnone a ha⟩) fun a ha => ?_
  refine (hf a ha).imp (fun b hb => ⟨a, ha, hb⟩) ?_
  rintro code ⟨rfl, hnone⟩
  refine ⟨rfl, fun b ⟨a', ha', hb⟩ => hnone b ?_⟩
  rwa [hunique a a' ha ha']

theorem Loads.congr {kind kind' : α → Prop} {r : Run α} (h : Loads kind r)
    (hkind : ∀ a, kind a ↔ kind' a) : Loads kind' r := by
  refine h.imp (fun a => (hkind a).mp) ?_
  rintro code ⟨hcode, hnone⟩
  exact ⟨hcode, fun a ha => hnone a ((hkind a).mpr ha)⟩

/-- What follows a step that only succeeds or fails. -/
theorem Loads.then {p : Prop} {kind : β → Prop} {r : Run Unit} {f : Unit → Run β}
    (h : Loads (fun _ => p) r) (hf : Loads kind (f ())) :
    Loads (fun b => p ∧ kind b) (r >>= f) :=
  (h.bind (fun _ _ _ _ => rfl) fun _ _ => hf).congr fun _ => exists_const Unit

theorem loads_ofFault (x : Except Fault α) : Loads (x = .ok ·) (Run.ofFault x) := by
  cases x with
  | ok a => exact leads_pure rfl
  | error cause => exact leads_crash ⟨rfl, nofun⟩

/-- What a terminal prints is shown; what it does not print crashes the run. -/
theorem loads_put (printed : Except PrintFault String) :
    Loads (fun _ => ∃ text, printed = .ok text) (Run.put printed) := by
  cases printed with
  | ok text => exact leads_emit.imp (fun _ _ => ⟨text, rfl⟩) fun _ hcode => hcode
  | error fault => exact leads_crash ⟨rfl, fun _ => nofun⟩

theorem leads_put {printed : Except PrintFault String}
    (h : (∃ text, printed = .ok text) ∨ exits 1) :
    Leads (fun _ => True) exits (Run.put printed) := by
  refine (loads_put printed).imp (fun _ _ => trivial) ?_
  rintro code ⟨rfl, hfaulty⟩
  exact h.resolve_left (hfaulty ())

theorem leads_fail [Terminal] {markup : Text} (h : exits 1) :
    Leads post exits (Run.fail markup) :=
  (leads_put (.inr h)).then fun _ => leads_exit h

end Run

open Run

variable [Platform] (workspace : Workspace)

/-- Settings that cannot be loaded end the run with exit code 1. -/
theorem loads_loadSettings [Terminal] [Settings.Coercion] (path : Option String) :
    Loads (Settings.load workspace path = .ok ·) (loadSettings workspace path) := by
  have hnone : ∀ {error}, Settings.load workspace path = .error error →
      1 = 1 ∧ ∀ settings, ¬ Settings.load workspace path = .ok settings := by
    intro error herror
    refine ⟨rfl, fun settings hsettings => ?_⟩
    rw [herror] at hsettings
    cases hsettings
  rw [loadSettings]
  split
  · next settings hload => exact leads_modify.then fun _ => leads_pure hload
  · next hload => exact leads_crash (hnone hload)
  · next hload => exact leads_crash (hnone hload)
  · next error _ _ hload => exact leads_fail (hnone hload)

/-- A file at a path holds a document. -/
def HasDocument (path : FilePath) (value : Value) : Prop :=
  ∃ node, workspace.find path = .ok (some node) ∧ Settings.readFile node = .ok value

/-- A run goes on with the document in the file or ends with exit code 1. -/
theorem loads_loadDocument [Terminal] (path : FilePath) (label : String) :
    Loads (HasDocument workspace path) (loadDocument workspace path label) := by
  rw [loadDocument]
  split
  · next hfind =>
    refine leads_crash ⟨rfl, ?_⟩
    rintro value ⟨node, hnode, -⟩
    rw [hfind] at hnode
    cases hnode
  · next hfind =>
    refine leads_fail ⟨rfl, ?_⟩
    rintro value ⟨node, hnode, -⟩
    rw [hfind] at hnode
    cases hnode
  · next node hfind =>
    have hnone : ∀ {error}, Settings.readFile node = .error error →
        1 = 1 ∧ ∀ value, ¬ HasDocument workspace path value := by
      intro error herror
      refine ⟨rfl, ?_⟩
      rintro value ⟨other, hother, hread⟩
      rw [hfind] at hother
      cases hother
      rw [herror] at hread
      cases hread
    split
    · next value hread => exact leads_pure ⟨node, hfind, hread⟩
    · next hread => exact leads_crash (hnone hread)
    · next error hread =>
      split
      · exact leads_crash (hnone hread)
      · exact leads_fail (hnone hread)

theorem HasDocument.unique {path : FilePath} {value value' : Value}
    (h : HasDocument workspace path value) (h' : HasDocument workspace path value') :
    value = value' := by
  obtain ⟨node, hnode, hread⟩ := h
  obtain ⟨node', hnode', hread'⟩ := h'
  rw [hnode] at hnode'
  cases hnode'
  rw [hread] at hread'
  exact Except.ok.inj hread'

theorem HasDocument.clean {path : FilePath} {value : Value}
    (h : HasDocument workspace path value) : Json.Clean value := by
  obtain ⟨node, -, hread⟩ := h
  cases node with
  | directory => cases hread
  | file text => exact Json.clean_of_read (Json.mapError_eq_ok hread)

/-- A schema at a path has a model under settings. -/
def HasModel (path : FilePath) (settings : Settings) (result : ResolutionResult) : Prop :=
  ∃ schema, HasDocument workspace path schema ∧ resolve schema settings.resolver = .ok result

theorem loads_loadSchema [Terminal] (path : FilePath) (settings : Settings) :
    Loads (HasModel workspace path settings) (loadSchema workspace path settings) := by
  refine (loads_loadDocument workspace path "schema").bind
    (fun _ _ => HasDocument.unique workspace) fun schema _ => ?_
  have hnone : ∀ {stop}, resolve schema settings.resolver = .error stop →
      1 = 1 ∧ ∀ result, ¬ resolve schema settings.resolver = .ok result := by
    intro stop hstop
    refine ⟨rfl, fun result hresult => ?_⟩
    rw [hstop] at hresult
    cases hresult
  split
  · next result hresult => exact leads_pure hresult
  · next hstop => exact leads_crash (hnone hstop)
  · next hstop => exact leads_fail (hnone hstop)

end SchemaModel.Command
