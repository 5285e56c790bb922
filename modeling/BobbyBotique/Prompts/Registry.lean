import BobbyBotique.Foundation.Dict
import BobbyBotique.Prompts.Template
import Mathlib.Data.List.Lex
import Mathlib.Data.Char
import Mathlib.Algebra.GroupWithZero.Nat

/-!
# Editing a prompt

`validate_prompt_text`, `render_prompt_text` and the registry with its overrides.  The
check sees fields that start with a letter; rendering sees every word in braces.
-/

namespace BobbyBotique.Prompts

open Delivery (Interpreter isWord)

abbrev Text := List Char

structure PromptTemplate where
  name : String
  text : Text
  requiredVars : List Text

def formattingRules : Text := "formatting_rules".toList

def formattingRulesCompact : Text := "formatting_rules_compact".toList

/-- The prompts the module registers: its templates, the shared texts and the roles. -/
structure Catalog where
  builtinTemplates : List PromptTemplate
  sharedBaselines : List (String × Text)
  roleBaselines : List (String × Text)

/-- `_PROMPT_BASELINES`. -/
def Catalog.promptBaselines (catalog : Catalog) : Dict String Text :=
  let templates := catalog.builtinTemplates.foldl
    (fun table template => table.set template.name template.text) Dict.empty
  let shared := catalog.sharedBaselines.foldl (fun table item => table.set item.1 item.2) templates
  catalog.roleBaselines.foldl (fun table item => table.set item.1 item.2) shared

/-- The errors of the registry, with the names they list. -/
inductive PromptError where
  | unknownPrompt (name : String)
  | empty
  | tooLong
  | controlCharacters
  | placeholdersMismatch (missing unknown : List Text)
  | missingVariables (names : List Text)
  | templateNotFound (name : String)
  | missingRequired (names : List Text)

/-- `sorted` of the names of a set. -/
def sortedNames (names : List Text) : List Text :=
  names.dedup.mergeSort fun first second => decide (first ≤ second)

def maxPromptChars : Nat := 65536

def utf8Size (text : Text) : Nat := (text.map Char.utf8Size).sum

def isControl (c : Char) : Bool := c.toNat < 32 && !(['\n', '\r', '\t'].contains c)

section

variable (python : Interpreter)

/-- `validate_prompt_text`; an edit that is no string is none. -/
def validatePromptText (catalog : Catalog) (name : String) (edit : Option Text) :
    Except PromptError Text :=
  match catalog.promptBaselines.get? name with
  | none => .error (.unknownPrompt name)
  | some baseline =>
    match edit with
    | none => .error .empty
    | some text =>
      if strip text = [] then .error .empty
      else if maxPromptChars < text.length || 196608 < utf8Size text then .error .tooLong
      else if text.any isControl then .error .controlCharacters
      else
        let required := placeholders python baseline
        let fields := templateFields python text
        if fields.all required.contains && required.all fields.contains then .ok text
        else
          .error (.placeholdersMismatch
            (sortedNames (required.filter fun name => !fields.contains name))
            (sortedNames (fields.filter fun name => !required.contains name)))

/-- `render_prompt_text`. -/
def renderPromptText (text : Text) (values : Dict Text Text) : Except PromptError Text :=
  let unescaped := unescapeTemplateBraces text
  let missing := (placeholders python unescaped).filter fun name => !values.contains name
  if missing ≠ [] then .error (.missingVariables (sortedNames missing))
  else .ok (fill (fun name => values.getD name []) (cut (placeholder? python) 0 unescaped))

/-! ## The registry -/

structure PromptRegistry where
  templates : Dict String PromptTemplate
  texts : Dict String Text
  overrides : List (String × Text)
  revision : Nat

/-- The validation of all overrides, which stops at the first that fails. -/
def validateOverrides (catalog : Catalog) :
    List (String × Option Text) → Except PromptError (List (String × Text))
  | [] => .ok []
  | (name, edit) :: rest => do
      let text ← validatePromptText python catalog name edit
      let validated ← validateOverrides catalog rest
      return (name, text) :: validated

/-- `apply_overrides`. -/
def PromptRegistry.applyOverrides (registry : PromptRegistry) (catalog : Catalog)
    (overrides : List (String × Option Text)) (revision : Nat) :
    Except PromptError PromptRegistry := do
  let validated ← validateOverrides python catalog overrides
  let texts := validated.foldl (fun table item => table.set item.1 item.2) catalog.promptBaselines
  if revision ≤ registry.revision then return registry
  else
    return {
      templates := catalog.builtinTemplates.foldl
        (fun table template => table.set template.name
          { template with text := texts.getD template.name [] }) registry.templates
      texts := texts
      overrides := validated
      revision := revision }

/-- `values.get(name, match.group(0))` over the shared texts. -/
def taskValue (shared : Dict String Text) (kwargs : Dict Text Text) (name : Text) : Text :=
  match kwargs.get? name with
  | some value => value
  | none =>
    if name = formattingRules then shared.getD "formatting_rules" []
    else if name = formattingRulesCompact then shared.getD "formatting_rules_compact" []
    else '{' :: (name ++ ['}'])

/-- `get_task_prompt`. -/
def PromptRegistry.getTaskPrompt (registry : PromptRegistry) (name : String)
    (kwargs : Dict Text Text) : Except PromptError Text :=
  match registry.templates.get? name with
  | none => .error (.templateNotFound name)
  | some template =>
    let missing := template.requiredVars.filter fun name => !kwargs.contains name
    if missing ≠ [] then .error (.missingRequired missing)
    else
      .ok (fill (taskValue registry.texts kwargs)
        (cut (placeholder? python) 0 (unescapeTemplateBraces template.text)))

end

/-! ## Accepted edits -/

/-- A name that the check would see. -/
def properStart (name : Text) : Bool := name.head?.any startsField

variable {python : Interpreter} {catalog : Catalog} {name : String} {text baseline : Text}

theorem validatePromptText_ok {edit : Option Text}
    (accepted : validatePromptText python catalog name edit = .ok text) :
    ∃ baseline, catalog.promptBaselines.get? name = some baseline ∧ edit = some text ∧
      ∀ field, field ∈ templateFields python text ↔ field ∈ placeholders python baseline := by
  unfold validatePromptText at accepted
  split at accepted
  · cases accepted
  · next baseline registered =>
      split at accepted
      · cases accepted
      · next given =>
          split at accepted
          · cases accepted
          split at accepted
          · cases accepted
          split at accepted
          · cases accepted
          dsimp only at accepted
          split at accepted
          · next same =>
              cases accepted
              refine ⟨baseline, registered, rfl, ?_⟩
              obtain ⟨known, given⟩ := Bool.and_eq_true_iff.mp same
              intro field
              constructor
              · exact fun among => List.contains_iff_mem.mp (List.all_eq_true.mp known field among)
              · exact fun among => List.contains_iff_mem.mp (List.all_eq_true.mp given field among)
          · cases accepted

theorem mem_placeholders {field : Text} (among : field ∈ placeholders python text) :
    field ≠ [] ∧ ∀ c ∈ field, isWord python c = true := by
  unfold placeholders at among
  rw [names_cut (placeholder?_closed python)] at among
  obtain ⟨rest, found⟩ := found_of_mem_occurrences among
  obtain ⟨some', word, _⟩ := placeholder?_spec.mp found
  exact ⟨some', word⟩

theorem mem_templateFields {field : Text} (among : field ∈ templateFields python text) :
    properStart field = true := by
  unfold templateFields at among
  rw [names_cut (templateField?_closed python)] at among
  obtain ⟨rest, found⟩ := found_of_mem_occurrences among
  obtain ⟨c, more, rfl, start, _⟩ := templateField?_spec found
  exact start

/-- Where the check saw words only and every word starts well, both patterns see the same. -/
theorem templateFields_eq_placeholders
    (words : ∀ field ∈ templateFields python text, ∀ c ∈ field, isWord python c = true)
    (starts : ∀ field ∈ placeholders python text, properStart field = true) :
    templateFields python text = placeholders python text := by
  unfold templateFields placeholders at *
  rw [names_cut (templateField?_closed python)] at words ⊢
  rw [names_cut (placeholder?_closed python)] at starts ⊢
  induction text with
  | nil => rfl
  | cons c rest ih =>
    rw [occurrences] at words starts ⊢
    rw [occurrences]
    have later := ih (fun field among => words field (List.mem_append_right _ among))
      (fun field among => starts field (List.mem_append_right _ among))
    rw [later]
    congr 2
    split
    · next brace =>
        rw [if_pos brace] at words starts
        cases found : templateField? python rest with
        | some field =>
          rw [found] at words
          have word := words field (List.mem_append_left _ (List.mem_singleton_self field))
          exact (placeholder?_of_templateField found word).symm
        | none =>
          cases seen : placeholder? python rest with
          | none => rfl
          | some field =>
            rw [seen] at starts
            have start := starts field
              (List.mem_append_left _ (List.mem_singleton_self field))
            cases field with
            | nil => cases start
            | cons d field =>
              rw [templateField?_of_placeholder seen start] at found
              cases found
    · rfl

/-- The values are those of the placeholders of the baseline. -/
def Assigned (python : Interpreter) (baseline : Text) (values : Dict Text Text) : Prop :=
  ∀ field, values.contains field = true ↔ field ∈ placeholders python baseline

/-- The text with the fields that the check saw replaced by their values and doubled braces
undone. -/
def Rendered (python : Interpreter) (text : Text) (values : Dict Text Text) (output : Text) :
    Prop :=
  ∃ pieces, Collapses text (source pieces) ∧ names pieces = templateFields python text ∧
    output = fill (fun field => values.getD field []) pieces

theorem renderPromptText_ok {values : Dict Text Text}
    (given : ∀ field ∈ placeholders python text, values.contains field = true) :
    renderPromptText python text values = .ok (fill (fun field => values.getD field [])
      (cut (placeholder? python) 0 (unescapeTemplateBraces text))) := by
  have none : (placeholders python (unescapeTemplateBraces text)).filter
      (fun field => !values.contains field) = [] := by
    rw [placeholders_unescape, List.filter_eq_nil_iff]
    intro field among
    rw [given field among]
    exact Bool.false_ne_true
  unfold renderPromptText
  dsimp only
  rw [none, if_neg (fun absurd => absurd rfl)]

/-- A word that no value is given for stops the rendering. -/
theorem renderPromptText_missing {values : Dict Text Text} {field output : Text}
    (among : field ∈ placeholders python text) (missing : values.contains field = false) :
    renderPromptText python text values ≠ .ok output := by
  have some' : (placeholders python (unescapeTemplateBraces text)).filter
      (fun field => !values.contains field) ≠ [] := by
    apply List.ne_nil_of_mem (a := field)
    rw [placeholders_unescape, List.mem_filter]
    exact ⟨among, by rw [missing]; rfl⟩
  unfold renderPromptText
  dsimp only
  rw [if_pos some']
  exact fun absurd => nomatch absurd

/-! ## An edit in the registry -/

theorem get?_foldl_set_skip {V : Type} {items : List (String × V)} {table : Dict String V}
    (absent : name ∉ items.map Prod.fst) :
    (items.foldl (fun table item => table.set item.1 item.2) table).get? name =
      table.get? name := by
  induction items generalizing table with
  | nil => rfl
  | cons item rest ih =>
    rw [List.map_cons, List.mem_cons, not_or] at absent
    rw [List.foldl_cons, ih absent.2, Dict.get?_set_ne _ _ absent.1]

theorem get?_foldl_set {V : Type} {items : List (String × V)} {table : Dict String V} {value : V}
    (nodup : (items.map Prod.fst).Nodup) (among : (name, value) ∈ items) :
    (items.foldl (fun table item => table.set item.1 item.2) table).get? name = some value := by
  induction items generalizing table with
  | nil => exact (List.not_mem_nil among).elim
  | cons item rest ih =>
    rw [List.map_cons, List.nodup_cons] at nodup
    rw [List.foldl_cons]
    rcases List.mem_cons.mp among with same | later
    · rw [← same] at nodup ⊢
      rw [get?_foldl_set_skip nodup.1]
      exact Dict.get?_set_self _ _ _
    · exact ih nodup.2 later

theorem get?_foldl_templates_skip (change : PromptTemplate → PromptTemplate)
    {templates : List PromptTemplate} {table : Dict String PromptTemplate}
    (absent : name ∉ templates.map PromptTemplate.name) :
    (templates.foldl (fun table template => table.set template.name (change template))
      table).get? name = table.get? name := by
  induction templates generalizing table with
  | nil => rfl
  | cons first rest ih =>
    rw [List.map_cons, List.mem_cons, not_or] at absent
    rw [List.foldl_cons, ih absent.2, Dict.get?_set_ne _ _ absent.1]

/-- Each template of the module is replaced by its edited form. -/
theorem get?_foldl_templates (change : PromptTemplate → PromptTemplate)
    {templates : List PromptTemplate} {table : Dict String PromptTemplate}
    (among : name ∈ templates.map PromptTemplate.name) :
    ∃ template ∈ templates, template.name = name ∧
      (templates.foldl (fun table template => table.set template.name (change template))
        table).get? name = some (change template) := by
  induction templates generalizing table with
  | nil => exact (List.not_mem_nil among).elim
  | cons first rest ih =>
    rw [List.foldl_cons]
    by_cases later : name ∈ rest.map PromptTemplate.name
    · obtain ⟨template, member, named, found⟩ := ih later
      exact ⟨template, List.mem_cons_of_mem first member, named, found⟩
    · rcases List.mem_cons.mp among with rfl | behind
      · refine ⟨first, List.mem_cons_self, rfl, ?_⟩
        rw [get?_foldl_templates_skip change later]
        exact Dict.get?_set_self _ _ _
      · exact absurd behind later

theorem validateOverrides_mem (name : String) (text : Text)
    {overrides : List (String × Option Text)} {validated : List (String × Text)}
    (valid : validateOverrides python catalog overrides = .ok validated) :
    validated.map Prod.fst = overrides.map Prod.fst ∧
      ((name, some text) ∈ overrides → (name, text) ∈ validated) := by
  induction overrides generalizing validated with
  | nil =>
    cases valid
    exact ⟨rfl, fun absurd => (List.not_mem_nil absurd).elim⟩
  | cons override rest ih =>
    obtain ⟨key, edit⟩ := override
    rw [validateOverrides] at valid
    cases first : validatePromptText python catalog key edit with
    | error problem =>
      rw [first] at valid
      cases valid
    | ok given =>
      rw [first] at valid
      cases others : validateOverrides python catalog rest with
      | error problem =>
        rw [others] at valid
        cases valid
      | ok more =>
        rw [others] at valid
        cases valid
        obtain ⟨keys, members⟩ := ih others
        refine ⟨congrArg (key :: ·) keys, ?_⟩
        intro among
        rcases List.mem_cons.mp among with same | later
        · cases same
          obtain ⟨_, _, same, _⟩ := validatePromptText_ok first
          cases same
          exact List.mem_cons_self
        · exact List.mem_cons_of_mem _ (members later)

/-- The module's prompts: a template requires variables of its own baseline only. -/
structure RegisteredPrompts (python : Interpreter) where
  catalog : Catalog
  provided : ∀ template ∈ catalog.builtinTemplates, ∀ baseline,
    catalog.promptBaselines.get? template.name = some baseline →
    ∀ variable' ∈ template.requiredVars, variable' ∈ placeholders python baseline

/-- The template of an edited prompt has the edited text. -/
theorem applyOverrides_template {registry after : PromptRegistry}
    {overrides : List (String × Option Text)} {revision : Nat}
    (applied : registry.applyOverrides python catalog overrides revision = .ok after)
    (newer : registry.revision < revision) (nodup : (overrides.map Prod.fst).Nodup)
    (edited : (name, some text) ∈ overrides)
    (known : name ∈ catalog.builtinTemplates.map PromptTemplate.name) :
    ∃ template ∈ catalog.builtinTemplates, template.name = name ∧
      after.templates.get? name = some { template with text := text } := by
  unfold PromptRegistry.applyOverrides at applied
  cases valid : validateOverrides python catalog overrides with
  | error problem =>
    rw [valid] at applied
    cases applied
  | ok validated =>
    rw [valid] at applied
    obtain ⟨keys, members⟩ := validateOverrides_mem name text valid
    have stored : (validated.foldl (fun table item => table.set item.1 item.2)
        catalog.promptBaselines).get? name = some text :=
      get?_foldl_set (keys ▸ nodup) (members edited)
    change (if revision ≤ registry.revision then Except.ok registry else _) = _ at applied
    rw [if_neg (Nat.not_le.mpr newer)] at applied
    cases applied
    obtain ⟨template, member, named, found⟩ := @get?_foldl_templates name (fun template =>
      { template with
        text := (validated.foldl (fun table item => table.set item.1 item.2)
          catalog.promptBaselines).getD template.name [] }) _ registry.templates known
    refine ⟨template, member, named, found.trans ?_⟩
    rw [Dict.getD, named, stored]
    rfl

theorem fill_congr {first second : Text → Text} {pieces : List Piece}
    (same : ∀ field ∈ names pieces, first field = second field) :
    fill first pieces = fill second pieces := by
  induction pieces with
  | nil => rfl
  | cons piece rest ih =>
    cases piece with
    | literal c => exact congrArg (c :: ·) (ih same)
    | field name =>
      show first name ++ fill first rest = second name ++ fill second rest
      rw [same name List.mem_cons_self, ih fun field among =>
        same field (List.mem_cons_of_mem name among)]

/-- With a value for every placeholder, the registry renders the same text. -/
theorem getTaskPrompt_ok {registry : PromptRegistry} {template : PromptTemplate}
    {values : Dict Text Text} (found : registry.templates.get? name = some template)
    (required : ∀ field ∈ template.requiredVars, values.contains field = true)
    (given : ∀ field ∈ placeholders python template.text, values.contains field = true) :
    registry.getTaskPrompt python name values = .ok (fill (fun field => values.getD field [])
      (cut (placeholder? python) 0 (unescapeTemplateBraces template.text))) := by
  have none : template.requiredVars.filter (fun field => !values.contains field) = [] := by
    rw [List.filter_eq_nil_iff]
    intro field among
    rw [required field among]
    exact Bool.false_ne_true
  unfold PromptRegistry.getTaskPrompt
  rw [found]
  dsimp only
  rw [none, if_neg (fun absurd => absurd rfl)]
  refine congrArg Except.ok (fill_congr ?_)
  intro field among
  have listed : field ∈ placeholders python template.text := by
    rw [← placeholders_unescape]
    exact among
  have has := given field listed
  unfold Dict.contains at has
  unfold taskValue Dict.getD
  cases value : values.get? field with
  | none =>
    rw [value] at has
    cases has
  | some text => rfl

def asciiInterpreter : Interpreter where
  isAlnum := Char.isAlphanum
  ascii := agrees_below
  objectNames := []

/-- A template without placeholders and one with a placeholder. -/
def smallCatalog : Catalog where
  builtinTemplates := [⟨"image_analysis", "Describe.".toList, []⟩,
    ⟨"research_agent_system", "\x7bmax_pages\x7d".toList, []⟩]
  sharedBaselines := []
  roleBaselines := []

def smallPrompts : RegisteredPrompts asciiInterpreter where
  catalog := smallCatalog
  provided := by
    intro template among baseline _ field required
    have none : template.requiredVars = [] := by
      rcases List.mem_cons.mp among with rfl | last
      · rfl
      · rw [List.mem_singleton.mp last]
    rw [none] at required
    exact (List.not_mem_nil required).elim

def fivePages : Dict Text Text := Dict.empty.set "max_pages".toList "5".toList

theorem fivePages_assigned : Assigned asciiInterpreter "\x7bmax_pages\x7d".toList fivePages := by
  intro field
  have listed : placeholders asciiInterpreter "\x7bmax_pages\x7d".toList =
      ["max_pages".toList] := by
    decide +kernel
  rw [listed, List.mem_singleton]
  unfold Dict.contains fivePages
  rw [Dict.get?_set]
  split
  · next same => exact ⟨fun _ => same, fun _ => rfl⟩
  · next apart => exact ⟨fun found => Bool.noConfusion found, fun same => absurd same apart⟩

/-- An edit with a JSON object. -/
def jsonEdit : Text := "\x7b\"pages\": \x7bmax_pages\x7d\x7d".toList

/-- An edit with a number in braces. -/
def numberedEdit : Text := "Describe step \x7b1\x7d.".toList

end BobbyBotique.Prompts
