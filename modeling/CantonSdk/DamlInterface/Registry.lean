import CantonSdk.Base.KeyedMap
import CantonSdk.DamlLf.Model

/-!
# The generated registry

The registry dispatches an event to the binding of its template with a switch over the module and the name of the
template, and the binding checks the identity of the event. Both read these names off the literal of the binding. The
emitter rejects templates whose literals differ and whose labels do not.
-/

set_option linter.all false

namespace CantonSdk.DamlInterface

open CantonSdk.Base CantonSdk.DamlLf

/-! ## Bindings -/

/-- What the registry and the identity check use of a `GeneratedTemplateBinding`. -/
structure GeneratedTemplateBinding where
  className : String
  templateIdLiteral : String
  packageName : Option String

/-- A template of the project and the class that its binding is given. -/
structure ProjectTemplate where
  templateId : DamlLfTemplateId
  className : String

/-- `literal.split(":")[index]`, as it reads in a text. -/
def partOfLiteral (literal : String) (index : Nat) : String :=
  ((literal.toList.splitOn ':').map String.ofList)[index]?.getD "undefined"

def moduleName (binding : GeneratedTemplateBinding) : String := partOfLiteral binding.templateIdLiteral 1

def entityName (binding : GeneratedTemplateBinding) : String := partOfLiteral binding.templateIdLiteral 2

section Project

variable (packageMetadata : String → Option String)

/-- The name of the package when it is known, and its id otherwise. -/
def templateIdLiteral (templateId : DamlLfTemplateId) : String :=
  (packageMetadata templateId.packageId).getD templateId.packageId ++ ":" ++ templateId.moduleName ++ ":"
    ++ templateId.templateName

def createBinding (template : ProjectTemplate) : GeneratedTemplateBinding where
  className := template.className
  templateIdLiteral := templateIdLiteral packageMetadata template.templateId
  packageName := packageMetadata template.templateId.packageId

end Project

/-! ## The registry -/

inductive RegistryMethod
  | fromCreatedEvent
  | fromExercisedEvent

/-- `case "<label>": return <className>.<methodName>(event);` -/
structure RegistryCase where
  label : String
  className : String
  methodName : RegistryMethod

def dispatchKey (binding : GeneratedTemplateBinding) : String := moduleName binding ++ ":" ++ entityName binding

def emitCase (methodName : RegistryMethod) (binding : GeneratedTemplateBinding) : RegistryCase :=
  ⟨dispatchKey binding, binding.className, methodName⟩

/-- The literal that has the label already, when it is another one. -/
def collision (seen : KeyedMap String String) (binding : GeneratedTemplateBinding) : Option String :=
  (seen.get (dispatchKey binding)).filter fun existing => existing ≠ binding.templateIdLiteral

def emitCases (methodName : RegistryMethod) (seen : KeyedMap String String) :
    List GeneratedTemplateBinding → Except String (List RegistryCase)
  | [] => .ok []
  | binding :: rest =>
      match collision seen binding with
      | some existing =>
          .error ("Generated registry cannot dispatch '" ++ dispatchKey binding ++ "': templates '" ++ existing ++ "' and '"
            ++ binding.templateIdLiteral ++ "' collide on module:entity across packages.")
      | none => do
          let cases ← emitCases methodName (seen.set (dispatchKey binding) binding.templateIdLiteral) rest
          .ok (emitCase methodName binding :: cases)

structure GeneratedRegistry where
  /-- The classes of the import lines. -/
  importedNames : List String
  createdCases : List RegistryCase
  exercisedCases : List RegistryCase

def emitRegistry (bindings : List GeneratedTemplateBinding) : Except String GeneratedRegistry := do
  let createdCases ← emitCases .fromCreatedEvent .empty bindings
  let exercisedCases ← emitCases .fromExercisedEvent .empty bindings
  .ok ⟨bindings.map (·.className), createdCases, exercisedCases⟩

/-! ## What the generated code does -/

/-- The names that the registry has besides the imported classes. -/
def registryNames : List String :=
  ["DamlEventSourceNormalizer", "DamlMaterializationError", "DamlCreatedEventSource", "DamlExercisedEventSource",
    "GeneratedRegistry"]

/-- The text stands for itself between double quotes. -/
def isPlainText (text : String) : Bool := text.toList.all fun c => c ∉ ['"', '\\', '\n', '\r']

/-- Every name is declared once, and every label is read as it is written. -/
structure GeneratedRegistry.IsLegal (registry : GeneratedRegistry) : Prop where
  names : (registryNames ++ registry.importedNames).Nodup
  labels : ∀ registryCase ∈ registry.createdCases ++ registry.exercisedCases, isPlainText registryCase.label

/-- The identity in the metadata of a normalized event. -/
structure EventIdentity where
  templateId : DamlLfTemplateId
  packageName : Option String

/-- The case that the switch takes. -/
def dispatch (cases : List RegistryCase) (identity : EventIdentity) : Option RegistryCase :=
  cases.find? fun registryCase =>
    registryCase.label = identity.templateId.moduleName ++ ":" ++ identity.templateId.templateName

/-- The package is compared by its name when both sides have one. -/
def assertTemplateIdentity (binding : GeneratedTemplateBinding) (identity : EventIdentity) : Bool :=
  identity.templateId.moduleName = moduleName binding && identity.templateId.templateName = entityName binding
    && (binding.packageName.isNone || identity.packageName.isNone || identity.packageName = binding.packageName)

section Reach

variable (packageMetadata : String → Option String)

/-- The event is of the template, and has the name of its package if that is known. -/
structure IsOwnEvent (template : ProjectTemplate) (identity : EventIdentity) : Prop where
  templateId : identity.templateId = template.templateId
  packageName : ∀ packageName, packageMetadata template.templateId.packageId = some packageName →
    identity.packageName = some packageName

/-- The labels are distinct, and an event of a template takes the case of its class and passes its check. -/
structure Dispatches (cases : List RegistryCase) (templates : List ProjectTemplate) : Prop where
  labels : (cases.map (·.label)).Nodup
  reaches : ∀ template ∈ templates, ∀ identity, IsOwnEvent packageMetadata template identity →
    (dispatch cases identity).map (·.className) = some template.className
      ∧ assertTemplateIdentity (createBinding packageMetadata template) identity = true

/-- The module of the registry is legal, and both of its switches dispatch every template. -/
structure ReachesEveryBinding (registry : GeneratedRegistry) (templates : List ProjectTemplate) : Prop where
  legal : registry.IsLegal
  created : Dispatches packageMetadata registry.createdCases templates
  exercised : Dispatches packageMetadata registry.exercisedCases templates

/-- The literal of the template splits into its module and its name, and these stand for themselves in a label. -/
structure ReadsBack (template : ProjectTemplate) : Prop where
  moduleName : moduleName (createBinding packageMetadata template) = template.templateId.moduleName
  entityName : entityName (createBinding packageMetadata template) = template.templateId.templateName
  plain : isPlainText (template.templateId.moduleName ++ ":" ++ template.templateId.templateName)

/-- No two templates have the same literal, as those of two versions of a package with one name do; every literal reads
back; and the classes have distinct names that are not those of the registry. -/
structure Distinguishes (templates : List ProjectTemplate) : Prop where
  literals : (templates.map fun template => templateIdLiteral packageMetadata template.templateId).Nodup
  readsBack : ∀ template ∈ templates, ReadsBack packageMetadata template
  classNames : (templates.map (·.className)).Nodup
  ownNames : ∀ template ∈ templates, template.className ∉ registryNames

end Reach

/-! ## Accepted projects -/

theorem collision_eq_none {seen : KeyedMap String String} {binding : GeneratedTemplateBinding} :
    collision seen binding = none ↔
      ∀ existing, seen.get (dispatchKey binding) = some existing → existing = binding.templateIdLiteral := by
  rw [collision]
  cases seen.get (dispatchKey binding) with
  | none => simp
  | some existing => simp [Option.filter]

theorem emitCases_ok {methodName : RegistryMethod} {bindings : List GeneratedTemplateBinding} {seen : KeyedMap String String}
    {cases : List RegistryCase} (h : emitCases methodName seen bindings = .ok cases) :
    cases = bindings.map (emitCase methodName)
      ∧ (∀ binding ∈ bindings, ∀ existing, seen.get (dispatchKey binding) = some existing → existing = binding.templateIdLiteral)
      ∧ bindings.Pairwise fun first second => dispatchKey first = dispatchKey second →
        first.templateIdLiteral = second.templateIdLiteral := by
  induction bindings generalizing seen cases with
  | nil =>
      cases h
      exact ⟨rfl, fun _ hmem => absurd hmem List.not_mem_nil, List.Pairwise.nil⟩
  | cons binding rest ih =>
      rw [emitCases] at h
      split at h
      · cases h
      · next hcollision =>
          cases hrest : emitCases methodName (seen.set (dispatchKey binding) binding.templateIdLiteral) rest with
          | error message =>
              rw [hrest] at h
              cases h
          | ok restCases =>
              rw [hrest] at h
              cases h
              obtain ⟨hcases, hseen, hpairwise⟩ := ih hrest
              have hnew : ∀ other ∈ rest, dispatchKey binding = dispatchKey other →
                  binding.templateIdLiteral = other.templateIdLiteral := fun other hmem hsame =>
                hseen other hmem binding.templateIdLiteral (by rw [KeyedMap.get_set, if_pos hsame.symm])
              refine ⟨by rw [hcases, List.map_cons], ?_, List.pairwise_cons.mpr ⟨hnew, hpairwise⟩⟩
              refine List.forall_mem_cons.mpr ⟨collision_eq_none.mp hcollision, fun other hmem existing hexisting => ?_⟩
              by_cases hsame : dispatchKey other = dispatchKey binding
              · rw [hsame] at hexisting
                exact (collision_eq_none.mp hcollision existing hexisting).trans (hnew other hmem hsame.symm)
              · exact hseen other hmem existing (by rwa [KeyedMap.get_set, if_neg hsame])

/-- An accepted project has a case for every binding in both switches, and equal labels only of equal literals. -/
theorem emitRegistry_ok {bindings : List GeneratedTemplateBinding} {registry : GeneratedRegistry}
    (h : emitRegistry bindings = .ok registry) :
    registry.importedNames = bindings.map (·.className)
      ∧ registry.createdCases = bindings.map (emitCase .fromCreatedEvent)
      ∧ registry.exercisedCases = bindings.map (emitCase .fromExercisedEvent)
      ∧ bindings.Pairwise fun first second => dispatchKey first = dispatchKey second →
        first.templateIdLiteral = second.templateIdLiteral := by
  rw [emitRegistry] at h
  cases hcreated : emitCases .fromCreatedEvent .empty bindings with
  | error message =>
      rw [hcreated] at h
      cases h
  | ok createdCases =>
      cases hexercised : emitCases .fromExercisedEvent .empty bindings with
      | error message =>
          rw [hcreated, hexercised] at h
          cases h
      | ok exercisedCases =>
          rw [hcreated, hexercised] at h
          cases h
          obtain ⟨hcreatedCases, -, hpairwise⟩ := emitCases_ok hcreated
          exact ⟨rfl, hcreatedCases, (emitCases_ok hexercised).1, hpairwise⟩

section Dispatching

variable {packageMetadata : String → Option String} {templates : List ProjectTemplate} {methodName : RegistryMethod}

/-- The label of the case of a template. -/
def labelOf (packageMetadata : String → Option String) (template : ProjectTemplate) : String :=
  dispatchKey (createBinding packageMetadata template)

theorem labelOf_of_readsBack {template : ProjectTemplate} (h : ReadsBack packageMetadata template) :
    labelOf packageMetadata template = template.templateId.moduleName ++ ":" ++ template.templateId.templateName := by
  rw [labelOf, dispatchKey, h.moduleName, h.entityName]

theorem labelOf_congr {first second : ProjectTemplate}
    (h : templateIdLiteral packageMetadata first.templateId = templateIdLiteral packageMetadata second.templateId) :
    labelOf packageMetadata first = labelOf packageMetadata second := by
  show partOfLiteral (templateIdLiteral packageMetadata first.templateId) 1 ++ ":"
      ++ partOfLiteral (templateIdLiteral packageMetadata first.templateId) 2 = _
  rw [h]
  rfl

/-- Labels are distinct when literals are, in a project that is accepted. -/
theorem nodup_labels_iff
    (hpairwise : (templates.map (createBinding packageMetadata)).Pairwise fun first second =>
      dispatchKey first = dispatchKey second → first.templateIdLiteral = second.templateIdLiteral) :
    (templates.map (labelOf packageMetadata)).Nodup
      ↔ (templates.map fun template => templateIdLiteral packageMetadata template.templateId).Nodup := by
  rw [List.pairwise_map] at hpairwise
  rw [List.nodup_iff_pairwise_ne, List.pairwise_map, List.nodup_iff_pairwise_ne, List.pairwise_map]
  constructor
  · intro h
    refine h.imp fun hlabels hliterals => ?_
    exact hlabels (labelOf_congr hliterals)
  · intro h
    refine (hpairwise.and h).imp fun hboth hlabels => ?_
    exact hboth.2 (hboth.1 hlabels)

theorem dispatches_of_distinguishes (h : Distinguishes packageMetadata templates)
    (hpairwise : (templates.map (createBinding packageMetadata)).Pairwise fun first second =>
      dispatchKey first = dispatchKey second → first.templateIdLiteral = second.templateIdLiteral) :
    Dispatches packageMetadata ((templates.map (createBinding packageMetadata)).map (emitCase methodName)) templates := by
  have hlabels : (((templates.map (createBinding packageMetadata)).map (emitCase methodName)).map (·.label)).Nodup := by
    rw [List.map_map, List.map_map]
    exact (nodup_labels_iff hpairwise).mpr h.literals
  refine ⟨hlabels, fun template hmem identity hown => ⟨?_, ?_⟩⟩
  · have hreads := h.readsBack template hmem
    have hcase : emitCase methodName (createBinding packageMetadata template)
        ∈ (templates.map (createBinding packageMetadata)).map (emitCase methodName) :=
      List.mem_map_of_mem (List.mem_map_of_mem hmem)
    have hfind : dispatch ((templates.map (createBinding packageMetadata)).map (emitCase methodName)) identity
        = some (emitCase methodName (createBinding packageMetadata template)) := by
      have hlabel : identity.templateId.moduleName ++ ":" ++ identity.templateId.templateName
          = (emitCase methodName (createBinding packageMetadata template)).label := by
        rw [hown.templateId]
        exact (labelOf_of_readsBack hreads).symm
      rw [dispatch, ← List.head?_filter, hlabel, KeyedMap.filter_eq_singleton hlabels hcase]
      rfl
    rw [hfind]
    rfl
  · have hreads := h.readsBack template hmem
    rw [assertTemplateIdentity, hown.templateId, hreads.moduleName, hreads.entityName]
    cases hname : packageMetadata template.templateId.packageId with
    | none => simp [createBinding, hname]
    | some packageName => simp [createBinding, hname, hown.packageName packageName hname]

/-- The check of a template on an event of its own compares the names only. -/
theorem names_of_assertTemplateIdentity {template : ProjectTemplate} {identity : EventIdentity}
    (hown : IsOwnEvent packageMetadata template identity)
    (h : assertTemplateIdentity (createBinding packageMetadata template) identity = true) :
    moduleName (createBinding packageMetadata template) = template.templateId.moduleName
      ∧ entityName (createBinding packageMetadata template) = template.templateId.templateName := by
  rw [assertTemplateIdentity, Bool.and_eq_true, Bool.and_eq_true, hown.templateId] at h
  exact ⟨(of_decide_eq_true h.1.1).symm, (of_decide_eq_true h.1.2).symm⟩

theorem readsBack_of_dispatches {registry : GeneratedRegistry} {template : ProjectTemplate}
    (hlegal : registry.IsLegal) (h : Dispatches packageMetadata registry.createdCases templates) (hmem : template ∈ templates)
    (hcases : registry.createdCases = (templates.map (createBinding packageMetadata)).map (emitCase .fromCreatedEvent)) :
    ReadsBack packageMetadata template := by
  have hown : IsOwnEvent packageMetadata template ⟨template.templateId, packageMetadata template.templateId.packageId⟩ :=
    ⟨rfl, fun _ hname => hname⟩
  obtain ⟨hmodule, hentity⟩ := names_of_assertTemplateIdentity hown (h.reaches template hmem _ hown).2
  refine ⟨hmodule, hentity, ?_⟩
  have hcase : emitCase .fromCreatedEvent (createBinding packageMetadata template) ∈ registry.createdCases := by
    rw [hcases]
    exact List.mem_map_of_mem (List.mem_map_of_mem hmem)
  have hplain := hlegal.labels _ (List.mem_append_left _ hcase)
  rwa [emitCase, dispatchKey, hmodule, hentity] at hplain

theorem isLegal_of_distinguishes {registry : GeneratedRegistry} (h : Distinguishes packageMetadata templates)
    (hnames : registry.importedNames = templates.map (·.className))
    (hcreated : registry.createdCases = (templates.map (createBinding packageMetadata)).map (emitCase .fromCreatedEvent))
    (hexercised : registry.exercisedCases = (templates.map (createBinding packageMetadata)).map (emitCase .fromExercisedEvent)) :
    registry.IsLegal := by
  have hplain : ∀ methodName, ∀ registryCase ∈ (templates.map (createBinding packageMetadata)).map (emitCase methodName),
      isPlainText registryCase.label := by
    intro methodName registryCase hmem
    obtain ⟨binding, hbinding, rfl⟩ := List.mem_map.mp hmem
    obtain ⟨template, htemplate, rfl⟩ := List.mem_map.mp hbinding
    show isPlainText (labelOf packageMetadata template)
    rw [labelOf_of_readsBack (h.readsBack template htemplate)]
    exact (h.readsBack template htemplate).plain
  refine ⟨?_, fun registryCase hmem => ?_⟩
  · rw [hnames, List.nodup_append]
    refine ⟨by decide, h.classNames, fun name hname className hclass heq => ?_⟩
    obtain ⟨template, htemplate, rfl⟩ := List.mem_map.mp hclass
    exact h.ownNames template htemplate (heq ▸ hname)
  · rw [hcreated, hexercised] at hmem
    rcases List.mem_append.mp hmem with hmem | hmem
    · exact hplain _ registryCase hmem
    · exact hplain _ registryCase hmem

end Dispatching

/-- The registry of an accepted project reaches every binding exactly when the literals of the templates are distinct and
read back, and the classes are declared once. -/
theorem reachesEveryBinding_iff (packageMetadata : String → Option String) (templates : List ProjectTemplate)
    (registry : GeneratedRegistry) (haccepted : emitRegistry (templates.map (createBinding packageMetadata)) = .ok registry) :
    ReachesEveryBinding packageMetadata registry templates ↔ Distinguishes packageMetadata templates := by
  obtain ⟨hnames, hcreated, hexercised, hpairwise⟩ := emitRegistry_ok haccepted
  rw [List.map_map] at hnames
  constructor
  · rintro ⟨hlegal, hdispatches, -⟩
    have hnodup := List.nodup_append.mp hlegal.names
    rw [hnames] at hnodup
    refine ⟨?_, fun template hmem => readsBack_of_dispatches hlegal hdispatches hmem hcreated, hnodup.2.1, fun template hmem hown => ?_⟩
    · have hlabels := hdispatches.labels
      rw [hcreated, List.map_map, List.map_map] at hlabels
      exact (nodup_labels_iff hpairwise).mp hlabels
    · exact hnodup.2.2 _ hown _ (List.mem_map_of_mem hmem) rfl
  · intro h
    refine ⟨isLegal_of_distinguishes h hnames hcreated hexercised, ?_, ?_⟩
    · rw [hcreated]
      exact dispatches_of_distinguishes h hpairwise
    · rw [hexercised]
      exact dispatches_of_distinguishes h hpairwise

/-- Two templates of one package. -/
theorem reachesEveryBinding_two : ∃ registry,
    emitRegistry ([⟨⟨"p1", "Main", "Iou"⟩, "Iou"⟩, ⟨⟨"p1", "Main", "Offer"⟩, "Offer"⟩].map (createBinding fun _ => some "app"))
        = .ok registry
      ∧ (ReachesEveryBinding (fun _ => some "app") registry [⟨⟨"p1", "Main", "Iou"⟩, "Iou"⟩, ⟨⟨"p1", "Main", "Offer"⟩, "Offer"⟩]
        ↔ Distinguishes (fun _ => some "app") [⟨⟨"p1", "Main", "Iou"⟩, "Iou"⟩, ⟨⟨"p1", "Main", "Offer"⟩, "Offer"⟩]) :=
  ⟨_, rfl, reachesEveryBinding_iff _ _ _ rfl⟩

/-- Two versions of a package with one name are accepted, and an event of the second version goes to the first one's class. -/
theorem second_version_not_reached : ∃ registry,
    emitRegistry ([⟨⟨"p1", "Main", "Iou"⟩, "Iou_a"⟩, ⟨⟨"p2", "Main", "Iou"⟩, "Iou_b"⟩].map (createBinding fun _ => some "app"))
        = .ok registry
      ∧ ¬ ReachesEveryBinding (fun _ => some "app") registry [⟨⟨"p1", "Main", "Iou"⟩, "Iou_a"⟩, ⟨⟨"p2", "Main", "Iou"⟩, "Iou_b"⟩] := by
  refine ⟨_, rfl, fun h => ?_⟩
  have hreaches := (h.created.reaches ⟨⟨"p2", "Main", "Iou"⟩, "Iou_b"⟩ (by simp) ⟨⟨"p2", "Main", "Iou"⟩, some "app"⟩
    ⟨rfl, fun _ hname => hname⟩).1
  revert hreaches
  decide

end CantonSdk.DamlInterface
