import CantonSdk.Query.Grpc.RelationMapper

/-!
# Package metadata

What a dataset needs to know about packages: their templates, interfaces and choices. It is decoded from
package archives, or derived from the events themselves where those already name everything that a query
can see.
-/

set_option linter.all false

namespace CantonSdk.Query.Grpc

open CantonSdk.Base CantonSdk.Query.Canonical

inductive PayloadType where
  | template | interface
  deriving DecidableEq

def PayloadType.name : PayloadType → String
  | template => "template"
  | interface => "interface"

structure GrpcPackageChoiceMetadata where
  choice : String
  consuming : Bool
  aliases : List String
  choiceFqn : String
  deriving DecidableEq

structure GrpcPackageTemplateMetadata where
  moduleName : String
  entityName : String
  payloadType : PayloadType
  aliases : List String
  templateFqn : String
  choices : List GrpcPackageChoiceMetadata
  deriving DecidableEq

structure GrpcPackageMetadata where
  id : String
  name : String
  version : String
  templates : List GrpcPackageTemplateMetadata
  deriving DecidableEq

/-- `${packageName}:${moduleName}:${entityName}`. -/
def templateFqn (packageName moduleName entityName : String) : String :=
  packageName ++ ":" ++ moduleName ++ ":" ++ entityName

def choiceFqn (packageName moduleName entityName choice : String) : String :=
  templateFqn packageName moduleName entityName ++ ":" ++ choice

def contractTypeAliases (packageName moduleName entityName : String) : List String :=
  [templateFqn packageName moduleName entityName, moduleName ++ ":" ++ entityName, entityName]

def exerciseTypeAliases (packageName moduleName entityName choice : String) : List String :=
  [choiceFqn packageName moduleName entityName choice,
    moduleName ++ ":" ++ entityName ++ ":" ++ choice, entityName ++ ":" ++ choice, choice]

/-- `templateIdentity`. -/
def templateIdentity (packageId moduleName entityName : String) : String :=
  packageId ++ nul ++ moduleName ++ nul ++ entityName

/-! ### Checks -/

def isPackageText (value : String) : Bool :=
  !value.isEmpty && value.toList.all fun c => !(c = ':' || decide (c.toNat < 32) || decide (c.toNat = 127))

def packageText (value name : String) : Checked Unit :=
  guardThat (isPackageText value) (invalid ("package metadata " ++ name))

def exactAliases (value expected : List String) (name : String) : Checked Unit :=
  guardThat (decide (value = expected)) (validation (name ++ " aliases are invalid"))

def exactText (value expected name : String) : Checked Unit :=
  guardThat (decide (value = expected)) (invalid name)

/-- The checks of `normalizePackageChoice` after the loop has refused a repeated choice. -/
def normalizePackageChoice (packageId packageName moduleName entityName : String)
    (value : GrpcPackageChoiceMetadata) : Checked Unit := do
  exactAliases value.aliases (exerciseTypeAliases packageName moduleName entityName value.choice)
    ("package " ++ packageId ++ " choice")
  exactText value.choiceFqn (choiceFqn packageName moduleName entityName value.choice)
    ("package " ++ packageId ++ " choice FQN")

def normalizePackageChoices (packageId packageName moduleName entityName : String)
    (choices : List GrpcPackageChoiceMetadata) : Checked Unit :=
  checkEachDistinct
    (fun value => do
      let _ ← validNameString value.choice ("package " ++ packageId ++ " choice name"))
    (normalizePackageChoice packageId packageName moduleName entityName)
    GrpcPackageChoiceMetadata.choice
    (fun value => validation ("has duplicate DAML-LF choice " ++ packageId ++ ":" ++ moduleName ++ ":"
      ++ entityName ++ ":" ++ value.choice))
    [] choices

/-- The checks of `normalizePackageTemplate` after the loop has refused a repeated template. -/
def normalizePackageTemplate (packageId packageName : String) (value : GrpcPackageTemplateMetadata) :
    Checked Unit := do
  exactAliases value.aliases (contractTypeAliases packageName value.moduleName value.entityName)
    ("package " ++ packageId ++ " template")
  exactText value.templateFqn (templateFqn packageName value.moduleName value.entityName)
    ("package " ++ packageId ++ " template FQN")
  normalizePackageChoices packageId packageName value.moduleName value.entityName value.choices

def normalizePackageTemplates (packageId packageName : String)
    (templates : List GrpcPackageTemplateMetadata) : Checked Unit :=
  checkEachDistinct
    (fun value => do
      let _ ← validDottedNameString value.moduleName ("package " ++ packageId ++ " template module")
      let _ ← validDottedNameString value.entityName ("package " ++ packageId ++ " template entity"))
    (normalizePackageTemplate packageId packageName)
    (fun value => templateIdentity packageId value.moduleName value.entityName)
    (fun value => validation ("has duplicate DAML-LF template "
      ++ templateIdentity packageId value.moduleName value.entityName))
    [] templates

/-- `normalizeGrpcPackageMetadata`. A list that passes is its own normal form. -/
def normalizeGrpcPackageMetadata (packages : List GrpcPackageMetadata) : Checked Unit :=
  checkEachDistinct
    (fun value => do
      packageText value.id "id"
      let _ ← validPackageIdString value.id "package metadata id"
      packageText value.name "name"
      packageText value.version "version")
    (fun value => normalizePackageTemplates value.id value.name value.templates)
    GrpcPackageMetadata.id
    (fun value => validation ("has duplicate package metadata " ++ value.id))
    [] packages

/-! ### Metadata from events -/

structure DerivedTemplate where
  moduleName : String
  entityName : String
  /-- Whether each observed choice consumes. -/
  choices : KeyedMap String Bool

structure DerivedPackage where
  name : String
  templates : KeyedMap String DerivedTemplate

/-- The packages seen so far. -/
abbrev DerivedPackages := KeyedMap String DerivedPackage

/-- `derivedPackageFor`. -/
def derivedPackageFor (packages : DerivedPackages) (packageId packageName : String) :
    Checked DerivedPackage :=
  match packages.get packageId with
  | none => .ok ⟨packageName, .empty⟩
  | some existing => do
      guardThat (decide (existing.name = packageName))
        (validation ("package " ++ packageId ++ " reports conflicting package names"))
      return existing

/-- `derivedTemplateFor`. -/
def derivedTemplateFor (package : DerivedPackage) (moduleName entityName : String) : DerivedTemplate :=
  (package.templates.get (moduleName ++ " " ++ entityName)).getD ⟨moduleName, entityName, .empty⟩

/-- The packages once a template of one of them is this. -/
def setDerivedTemplate (packages : DerivedPackages) (packageId : String) (package : DerivedPackage)
    (moduleName entityName : String) (template : DerivedTemplate) : DerivedPackages :=
  packages.set packageId
    { package with templates := package.templates.set (moduleName ++ " " ++ entityName) template }

/-- The package that a creation counts as: its representative where it has one. -/
def GrpcQueryCreationIdentity.typePackageId (creation : GrpcQueryCreationIdentity) : String :=
  creation.representativePackageId.getD creation.creationPackageId

def addDerivedCreationEntry (packages : DerivedPackages) (creation : GrpcQueryCreationIdentity) :
    Checked DerivedPackages := do
  let package ← derivedPackageFor packages creation.typePackageId creation.packageName
  let template :=
    derivedTemplateFor package creation.templateId.moduleName creation.templateId.entityName
  return setDerivedTemplate packages creation.typePackageId package creation.templateId.moduleName
    creation.templateId.entityName template

def addDerivedCreationEntries (packages : DerivedPackages)
    (creationIdentities : List GrpcQueryCreationIdentity) : Checked DerivedPackages :=
  creationIdentities.foldlM addDerivedCreationEntry packages

/-- The choices of a template once a type identity has been observed. -/
def observeChoice (template : DerivedTemplate) : Option (String × Bool) → Checked DerivedTemplate
  | none => .ok template
  | some (choice, consuming) => do
      guardThat ((template.choices.get choice).all fun known => known == consuming)
        (validation ("choice " ++ choice ++ " reports conflicting consuming flags"))
      return { template with choices := template.choices.set choice consuming }

/-- The body of the loop over the type identities. -/
def addDerivedTypeIdentity (packages : DerivedPackages) (identity : GrpcQueryTypeIdentity) :
    Checked DerivedPackages :=
  match identity.packageName with
  | none => .error (validation "contract type identity is missing its package name")
  | some packageName => do
      let package ← derivedPackageFor packages identity.packageId packageName
      let template ← observeChoice
        (derivedTemplateFor package identity.templateId.moduleName identity.templateId.entityName)
        identity.choice
      return setDerivedTemplate packages identity.packageId package identity.templateId.moduleName
        identity.templateId.entityName template

section Derived

variable (locale : Collation)

def finalizeDerivedTemplate (packageName : String) (template : DerivedTemplate) :
    GrpcPackageTemplateMetadata where
  moduleName := template.moduleName
  entityName := template.entityName
  payloadType := .template
  aliases := contractTypeAliases packageName template.moduleName template.entityName
  templateFqn := templateFqn packageName template.moduleName template.entityName
  choices := sortBy (compareKey locale.localeCompare GrpcPackageChoiceMetadata.choice)
    (template.choices.entries.map fun entry => {
      choice := entry.1
      consuming := entry.2
      aliases := exerciseTypeAliases packageName template.moduleName template.entityName entry.1
      choiceFqn := choiceFqn packageName template.moduleName template.entityName entry.1 })

/-- The version is a placeholder that no query on derived metadata can see. -/
def finalizeDerivedPackages (packages : DerivedPackages) : List GrpcPackageMetadata :=
  packages.entries.map fun entry => {
    id := entry.1
    name := entry.2.name
    version := "unresolved-" ++ entry.1
    templates := entry.2.templates.values.map (finalizeDerivedTemplate locale entry.2.name) }

def contractTypeMetadataFromCreations (creationIdentities : List GrpcQueryCreationIdentity) :
    Checked (List GrpcPackageMetadata) := do
  let packages ← addDerivedCreationEntries .empty creationIdentities
  return finalizeDerivedPackages locale packages

/-- `packageMetadataFromEvents`; none where an interface owns an observed choice. -/
def packageMetadataFromEvents (creationIdentities : List GrpcQueryCreationIdentity)
    (typeIdentities : List GrpcQueryTypeIdentity) : Checked (Option (List GrpcPackageMetadata)) := do
  if typeIdentities.any fun identity => identity.choice.isSome && identity.packageName.isNone then
    return none
  else
    let created ← addDerivedCreationEntries .empty creationIdentities
    let packages ← typeIdentities.foldlM addDerivedTypeIdentity created
    return some (finalizeDerivedPackages locale packages)

end Derived

/-- The package of the token. -/
def tokenPackage : GrpcPackageMetadata where
  id := "pkg"
  name := "tokens"
  version := "1.0.0"
  templates := [{
    moduleName := "Main"
    entityName := "Token"
    payloadType := .template
    aliases := ["tokens:Main:Token", "Main:Token", "Token"]
    templateFqn := "tokens:Main:Token"
    choices := [{
      choice := "Archive"
      consuming := true
      aliases := ["tokens:Main:Token:Archive", "Main:Token:Archive", "Token:Archive", "Archive"]
      choiceFqn := "tokens:Main:Token:Archive" }] }]

end CantonSdk.Query.Grpc
