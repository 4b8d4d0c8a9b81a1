import CantonSdk.Base.Checked

/-!
# Identifiers of generated code

The generator derives the names it emits from DAML names: a name is cut into words at every change of case
and at every character that is neither a letter nor a digit of ASCII.
-/

set_option linter.all false

namespace CantonSdk.DamlInterface

/-- `DamlInterfaceUnsupportedShapeException`, and the end of a bounded run of the analysis. -/
inductive InterfaceError
  | unsupportedShape (message : String)
  | outOfFuel
  deriving DecidableEq

def emptyIdentifier : InterfaceError :=
  .unsupportedShape "DAML interface generator cannot normalize an empty identifier"

def isLowerOrDigit (c : Char) : Bool := c.isLower || c.isDigit

/-- `value.replace(/([a-z0-9])([A-Z])/g, "$1<separator>$2")`. -/
def separateCase (separator : Char) : List Char → List Char
  | [] => []
  | [c] => [c]
  | c :: d :: rest =>
      if isLowerOrDigit c && d.isUpper then c :: separator :: separateCase separator (d :: rest)
      else c :: separateCase separator (d :: rest)

/-- The words left when every run of other characters has become one space: the maximal runs of letters and
digits. -/
def words (value : List Char) : List (List Char) :=
  (value.splitOnP fun c => !c.isAlphanum).filter fun word => !word.isEmpty

/-- `segment[0].toUpperCase() + segment.slice(1)`. -/
def capitalize : List Char → List Char
  | [] => []
  | c :: rest => c.toUpper :: rest

def toPascalCase (value : String) : Except InterfaceError String :=
  match words (separateCase ' ' value.toList) with
  | [] => .error emptyIdentifier
  | segments => .ok (String.ofList (segments.flatMap capitalize))

/-- The name with its first character in lower case. -/
def uncapitalize : List Char → List Char
  | [] => []
  | c :: rest => c.toLower :: rest

def toCamelCase (value : String) : Except InterfaceError String := do
  let pascalCase ← toPascalCase value
  if pascalCase.isEmpty then .error emptyIdentifier
  else .ok (String.ofList (uncapitalize pascalCase.toList))

def toKebabCase (value : String) : Except InterfaceError String := do
  let pascalCase ← toPascalCase value
  .ok (String.ofList ((separateCase '-' pascalCase.toList).map Char.toLower))

example : (toCamelCase "Main.Asset_holder").toOption = some "mainAssetHolder" := by decide

end CantonSdk.DamlInterface
