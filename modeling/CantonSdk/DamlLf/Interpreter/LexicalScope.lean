import CantonSdk.Base.KeyedMap
import CantonSdk.DamlLf.Interpreter.Expression

/-!
# Lexical scopes and frames

A scope of the host is an object with a map of bindings that is changed in place, and a reference to the scope
around it. Here a scope is the chain of the places of these maps, and the maps themselves are kept in a store.
A function value has the frame that it was made in, and with it the scope: bindings that are added to a map
later are seen by the function as well.
-/

set_option linter.all false

namespace CantonSdk.DamlLf.Interpreter

open CantonSdk.Base

/-- Where the map of a scope is kept. -/
abbrev ScopeId := Nat

/-- `DamlLfLexicalScope`: its own map, and those of the scopes around it, the closest first. -/
structure LexicalScope where
  bindings : ScopeId
  parents : List ScopeId

def LexicalScope.chain (scope : LexicalScope) : List ScopeId := scope.bindings :: scope.parents

/-- `DamlLfRuntimeFrame`. -/
structure RuntimeFrame where
  frameId : Nat
  packageId : String
  moduleName : String
  definition : ValueDefinition
  scope : LexicalScope

structure Closure where
  parameters : List String
  body : Expression
  frame : RuntimeFrame

abbrev Value := RuntimeValue Closure

abbrev HostRaw := Raw Closure

/-- The maps of all scopes. -/
abbrev ScopeStore := ScopeId → KeyedMap String Value

/-- The loop of `getBinding`, from the closest scope outwards. -/
def findBinding (store : ScopeStore) (name : String) : List ScopeId → Option Value
  | [] => none
  | scopeId :: parents =>
      match (store scopeId).get name with
      | some value => some value
      | none => findBinding store name parents

def LexicalScope.getBinding (scope : LexicalScope) (store : ScopeStore) (name : String) : Option Value :=
  findBinding store name scope.chain

/-- `snapshotBindings`: all that is bound, where closer bindings take the place of those around them. -/
def LexicalScope.snapshotBindings (scope : LexicalScope) (store : ScopeStore) : List (String × Value) :=
  (scope.chain.reverse.foldl (fun resolved scopeId =>
    (store scopeId).entries.foldl (fun resolved entry => resolved.set entry.1 entry.2) resolved)
    KeyedMap.empty).entries

/-- `deriveFrame`. -/
def RuntimeFrame.derive (frame : RuntimeFrame) (scope : LexicalScope) : RuntimeFrame :=
  { frame with scope := scope }

end CantonSdk.DamlLf.Interpreter
