import CantonSdk.Query.Canonical.Value
import Mathlib.Data.List.DropRight

/-!
# Read-only statements

`assertReadOnlySql` looks for statements that change something in the text that four replacements leave over. A
replacement is written for lists of anything with a character, so that the same replacements run on the text and on
the text with its positions.
-/

set_option linter.all false

namespace CantonSdk.Query.Pqs

open CantonSdk.Base CantonSdk.Query.Canonical

def allowedStarts : List String := ["select", "with", "explain", "show"]

def mutationTokens : List String :=
  ["insert", "update", "delete", "merge", "create", "alter", "drop", "truncate", "grant", "revoke", "copy"]

section Replacements

variable {α : Type} (char : α → Char)

/-- `text.replace(pattern, replacement)` for a global pattern, of which `matchAt` gives the length of the match at the
front of a text. -/
def replaceAll (matchAt : List α → Option Nat) (replacement : List α) : Nat → List α → List α
  | _, [] => []
  | skip + 1, _ :: rest => replaceAll matchAt replacement skip rest
  | 0, a :: rest =>
      match matchAt (a :: rest) with
      | some (length + 1) => replacement ++ replaceAll matchAt replacement length rest
      | _ => a :: replaceAll matchAt replacement 0 rest

/-- The pattern `--[^\n]*`. -/
def lineComment : List α → Option Nat
  | a :: b :: rest =>
      if char a = '-' ∧ char b = '-' then some (2 + (rest.takeWhile fun c => char c ≠ '\n').length) else none
  | _ => none

/-- The length up to the end of the first `*/`. -/
def blockEnd : List α → Option Nat
  | a :: b :: rest => if char a = '*' ∧ char b = '/' then some 2 else (blockEnd (b :: rest)).map (· + 1)
  | _ => none

/-- The pattern `\/\*[\s\S]*?\*\/`. -/
def blockComment : List α → Option Nat
  | a :: b :: rest => if char a = '/' ∧ char b = '*' then (blockEnd char rest).map (· + 2) else none
  | _ => none

/-- The length up to the closing quote. Where none follows the last doubled quote, the first half of it closes. -/
def quotedEnd (quote : Char) : List α → Option Nat
  | [] => none
  | [a] => if char a = quote then some 1 else none
  | a :: b :: rest =>
      if char a = quote then
        if char b = quote then some (((quotedEnd quote rest).map (· + 2)).getD 1) else some 1
      else (quotedEnd quote (b :: rest)).map (· + 1)

/-- The pattern `'(?:''|[^'])*'`, for either kind of quote. -/
def quoted (quote : Char) : List α → Option Nat
  | a :: rest => if char a = quote then (quotedEnd char quote rest).map (· + 1) else none
  | [] => none

/-- `stripLiteralsAndComments`, with what stands for an emptied literal and an emptied identifier. -/
def stripLiteralsAndComments (emptyLiteral emptyIdentifier : List α) (sql : List α) : List α :=
  replaceAll (quoted char '"') emptyIdentifier 0
    (replaceAll (quoted char '\'') emptyLiteral 0
      (replaceAll (blockComment char) [] 0 (replaceAll (lineComment char) [] 0 sql)))

end Replacements

/-! ## Tokens -/

/-- `toLowerCase`, as far as letters of `[a-z]` come out of it: those of ASCII, the dotted capital I and the Kelvin
sign. -/
def lowerChar (c : Char) : List Char :=
  if c.isUpper then [c.toLower]
  else if c.toNat = 0x130 then ['i', Char.ofNat 0x307]
  else if c.toNat = 0x212A then ['k']
  else [c]

def isWordChar (c : Char) : Bool := c.isLower || c = '_'

/-- A token that has been read. -/
def readToken (word : List Char) : List (List Char) := if word.isEmpty then [] else [word]

/-- `text.match(/[a-z_]+|;/g)`, with the word that is being read. -/
def tokensFrom (word : List Char) : List Char → List (List Char)
  | [] => readToken word
  | c :: rest =>
      if isWordChar c then tokensFrom (word ++ [c]) rest
      else readToken word ++ (if c = ';' then [[';']] else []) ++ tokensFrom [] rest

/-- The tokens of the text that is left over. -/
def readTokens (text : List Char) : List String :=
  (tokensFrom [] ((trim text).flatMap lowerChar)).map String.ofList

def assertReadOnlySql (sql : String) : Checked Unit :=
  let tokens := readTokens (stripLiteralsAndComments id ['\'', '\''] ['"', '"'] sql.toList)
  if ¬ (tokens.head?.any fun token => allowedStarts.contains token) then
    .error (.plain "PQS raw queries must be read-only statements.")
  else if tokens.any fun token => token = ";" then
    .error (.plain "PQS raw queries must contain one read-only statement.")
  else if tokens.any fun token => mutationTokens.contains token then
    .error (.plain "PQS raw queries must be read-only statements.")
  else .ok ()

example : assertReadOnlySql "select * from __contracts where contract_id = $1" = .ok () := by decide +kernel

end CantonSdk.Query.Pqs
