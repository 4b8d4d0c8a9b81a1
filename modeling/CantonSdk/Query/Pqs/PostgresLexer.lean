import CantonSdk.Query.Pqs.ReadOnlySql

/-!
# How PostgreSQL reads a statement

The tokens of a text by the lexical rules of PostgreSQL: strings with doubled quotes, quoted identifiers, line
comments, nested block comments and dollar-quoted strings. A literal that is not closed goes on to the end. The lexer
runs on lists of anything with a character, so that a token keeps the positions of its characters.
-/

set_option linter.all false

namespace CantonSdk.Query.Pqs

/-- A token of the code. Literals and quoted identifiers are tokens without a text. -/
inductive PgToken (α : Type) where
  | word (chars : List α)
  | symbol (char : α)
  | literal
  deriving DecidableEq

/-- What stands at the front of a text, with the number of the characters behind the first that belong to it. -/
inductive Lexeme where
  | word (length : Nat)
  | literal (length : Nat)
  | ignored (length : Nat)
  | symbol

section Lexer

variable {α : Type} (char : α → Char)

/-- Characters other than ASCII are letters. -/
def isIdentifierStart (c : Char) : Bool := c.isAlpha || c = '_' || decide (128 ≤ c.toNat)

def isTagPart (c : Char) : Bool := isIdentifierStart c || c.isDigit

def isIdentifierPart (c : Char) : Bool := isTagPart c || c = '$'

def isPgSpace (c : Char) : Bool := c = ' ' || decide (9 ≤ c.toNat ∧ c.toNat ≤ 13)

/-- The length of what is quoted, its closing quote included. -/
def pgQuoted (quote : Char) : List α → Nat
  | [] => 0
  | [_] => 1
  | a :: b :: rest =>
      if char a = quote then if char b = quote then pgQuoted quote rest + 2 else 1
      else pgQuoted quote (b :: rest) + 1

/-- The length of what is left of a block comment, at a depth. -/
def pgBlockComment : Nat → List α → Nat
  | depth, a :: b :: rest =>
      if char a = '/' ∧ char b = '*' then pgBlockComment (depth + 1) rest + 2
      else if char a = '*' ∧ char b = '/' then if depth ≤ 1 then 2 else pgBlockComment (depth - 1) rest + 2
      else pgBlockComment depth (b :: rest) + 1
  | _, rest => rest.length

/-- The length up to the end of the closing tag. -/
def pgClosingTag (tag : List Char) : List α → Nat
  | [] => 0
  | a :: rest => if tag.isPrefixOf ((a :: rest).map char) then tag.length else pgClosingTag tag rest + 1

/-- The length of a dollar-quoted string behind its first character, where there is one. -/
def pgDollarQuoted (rest : List α) : Option Nat :=
  let tag := rest.takeWhile fun a => isTagPart (char a)
  match rest.drop tag.length with
  | [] => none
  | a :: body =>
      if char a = '$' ∧ (tag.head?.all fun a => isIdentifierStart (char a)) then
        some (tag.length + 1 + pgClosingTag char ('$' :: (tag.map char ++ ['$'])) body)
      else none

def lexemeAt (a : α) (rest : List α) : Lexeme :=
  if isIdentifierStart (char a) then .word (rest.takeWhile fun b => isIdentifierPart (char b)).length
  else if char a = '\'' then .literal (pgQuoted char '\'' rest)
  else if char a = '"' then .literal (pgQuoted char '"' rest)
  else if char a = '-' ∧ rest.head?.map char = some '-' then
    .ignored (rest.takeWhile fun b => char b ≠ '\n' ∧ char b ≠ '\r').length
  else if char a = '/' ∧ rest.head?.map char = some '*' then .ignored (pgBlockComment char 1 (rest.drop 1) + 1)
  else if char a = '$' then
    match pgDollarQuoted char rest with
    | some length => .literal length
    | none => .symbol
  else if isPgSpace (char a) then .ignored 0
  else .symbol

/-- The tokens of a text behind a number of characters that have been read. -/
def pgTokens : Nat → List α → List (PgToken α)
  | _, [] => []
  | skip + 1, _ :: rest => pgTokens skip rest
  | 0, a :: rest =>
      match lexemeAt char a rest with
      | .word length => .word (a :: rest.take length) :: pgTokens length rest
      | .literal length => .literal :: pgTokens length rest
      | .ignored length => pgTokens length rest
      | .symbol => .symbol a :: pgTokens 0 rest

end Lexer

end CantonSdk.Query.Pqs
