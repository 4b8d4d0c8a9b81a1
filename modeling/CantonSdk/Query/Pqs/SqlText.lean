import CantonSdk.Query.Pqs.StatementTokens

/-!
# Texts of statements

A statement is put together from pieces: text that the compilers write themselves, placeholders, and what is quoted. A
template has a separator at both sides of each of its holes, so that a fragment is read as the same tokens wherever it
stands.
-/

set_option linter.all false

namespace CantonSdk.Query.Pqs

/-! ## Pieces -/

def doubled (quote : Char) (text : List Char) : List Char := text.flatMap fun c => if c = quote then [quote, quote] else [c]

def quotePqsIdentifier (value : String) : String := String.ofList ('"' :: (doubled '"' value.toList ++ ['"']))

def quotePqsString (value : String) : String := String.ofList ('\'' :: (doubled '\'' value.toList ++ ['\'']))

/-- A text of a compiler's own. -/
structure SqlCode where
  chars : List Char
  complete : complete 0 chars = true

/-- A check that has been evaluated. -/
theorem checked {check : Bool} (h : check = true) : check = true := h

theorem spelled {text : String} {chars : List Char} (h : text = String.ofList chars) : text = String.ofList chars := h

def code (text : String) {chars : List Char} (_spelled : text = String.ofList chars := by exact spelled rfl)
    (hcomplete : complete 0 chars = true := by exact checked rfl) : SqlCode := ⟨chars, hcomplete⟩

namespace SqlCode

def nothing : SqlCode := code ""

def blank : SqlCode := code " "

def dot : SqlCode := code "."

def comma : SqlCode := code ", "

def equation : SqlCode := code " = "

def closing : SqlCode := code ")"

def selecting : SqlCode := code "select "

def source : SqlCode := code "from "

def condition : SqlCode := code "where "

def ordering : SqlCode := code "order by "

end SqlCode

/-- A piece of a statement. Names of the schema are told apart from names and texts that a caller has given. -/
inductive SqlPiece where
  | code (code : SqlCode)
  | placeholder (number : Nat)
  | identifier (value : String)
  | string (value : String)
  | givenIdentifier (value : String)
  | givenString (value : String)

namespace SqlPiece

def text : SqlPiece → List Char
  | code written => written.chars
  | placeholder number => '$' :: (toString number).toList
  | identifier value | givenIdentifier value => (quotePqsIdentifier value).toList
  | string value | givenString value => (quotePqsString value).toList

def tokens : SqlPiece → List SqlToken
  | code written => sqlTokens 0 written.chars
  | placeholder number => [.parameter (toString number).toList]
  | identifier _ | string _ | givenIdentifier _ | givenString _ => [.literal]

end SqlPiece

def textOf (pieces : List SqlPiece) : List Char := pieces.flatMap SqlPiece.text

def tokensOf (pieces : List SqlPiece) : List SqlToken := pieces.flatMap SqlPiece.tokens

/-- In front of any text that starts with a separator, the pieces are read one by one. -/
def Whole (pieces : List SqlPiece) : Prop :=
  ∀ rest, startsApart rest = true → sqlTokens 0 (textOf pieces ++ rest) = tokensOf pieces ++ sqlTokens 0 rest

/-- A fragment of a statement. -/
structure Sql where
  pieces : List SqlPiece
  whole : Whole pieces

def Sql.text (sql : Sql) : String := String.ofList (textOf sql.pieces)

/-! ## Single pieces -/

theorem doubled_append_closes {quote : Char} (text rest : List Char) (hrest : rest.head? ≠ some quote) :
    pgQuoted id quote (doubled quote text ++ quote :: rest) = (doubled quote text).length + 1 := by
  induction text with
  | nil =>
      cases rest with
      | nil => rfl
      | cons c rest =>
          have hne : c ≠ quote := fun heq => hrest (by rw [heq]; rfl)
          simp [doubled, pgQuoted, hne]
  | cons c text ih =>
      obtain ⟨d, more, hmore⟩ : ∃ d more, doubled quote text ++ quote :: rest = d :: more := by
        cases doubled quote text with
        | nil => exact ⟨_, _, rfl⟩
        | cons d more => exact ⟨_, _, rfl⟩
      by_cases hc : c = quote
      · have hcons : doubled quote (c :: text) = quote :: quote :: doubled quote text := by simp [doubled, hc]
        rw [hcons, List.cons_append, List.cons_append, pgQuoted, id_eq, if_pos rfl, if_pos rfl, ih]
        rfl
      · have hcons : doubled quote (c :: text) = c :: doubled quote text := by simp [doubled, hc]
        rw [hcons, List.cons_append, hmore, pgQuoted, id_eq, if_neg hc, ← hmore, ih]
        rfl

/-- What is put between quotes is one literal, whatever it is. -/
theorem sqlTokens_quoted {quote : Char} (hquote : quote = '\'' ∨ quote = '"') (value rest : List Char)
    (hrest : startsApart rest = true) :
    sqlTokens 0 (quote :: (doubled quote value ++ [quote]) ++ rest) = .literal :: sqlTokens 0 rest := by
  have hlexeme (more : List Char) : lexemeAt id quote more = .literal (pgQuoted id quote more) := by
    rcases hquote with rfl | rfl <;> rfl
  have hnext : rest.head? ≠ some quote := by
    intro hhead
    rw [startsApart, hhead, Option.all_some] at hrest
    rcases hquote with rfl | rfl <;> exact absurd hrest (by decide)
  have hskip (front : List Char) : sqlTokens (front.length + 1) (front ++ quote :: rest) = sqlTokens 0 rest := by
    induction front with
    | nil => rfl
    | cons c front ih => exact ih
  rw [List.cons_append, List.append_assoc, List.singleton_append, sqlTokens, hlexeme, doubled_append_closes _ _ hnext]
  exact congrArg _ (hskip _)

theorem digits_of_toString (number : Nat) : ∀ c ∈ (toString number).toList, c.isDigit = true := by
  intro c hc
  rw [show (toString number).toList = Nat.toDigits 10 number from by simp [toString, Nat.repr]] at hc
  exact Nat.isDigit_of_mem_toDigits (by decide) (by decide) hc

theorem toString_ne_nil (number : Nat) : (toString number).toList ≠ [] := by
  rw [show (toString number).toList = Nat.toDigits 10 number from by simp [toString, Nat.repr]]
  exact Nat.toDigits_ne_nil

theorem takeWhile_digits {p : Char → Bool} (hdigit : ∀ c, c.isDigit = true → p c = true)
    (hseparator : ∀ c, isSeparator c = true → p c = false) {digits rest : List Char}
    (hdigits : ∀ c ∈ digits, c.isDigit = true)
    (hrest : startsApart rest = true) : (digits ++ rest).takeWhile p = digits := by
  rw [List.takeWhile_append_of_pos fun c hc => hdigit c (hdigits c hc)]
  cases rest with
  | nil => simp
  | cons c rest => simp [hseparator c hrest]

theorem sqlTokens_placeholder {digits rest : List Char} (hne : digits ≠ []) (hdigits : ∀ c ∈ digits, c.isDigit = true)
    (hrest : startsApart rest = true) :
    sqlTokens 0 ('$' :: digits ++ rest) = .parameter digits :: sqlTokens 0 rest := by
  have htag := takeWhile_digits (p := isTagPart) (fun c hc => by simp [isTagPart, hc])
    (fun c hc => by simpa [isIdentifierPart] using (Bool.or_eq_false_iff.mp (isIdentifierPart_of_separator hc)).1)
    hdigits hrest
  have hdollar : pgDollarQuoted id (digits ++ rest) = none := by
    rw [pgDollarQuoted]
    simp only [id_eq, htag, List.drop_left]
    cases rest with
    | nil => rfl
    | cons c rest =>
        have hc : c ≠ '$' := (not_quote_of_separator hrest).2.2
        simp [hc]
  have hlexeme : lexemeAt id '$' (digits ++ rest) = .symbol := by
    rw [lexemeAt]
    simp only [id_eq, hdollar]
    rfl
  have hskip (front : List Char) : sqlTokens front.length (front ++ rest) = sqlTokens 0 rest := by
    induction front with
    | nil => rfl
    | cons c front ih => exact ih
  rw [List.cons_append, sqlTokens, hlexeme]
  simp only [takeWhile_digits (fun _ => id) (fun _ => not_digit_of_separator) hdigits hrest, hne, ne_eq, not_false_eq_true,
    and_self, if_true, hskip]

namespace Sql

def empty : Sql := ⟨[], fun _ _ => rfl⟩

def code (code : SqlCode) : Sql :=
  ⟨[.code code], fun rest hrest => by
    simpa [textOf, tokensOf, SqlPiece.text, SqlPiece.tokens] using sqlTokens_append code.complete (.inr (.inr hrest))⟩

def placeholder (number : Nat) : Sql :=
  ⟨[.placeholder number], fun rest hrest => by
    simpa [textOf, tokensOf, SqlPiece.text, SqlPiece.tokens] using
      sqlTokens_placeholder (toString_ne_nil number) (digits_of_toString number) hrest⟩

theorem whole_identifier (value : String) : Whole [.identifier value] := fun rest hrest => by
  simpa [textOf, tokensOf, SqlPiece.text, SqlPiece.tokens, quotePqsIdentifier] using
    sqlTokens_quoted (.inr rfl) value.toList rest hrest

theorem whole_string (value : String) : Whole [.string value] := fun rest hrest => by
  simpa [textOf, tokensOf, SqlPiece.text, SqlPiece.tokens, quotePqsString] using
    sqlTokens_quoted (.inl rfl) value.toList rest hrest

def identifier (value : String) : Sql := ⟨[.identifier value], whole_identifier value⟩

def string (value : String) : Sql := ⟨[.string value], whole_string value⟩

def givenIdentifier (value : String) : Sql := ⟨[.givenIdentifier value], whole_identifier value⟩

def givenString (value : String) : Sql := ⟨[.givenString value], whole_string value⟩

end Sql

/-! ## Templates -/

/-- A text between two holes. -/
def between (code : SqlCode) : Bool := !code.chars.isEmpty && startsApart code.chars && endsApart code.chars

/-- Every hole of a template has a separator before and behind it. -/
def fits (codes : List SqlCode) (last : SqlCode) : Bool :=
  codes.all (fun code => endsApart code.chars) && codes.tail.all between && startsApart last.chars

/-- The texts with what stands behind each of them, and the text at the end. -/
def templatePieces (parts : List (SqlCode × Sql)) (last : SqlCode) : List SqlPiece :=
  parts.flatMap (fun part => .code part.1 :: part.2.pieces) ++ [.code last]

theorem templatePieces_cons (part : SqlCode × Sql) (parts : List (SqlCode × Sql)) (last : SqlCode) :
    templatePieces (part :: parts) last = .code part.1 :: (part.2.pieces ++ templatePieces parts last) := by
  simp [templatePieces]

/-- What stands behind a hole of a template starts with a separator. -/
theorem startsApart_template {parts : List (SqlCode × Sql)} {last : SqlCode}
    (hparts : ∀ part ∈ parts, between part.1 = true)
    (hlast : startsApart last.chars = true) {rest : List Char} (hrest : startsApart rest = true) :
    startsApart (textOf (templatePieces parts last) ++ rest) = true := by
  cases parts with
  | nil =>
      obtain ⟨chars, hchars⟩ := last
      cases chars with
      | nil => simpa [templatePieces, textOf, SqlPiece.text] using hrest
      | cons c chars => simpa [templatePieces, textOf, SqlPiece.text, startsApart] using hlast
  | cons part parts =>
      obtain ⟨⟨chars, hchars⟩, sql⟩ := part
      have hbetween := hparts _ List.mem_cons_self
      simp only [between, Bool.and_eq_true] at hbetween
      cases chars with
      | nil => cases hbetween.1.1
      | cons c chars => simpa [templatePieces_cons, textOf, SqlPiece.text, startsApart] using hbetween.1.2

theorem whole_template {parts : List (SqlCode × Sql)} {last : SqlCode}
    (hends : ∀ part ∈ parts, endsApart part.1.chars = true)
    (hparts : ∀ part ∈ parts.tail, between part.1 = true) (hlast : startsApart last.chars = true) :
    Whole (templatePieces parts last) := by
  intro rest hrest
  induction parts with
  | nil =>
      simpa [templatePieces, textOf, tokensOf, SqlPiece.text, SqlPiece.tokens] using
        sqlTokens_append last.complete (.inr (.inr hrest))
  | cons part parts ih =>
      rw [List.tail_cons] at hparts
      have hends' : ∀ part ∈ parts, endsApart part.1.chars = true := fun part hpart =>
        hends part (List.mem_cons_of_mem _ hpart)
      have hbehind := startsApart_template hparts hlast hrest
      have happart : Apart part.1.chars (textOf part.2.pieces ++ (textOf (templatePieces parts last) ++ rest)) :=
        .inr (.inl (hends part List.mem_cons_self))
      have hcode := sqlTokens_append part.1.complete happart
      have hrest' := ih hends' fun part hpart => hparts part (List.mem_of_mem_tail hpart)
      rw [part.2.whole _ hbehind, hrest'] at hcode
      rw [templatePieces_cons]
      simpa [textOf, tokensOf, SqlPiece.text, SqlPiece.tokens, List.append_assoc] using hcode

namespace Sql

/-- A template with its holes filled. -/
def template (parts : List (SqlCode × Sql)) (last : SqlCode)
    (hfits : fits (parts.map Prod.fst) last = true := by exact checked rfl) : Sql :=
  ⟨templatePieces parts last, by
    simp only [fits, Bool.and_eq_true, List.all_eq_true, List.mem_map, forall_exists_index, and_imp,
      forall_apply_eq_imp_iff₂, List.map_tail] at hfits
    refine whole_template hfits.1.1 (fun part hpart => hfits.1.2 part.1 ?_) hfits.2
    rw [← List.map_tail]
    exact List.mem_map_of_mem hpart⟩

/-- The fragments with a separator between them. -/
def join (separator : SqlCode) (fragments : List Sql) (hbetween : between separator = true := by exact checked rfl) : Sql :=
  match fragments with
  | [] => empty
  | first :: rest =>
      template ((.nothing, first) :: rest.map fun sql => (separator, sql)) .nothing <| by
        have hends : endsApart separator.chars = true := (Bool.and_eq_true _ _ ▸ hbetween : _ ∧ _).2
        simp only [fits, List.map_cons, List.map_map, List.all_cons, List.tail_cons, Bool.and_eq_true, List.all_eq_true,
          List.mem_map, forall_exists_index, and_imp]
        exact ⟨⟨⟨rfl, fun _ _ _ h => h ▸ hends⟩, fun _ _ _ h => h ▸ hbetween⟩, rfl⟩

abbrev commas (fragments : List Sql) : Sql := join .comma fragments

abbrev blanks (fragments : List Sql) : Sql := join .blank fragments

end Sql

end CantonSdk.Query.Pqs
