import CantonSdk.Query.Pqs.PostgresLexer

/-!
# Tokens of a statement with parameters

The lexer of PostgreSQL once more, for a text that is sent with bound values: a dollar sign with digits behind it is a
parameter. Texts may be joined where a separator stands at the seam: what each of them is read as is then not changed by
the other.
-/

set_option linter.all false

namespace CantonSdk.Query.Pqs

/-- A token of a statement. Literals and quoted identifiers are tokens without a text. -/
inductive SqlToken where
  | word (chars : List Char)
  | symbol (char : Char)
  | literal
  | parameter (digits : List Char)
  deriving DecidableEq

/-- The tokens of a text behind a number of characters that have been read. -/
def sqlTokens : Nat → List Char → List SqlToken
  | _, [] => []
  | skip + 1, _ :: rest => sqlTokens skip rest
  | 0, c :: rest =>
      match lexemeAt id c rest with
      | .word length => .word (c :: rest.take length) :: sqlTokens length rest
      | .literal length => .literal :: sqlTokens length rest
      | .ignored length => sqlTokens length rest
      | .symbol =>
          let digits := rest.takeWhile Char.isDigit
          if c = '$' ∧ digits ≠ [] then .parameter digits :: sqlTokens digits.length rest
          else .symbol c :: sqlTokens 0 rest

/-! ## Seams -/

/-- Characters that belong to no other token, whatever stands around them. -/
def isSeparator (c : Char) : Bool := c ∈ [' ', '\n', '(', ')', ',', '.', ':', '=', '[', ']']

/-- A text that nothing before it can go on into. -/
def startsApart (text : List Char) : Bool := text.head?.all isSeparator

/-- A text that goes on into nothing behind it. -/
def endsApart (text : List Char) : Bool := text.getLast?.all isSeparator

theorem endsApart_of_cons {c : Char} {rest : List Char} (h : endsApart (c :: rest) = true) : endsApart rest = true := by
  cases rest with
  | nil => rfl
  | cons d rest =>
      rw [endsApart, List.getLast?_cons_cons] at h
      exact h

/-- Behind the opening quote, a closing one follows. -/
def closes (quote : Char) : List Char → Bool
  | [] => false
  | [c] => c = quote
  | c :: d :: rest => if c = quote then if d = quote then closes quote rest else true else closes quote (d :: rest)

/-- Every token of the text ends in it, and none of them is a parameter, a comment or a dollar-quoted string. -/
def complete : Nat → List Char → Bool
  | 0, [] => true
  | _ + 1, [] => false
  | skip + 1, _ :: rest => complete skip rest
  | 0, c :: rest =>
      if isIdentifierStart c then complete (rest.takeWhile isIdentifierPart).length rest
      else if c = '\'' ∨ c = '"' then closes c rest && complete (pgQuoted id c rest) rest
      else decide (c ≠ '$' ∧ c ≠ '/') && (decide (c ≠ '-') || decide (rest.head? ≠ some '-' ∧ rest ≠ [])) && complete 0 rest

theorem isSeparator_cases {c : Char} (h : isSeparator c = true) :
    c = ' ' ∨ c = '\n' ∨ c = '(' ∨ c = ')' ∨ c = ',' ∨ c = '.' ∨ c = ':' ∨ c = '=' ∨ c = '[' ∨ c = ']' := by
  simpa [isSeparator] using h

theorem isIdentifierPart_of_separator {c : Char} (h : isSeparator c = true) : isIdentifierPart c = false := by
  rcases isSeparator_cases h with rfl | rfl | rfl | rfl | rfl | rfl | rfl | rfl | rfl | rfl <;> decide

theorem not_quote_of_separator {c : Char} (h : isSeparator c = true) : c ≠ '\'' ∧ c ≠ '"' ∧ c ≠ '$' := by
  rcases isSeparator_cases h with rfl | rfl | rfl | rfl | rfl | rfl | rfl | rfl | rfl | rfl <;> decide

theorem not_digit_of_separator {c : Char} (h : isSeparator c = true) : c.isDigit = false := by
  rcases isSeparator_cases h with rfl | rfl | rfl | rfl | rfl | rfl | rfl | rfl | rfl | rfl <;> decide

theorem isIdentifierPart_of_start {c : Char} (h : isIdentifierStart c = true) : isIdentifierPart c = true := by
  simp [isIdentifierPart, isTagPart, h]

/-- A separator stands where the two texts meet, or one of them is empty. -/
def Apart (front rest : List Char) : Prop := front = [] ∨ endsApart front = true ∨ startsApart rest = true

theorem Apart.of_cons {c : Char} {front rest : List Char} (h : Apart (c :: front) rest) : Apart front rest := by
  rcases h with h | h | h
  · cases h
  · exact .inr (.inl (endsApart_of_cons h))
  · exact .inr (.inr h)

/-- What is not a separator does not stand at the end of the first text, if the second goes on with more of the kind. -/
theorem Apart.stops {p : Char → Bool} (hp : ∀ c, isSeparator c = true → p c = false) {front rest : List Char}
    (h : Apart front rest) {last : Char} (hlast : front.getLast? = some last) (hkind : p last = true) :
    rest.takeWhile p = [] := by
  rcases h with rfl | h | h
  · cases hlast
  · rw [endsApart, hlast, Option.all_some] at h
    rw [hp last h] at hkind
    cases hkind
  · cases rest with
    | nil => rfl
    | cons c rest =>
        rw [startsApart, List.head?_cons, Option.all_some] at h
        rw [List.takeWhile_cons, hp c h]
        rfl

/-- What a token takes of the first text is not changed by the second. -/
theorem takeWhile_append_apart {p : Char → Bool} (hp : ∀ c, isSeparator c = true → p c = false) {c : Char}
    {front rest : List Char} (hc : p c = true) (h : Apart (c :: front) rest) :
    (front ++ rest).takeWhile p = front.takeWhile p := by
  rw [List.takeWhile_append]
  split
  · rename_i hall
    have hfront : front.takeWhile p = front := List.IsPrefix.eq_of_length (List.takeWhile_prefix p) hall
    have hkinds : ∀ d ∈ front, p d = true := fun d hd => List.mem_takeWhile_imp (by rw [hfront]; exact hd)
    have hlast : (c :: front).getLast? = some ((c :: front).getLast (List.cons_ne_nil c front)) :=
      List.getLast?_eq_some_getLast (List.cons_ne_nil c front)
    have hkind : p ((c :: front).getLast (List.cons_ne_nil c front)) = true := by
      rcases List.mem_cons.mp (List.getLast_mem (List.cons_ne_nil c front)) with heq | hmem
      · rw [heq, hc]
      · exact hkinds _ hmem
    rw [h.stops hp hlast hkind, List.append_nil, hfront]
  · rfl

theorem pgQuoted_append {quote : Char} {front rest : List Char} (hclosed : closes quote front = true)
    (hrest : front.getLast? = some quote → rest.head? ≠ some quote) :
    pgQuoted id quote (front ++ rest) = pgQuoted id quote front := by
  induction front using closes.induct quote with
  | case1 => cases hclosed
  | case2 c =>
      obtain rfl : c = quote := by simpa [closes] using hclosed
      cases rest with
      | nil => rfl
      | cons d rest =>
          have hnext : d ≠ c := fun heq => hrest rfl (by rw [heq]; rfl)
          simp [pgQuoted, hnext]
  | case3 rest' ih =>
      rw [closes, if_pos rfl, if_pos rfl] at hclosed
      have hne : rest' ≠ [] := by
        rintro rfl
        cases hclosed
      have hlast : rest'.getLast? = some quote → rest.head? ≠ some quote := by
        rwa [List.getLast?_cons_cons, List.getLast?_cons_of_ne_nil hne] at hrest
      simp only [List.cons_append, pgQuoted, id_eq, if_true, ih hclosed hlast]
  | case4 d rest' hd => simp only [List.cons_append, pgQuoted, id_eq, if_true, hd, if_false]
  | case5 c d rest' hc ih =>
      rw [closes, if_neg hc] at hclosed
      rw [List.getLast?_cons_cons] at hrest
      have hnext := ih hclosed hrest
      rw [List.cons_append] at hnext
      simp only [List.cons_append, pgQuoted, id_eq, hc, if_false, hnext]

theorem Apart.next_quote {quote : Char} (hquote : quote = '\'' ∨ quote = '"') {front rest : List Char}
    (h : Apart front rest) (hlast : front.getLast? = some quote) : rest.head? ≠ some quote := by
  intro hhead
  have hseparator : isSeparator quote = true := by
    rcases h with rfl | h | h
    · cases hlast
    · rwa [endsApart, hlast, Option.all_some] at h
    · rwa [startsApart, hhead, Option.all_some] at h
  rcases hquote with rfl | rfl <;> exact absurd hseparator (by decide)

/-- A character that begins no longer token. -/
theorem lexemeAt_single {c : Char} {rest : List Char} (hstart : isIdentifierStart c = false)
    (hquote : ¬ (c = '\'' ∨ c = '"'))
    (hdollar : c ≠ '$' ∧ c ≠ '/') (hhyphen : c = '-' → rest.head? ≠ some '-') :
    lexemeAt id c rest = if isPgSpace c then .ignored 0 else .symbol := by
  rw [not_or] at hquote
  have hcomment : ¬ (c = '-' ∧ rest.head? = some '-') := fun h => hhyphen h.1 h.2
  simp [lexemeAt, hstart, hquote, hdollar, hcomment]

/-- Complete texts are read one by one where they are apart. -/
theorem sqlTokens_append {skip : Nat} {front rest : List Char} (hcomplete : complete skip front = true)
    (hapart : Apart front rest) : sqlTokens skip (front ++ rest) = sqlTokens skip front ++ sqlTokens 0 rest := by
  induction front generalizing skip with
  | nil =>
      cases skip with
      | zero => rfl
      | succ skip => cases hcomplete
  | cons c front ih =>
      cases skip with
      | succ skip => exact ih hcomplete hapart.of_cons
      | zero =>
          rw [complete] at hcomplete
          split at hcomplete
          · rename_i hstart
            have htaken :=
              takeWhile_append_apart (fun _ => isIdentifierPart_of_separator) (isIdentifierPart_of_start hstart) hapart
            have hlexeme (more : List Char) : lexemeAt id c more = .word (more.takeWhile isIdentifierPart).length := by
              simp only [lexemeAt, id_eq, hstart, if_true]
            have hle : (front.takeWhile isIdentifierPart).length ≤ front.length := (List.takeWhile_prefix _).length_le
            rw [List.cons_append, sqlTokens, sqlTokens, hlexeme, hlexeme, htaken]
            simp only [List.take_append_of_le_length hle, List.cons_append, ih hcomplete hapart.of_cons]
          · rename_i hstart
            rw [Bool.not_eq_true] at hstart
            split at hcomplete
            · rename_i hquote
              rw [Bool.and_eq_true] at hcomplete
              have hlexeme (more : List Char) : lexemeAt id c more = .literal (pgQuoted id c more) := by
                rcases hquote with rfl | rfl <;> rfl
              have hne : front ≠ [] := by
                rintro rfl
                exact absurd hcomplete.1 (by simp [closes])
              have hquoted := pgQuoted_append hcomplete.1 (hapart.of_cons.next_quote hquote)
              rw [List.cons_append, sqlTokens, sqlTokens, hlexeme, hlexeme, hquoted]
              simp only [List.cons_append, ih hcomplete.2 hapart.of_cons]
            · rename_i hquote
              simp only [Bool.and_eq_true, Bool.or_eq_true, decide_eq_true_eq] at hcomplete
              obtain ⟨⟨hdollar, hhyphen⟩, hcomplete⟩ := hcomplete
              have hhead : c = '-' → (front ++ rest).head? ≠ some '-' ∧ front.head? ≠ some '-' := by
                intro hc
                rcases hhyphen with hne | ⟨hnext, hne⟩
                · exact absurd hc hne
                · cases front with
                  | nil => exact absurd rfl hne
                  | cons d front => exact ⟨hnext, hnext⟩
              have hlexeme (more : List Char) (hmore : c = '-' → more.head? ≠ some '-') :=
                lexemeAt_single hstart hquote hdollar hmore
              rw [List.cons_append, sqlTokens, sqlTokens, hlexeme _ fun h => (hhead h).1, hlexeme _ fun h => (hhead h).2]
              have hrest := ih hcomplete hapart.of_cons
              by_cases hspace : isPgSpace c = true
              · simp only [hspace, if_true, hrest]
              · simp only [hspace, Bool.false_eq_true, if_false, hdollar.1, false_and, hrest, List.cons_append]

end CantonSdk.Query.Pqs
